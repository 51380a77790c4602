import AvaListener.Audio.PrefixFragments
import AvaListener.Library.SlidingWindow

/-!
# What the window shows

The hypothesis buffer under a clock that never goes back, with every method and any texts.
`_purge` looks at the front only; the stamps stay in order, since an entry that is replaced
in place is the last one and gets a stamp of its own, so nothing fresh stands behind
anything stale.
-/

namespace AvaListener
namespace Audio

open Library Config Matcher HypothesisBuffer

/-- A call of the buffer, with the clock readings it makes. -/
inductive BufferCall where
  | push (stampTime purgeTime : ℚ) (text : Text) (stability : ℕ)
  | getWindow (time : ℚ)
  /-- `__len__`. -/
  | len (time : ℚ)
  | clear
  deriving DecidableEq

/-- The buffer, the last clock reading, and the entry of the last `push` since the last
`clear`. -/
structure PushedBuffer where
  clock : ℚ
  buffer : HypothesisBuffer
  pushed : Option BufferEntry
  deriving DecidableEq

namespace PushedBuffer

def start (clock : ℚ) : PushedBuffer := ⟨clock, .empty, none⟩

/-- One call.  A clock that goes back is refused. -/
def step (s : PushedBuffer) : BufferCall → Option PushedBuffer
  | .push stampTime purgeTime text stability =>
      if s.clock ≤ stampTime ∧ stampTime ≤ purgeTime then
        some ⟨purgeTime, s.buffer.push stampTime purgeTime text stability,
          some ⟨stampTime, text, stability⟩⟩
      else none
  | .getWindow time | .len time =>
      if s.clock ≤ time then some { s with clock := time, buffer := s.buffer.purge time } else none
  | .clear => some ⟨s.clock, s.buffer.clear, none⟩

/-- What `get_window` returns at a time. -/
def getWindow (s : PushedBuffer) (time : ℚ) : List Hypothesis := (s.buffer.purge time).window

/-- What `__len__` returns at a time. -/
def len (s : PushedBuffer) (time : ℚ) : ℕ := (s.buffer.purge time).entries.length

/-- The entries that are not older than the window. -/
def fresh (s : PushedBuffer) (time : ℚ) : List BufferEntry :=
  s.buffer.entries.filter fun e => time - windowSeconds ≤ e.stamp

/-- The stamps are in order, the window shows the fresh entries in order, and the last
push is at its end while it is fresh. -/
structure ShowsFresh (s : PushedBuffer) : Prop where
  sorted : s.buffer.entries.Pairwise (·.stamp ≤ ·.stamp)
  window : ∀ time, s.clock ≤ time →
    s.getWindow time = (s.fresh time).map fun e => ⟨e.text, e.stability⟩
  len : ∀ time, s.clock ≤ time → s.len time = (s.fresh time).length
  last : ∀ e ∈ s.pushed, ∀ time, s.clock ≤ time → time - windowSeconds ≤ e.stamp →
    (s.getWindow time).getLast? = some ⟨e.text, e.stability⟩

/-! ## The invariant -/

/-- The last entry is the last push until that is stale. -/
structure Current (s : PushedBuffer) : Prop where
  stamped : Stamped s.clock s.buffer.entries
  pushed : ∀ e ∈ s.pushed, s.buffer.entries.getLast? = some e ∨ stale s.clock e = true

theorem current_start (clock : ℚ) : (start clock).Current where
  stamped := ⟨List.Pairwise.nil, nofun⟩
  pushed := nofun

/-- What is stale stays so. -/
theorem stale_later {now later : ℚ} {e : BufferEntry} (hle : now ≤ later)
    (h : stale now e = true) : stale later e = true := by
  have hlt : e.stamp < now - windowSeconds := of_decide_eq_true h
  exact decide_eq_true (hlt.trans_le (sub_le_sub_right hle _))

/-- Stamps in order: the purge leaves the fresh entries. -/
theorem purge_eq_filter {b : HypothesisBuffer} (h : b.entries.Pairwise (·.stamp ≤ ·.stamp))
    (now : ℚ) :
    (b.purge now).entries = b.entries.filter fun e => now - windowSeconds ≤ e.stamp := by
  have hstale : ∀ a e : BufferEntry, a.stamp ≤ e.stamp → stale now e = true →
      stale now a = true := by
    intro a e hle he
    have hlt : e.stamp < now - windowSeconds := of_decide_eq_true he
    exact decide_eq_true (hle.trans_lt hlt)
  refine (dropWhile_eq_filter_of_pairwise h hstale).trans (List.filter_congr ?_)
  intro e _
  show (!decide (e.stamp < now - windowSeconds)) = _
  rw [← decide_not]
  exact decide_eq_decide.mpr not_lt

/-- A purge takes the last entry only when it is stale. -/
theorem getLast?_purge {b : HypothesisBuffer} {e : BufferEntry} {now : ℚ}
    (h : b.entries.getLast? = some e) :
    (b.purge now).entries.getLast? = some e ∨ stale now e = true := by
  obtain ⟨front, hfront⟩ := List.getLast?_eq_some_iff.mp h
  cases hstale : stale now e with
  | true => exact .inr rfl
  | false =>
      refine .inl ?_
      rw [purge, hfront, List.dropWhile_append]
      split
      · simp [hstale]
      · exact List.getLast?_concat

theorem Current.showsFresh {s : PushedBuffer} (h : s.Current) : s.ShowsFresh := by
  have hpurge := fun time => purge_eq_filter h.stamped.1 time
  refine ⟨h.stamped.1, fun time _ => ?_, fun time _ => ?_, fun e he time hclock hfresh => ?_⟩
  · rw [getWindow, window, hpurge]
    rfl
  · rw [len, hpurge]
    rfl
  · have hnot : ¬ stale time e = true := by
      simpa [stale] using hfresh
    have hlast : s.buffer.entries.getLast? = some e :=
      (h.pushed e he).resolve_right fun hstale => hnot (stale_later hclock hstale)
    rw [getWindow, window, List.getLast?_map, (getLast?_purge hlast).resolve_right hnot]
    rfl

/-- A purge keeps the buffer current. -/
theorem Current.purge {s : PushedBuffer} (h : s.Current) {time : ℚ} (hclock : s.clock ≤ time) :
    ({ s with clock := time, buffer := s.buffer.purge time } : PushedBuffer).Current := by
  refine ⟨h.stamped.of_sublist (List.dropWhile_suffix _).sublist hclock, fun e he => ?_⟩
  rcases h.pushed e he with hlast | hstale
  · exact getLast?_purge hlast
  · exact .inr (stale_later hclock hstale)

/-- **One call.** -/
theorem Current.step {s t : PushedBuffer} {c : BufferCall} (h : s.Current)
    (hstep : s.step c = some t) : t.Current := by
  cases c with
  | push stampTime purgeTime text stability =>
      obtain ⟨⟨hclock, horder⟩, heq⟩ := Option.ite_none_right_eq_some.mp hstep
      obtain rfl := Option.some.inj heq
      have hkept := h.stamped.of_sublist (kept_sublist text s.buffer.entries) le_rfl
      refine ⟨(hkept.concat hclock horder text stability).of_sublist
        (List.dropWhile_suffix _).sublist le_rfl, ?_⟩
      rintro _ ⟨⟩
      exact getLast?_purge List.getLast?_concat
  | getWindow time =>
      obtain ⟨hclock, heq⟩ := Option.ite_none_right_eq_some.mp hstep
      exact Option.some.inj heq ▸ h.purge hclock
  | len time =>
      obtain ⟨hclock, heq⟩ := Option.ite_none_right_eq_some.mp hstep
      exact Option.some.inj heq ▸ h.purge hclock
  | clear =>
      obtain rfl := Option.some.inj hstep
      exact ⟨⟨List.Pairwise.nil, nofun⟩, nofun⟩

/-- **The window**, after any calls under a clock that never goes back. -/
theorem always_showsFresh (clock : ℚ) (calls : List BufferCall) :
    Always step ShowsFresh (start clock) calls :=
  always_of_invariant step calls (current_start clock) (fun _ h => h.showsFresh)
    fun _ _ _ h hstep => h.step hstep

/-! ## The buffer of non-empty texts -/

/-- The runs of `TimedBuffer` are runs here. -/
theorem step_of_timedBuffer {s t : TimedBuffer} {op : BufferOp} (h : s.step op = some t)
    (pushed : Option BufferEntry) :
    ∃ c pushed', step ⟨s.clock, s.buffer, pushed⟩ c = some ⟨t.clock, t.buffer, pushed'⟩ := by
  cases op with
  | push stampTime purgeTime text stability =>
      obtain ⟨hclock, horder, -, rfl⟩ := TimedBuffer.step_push_eq_some h
      exact ⟨.push stampTime purgeTime text stability, some ⟨stampTime, text, stability⟩,
        if_pos ⟨hclock, horder⟩⟩
  | getWindow time =>
      obtain ⟨hclock, heq⟩ := Option.ite_none_right_eq_some.mp h
      obtain rfl := Option.some.inj heq
      exact ⟨.getWindow time, pushed, if_pos hclock⟩
  | clear =>
      obtain rfl := Option.some.inj h
      exact ⟨.clear, none, rfl⟩

end PushedBuffer

end Audio
end AvaListener
