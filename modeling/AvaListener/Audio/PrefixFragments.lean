import Mathlib.Data.List.Chain
import AvaListener.Audio.HypothesisBuffer
import AvaListener.Library.Runs

/-!
# Growing prefixes in the hypothesis buffer

`push` compares the new text with the last entry alone.  When a recogniser
revises a partial, the last entry may shrink to a prefix of the entry before it;
the next growth replaces that last entry and ends as an extension of the entry
before, which stays.

The buffer is run under a clock that never goes back.  Neighbours stay free of
prefixes exactly as long as no push meets such a shrunk last entry.
-/

namespace AvaListener
namespace Audio

open Library Matcher HypothesisBuffer

/-! ## The buffer under a clock -/

/-- The buffer and the last clock reading. -/
structure TimedBuffer where
  clock : ℚ
  buffer : HypothesisBuffer

inductive BufferOp where
  /-- `push` with its two clock readings. -/
  | push (stampTime purgeTime : ℚ) (text : Text) (stability : ℕ)
  | getWindow (time : ℚ)
  | clear

namespace TimedBuffer

def start (clock : ℚ) : TimedBuffer := ⟨clock, .empty⟩

/-- One operation.  A clock that goes back is refused, and so is an empty text. -/
def step (s : TimedBuffer) : BufferOp → Option TimedBuffer
  | .push stampTime purgeTime text stability =>
      if s.clock ≤ stampTime ∧ stampTime ≤ purgeTime ∧ text ≠ [] then
        some ⟨purgeTime, s.buffer.push stampTime purgeTime text stability⟩
      else none
  | .getWindow time => if s.clock ≤ time then some ⟨time, s.buffer.purge time⟩ else none
  | .clear => some ⟨s.clock, s.buffer.clear⟩

/-- No entry of the window is a prefix of the entry right after it. -/
def NoFragments (s : TimedBuffer) : Prop :=
  s.buffer.window.IsChain fun a b => ¬ a.text <+: b.text

instance (s : TimedBuffer) : Decidable s.NoFragments :=
  inferInstanceAs (Decidable (List.IsChain _ _))

end TimedBuffer

/-! ## The push that leaves a fragment -/

/-- The last two entries, the older one first. -/
def lastTwo (entries : List BufferEntry) : Option (BufferEntry × BufferEntry) :=
  match entries.reverse with
  | e :: a :: _ => some (a, e)
  | _ => none

/-- The last entry is a prefix of the one before it, and `text` extends that one,
which is not stale yet. -/
def regrows (b : HypothesisBuffer) (purgeTime : ℚ) (text : Text) : Bool :=
  (lastTwo b.entries).any fun (a, e) =>
    stale purgeTime a = false ∧ startsWith a.text e.text ∧ startsWith text a.text

/-- The operation is no such push. -/
def BufferOp.avoidsRegrowth (s : TimedBuffer) : BufferOp → Prop
  | .push _ purgeTime text _ => regrows s.buffer purgeTime text = false
  | .getWindow _ => True
  | .clear => True

instance (s : TimedBuffer) : ∀ op : BufferOp, Decidable (op.avoidsRegrowth s)
  | .push _ purgeTime text _ => inferInstanceAs (Decidable (regrows s.buffer purgeTime text = false))
  | .getWindow _ => inferInstanceAs (Decidable True)
  | .clear => inferInstanceAs (Decidable True)

theorem lastTwo_concat (front : List BufferEntry) (e : BufferEntry) :
    lastTwo (front ++ [e]) = front.getLast?.map fun a => (a, e) := by
  rcases List.eq_nil_or_concat front with rfl | ⟨rest, a, rfl⟩
  · rfl
  · simp [lastTwo]

/-! ## Neighbours under one push -/

/-- No entry is a prefix of its successor. -/
def Separated (entries : List BufferEntry) : Prop :=
  entries.IsChain fun a b => ¬ a.text <+: b.text

theorem TimedBuffer.noFragments_iff (s : TimedBuffer) :
    s.NoFragments ↔ Separated s.buffer.entries :=
  List.isChain_map _

/-- **The neighbour of the pushed text.**  What `kept` leaves last is a prefix of
the new text only where the replaced entry had shrunk to a prefix of it. -/
theorem kept_prefix_iff {entries : List BufferEntry} {text : Text} (hsep : Separated entries)
    (htexts : ∀ e ∈ entries, e.text ≠ []) (x : BufferEntry) :
    x ∈ (kept text entries).getLast? ∧ x.text <+: text ↔
      ∃ e, lastTwo entries = some (x, e) ∧ e.text <+: x.text ∧ x.text <+: text := by
  rcases List.eq_nil_or_concat entries with rfl | ⟨front, e, rfl⟩
  · simp [kept, lastTwo]
  rw [List.concat_eq_append] at *
  have hne : e.text ≠ [] := htexts e (by simp)
  have htwo : (∃ e', lastTwo (front ++ [e]) = some (x, e') ∧ e'.text <+: x.text ∧ x.text <+: text) ↔
      x ∈ front.getLast? ∧ e.text <+: x.text ∧ x.text <+: text := by
    simp [lastTwo_concat]
  rw [htwo, kept, List.getLast?_concat, Option.any_some, List.dropLast_concat]
  by_cases habsorbs : absorbs text e = true
  · rw [if_pos habsorbs]
    have hcompare : e.text <+: text ∨ text <+: e.text := by
      simpa [absorbs, startsWith, hne] using habsorbs
    refine and_congr_right fun hx => ⟨fun hgrown => ⟨?_, hgrown⟩, And.right⟩
    have hapart : ¬ x.text <+: e.text := (List.isChain_append.mp hsep).2.2 x hx e rfl
    rcases hcompare with hgrow | hshrink
    · -- Two prefixes of one text: the longer one is not a prefix of the shorter.
      exact (List.prefix_or_prefix_of_prefix hgrow hgrown).resolve_right hapart
    · exact absurd (hgrown.trans hshrink) hapart
  · rw [if_neg habsorbs, List.getLast?_concat]
    have hfree : ¬ e.text <+: text := by
      intro hgrown
      exact habsorbs (by simp [absorbs, startsWith, hne, hgrown])
    refine iff_of_false ?_ ?_
    · rintro ⟨hx, hgrown⟩
      obtain rfl := Option.some.inj hx
      exact hfree hgrown
    · rintro ⟨-, hshrunk, hgrown⟩
      exact hfree (hshrunk.trans hgrown)

/-- The push regrows exactly when a live neighbour is a prefix of the new text. -/
theorem regrows_iff {b : HypothesisBuffer} {purgeTime : ℚ} {text : Text}
    (hsep : Separated b.entries) (htexts : ∀ e ∈ b.entries, e.text ≠ []) :
    regrows b purgeTime text = true ↔
      ∃ x ∈ (kept text b.entries).getLast?, stale purgeTime x = false ∧ x.text <+: text := by
  have hlast : regrows b purgeTime text = true ↔ ∃ x e, lastTwo b.entries = some (x, e) ∧
      stale purgeTime x = false ∧ e.text <+: x.text ∧ x.text <+: text := by
    simp [regrows, Option.any_eq_true, startsWith]
  rw [hlast]
  constructor
  · rintro ⟨x, e, htwo, hlive, hshrunk, hgrown⟩
    have hx := (kept_prefix_iff hsep htexts x).mpr ⟨e, htwo, hshrunk, hgrown⟩
    exact ⟨x, hx.1, hlive, hx.2⟩
  · rintro ⟨x, hx, hlive, hgrown⟩
    obtain ⟨e, htwo, hshrunk, -⟩ := (kept_prefix_iff hsep htexts x).mp ⟨hx, hgrown⟩
    exact ⟨x, e, htwo, hlive, hshrunk, hgrown⟩

/-! ## The purge -/

theorem Separated.purge {b : HypothesisBuffer} (h : Separated b.entries) (now : ℚ) :
    Separated (b.purge now).entries :=
  h.suffix (List.dropWhile_suffix _)

/-- Stamps in order, none after the clock. -/
def Stamped (clock : ℚ) (entries : List BufferEntry) : Prop :=
  entries.Pairwise (·.stamp ≤ ·.stamp) ∧ ∀ e ∈ entries, e.stamp ≤ clock

/-- In a list in stamp order, everything up to a stale entry is stale. -/
theorem dropWhile_stale_concat {front : List BufferEntry} {x : BufferEntry} {now : ℚ}
    (hsorted : (front ++ [x]).Pairwise (·.stamp ≤ ·.stamp)) (hstale : stale now x = true)
    (rest : List BufferEntry) :
    (front ++ [x] ++ rest).dropWhile (stale now) = rest.dropWhile (stale now) := by
  refine List.dropWhile_append_of_pos fun a ha => ?_
  rw [List.mem_append, List.mem_singleton] at ha
  rcases ha with ha | rfl
  · have hle : a.stamp ≤ x.stamp := (List.pairwise_append.mp hsorted).2.2 a ha x (by simp)
    have hlt : x.stamp < now - Config.windowSeconds := of_decide_eq_true hstale
    exact decide_eq_true (hle.trans_lt hlt)
  · exact hstale

/-- What a sublist or an appended stamp keeps. -/
theorem Stamped.of_sublist {clock later : ℚ} {entries entries' : List BufferEntry}
    (h : Stamped clock entries) (hsub : entries'.Sublist entries) (hle : clock ≤ later) :
    Stamped later entries' :=
  ⟨h.1.sublist hsub, fun e he => (h.2 e (hsub.subset he)).trans hle⟩

theorem Stamped.concat {clock stampTime purgeTime : ℚ} {entries : List BufferEntry}
    (h : Stamped clock entries) (hstamp : clock ≤ stampTime) (hpurge : stampTime ≤ purgeTime)
    (text : Text) (stability : ℕ) :
    Stamped purgeTime (entries ++ [⟨stampTime, text, stability⟩]) := by
  refine ⟨?_, ?_⟩
  · refine List.pairwise_append.mpr ⟨h.1, List.pairwise_singleton _ _, ?_⟩
    intro a ha b hb
    obtain rfl := List.mem_singleton.mp hb
    exact (h.2 a ha).trans hstamp
  · intro e he
    rw [List.mem_append, List.mem_singleton] at he
    rcases he with he | rfl
    · exact ((h.2 e he).trans hstamp).trans hpurge
    · exact hpurge

/-! ## One operation -/

/-- What every operation keeps as long as no push regrows. -/
structure TimedBuffer.Tidy (s : TimedBuffer) : Prop where
  separated : Separated s.buffer.entries
  texts : ∀ e ∈ s.buffer.entries, e.text ≠ []
  stamped : Stamped s.clock s.buffer.entries

/-- **One push.**  The buffer stays separated exactly when the push does not
regrow. -/
theorem separated_push_iff {s : TimedBuffer} (h : s.Tidy) (stampTime purgeTime : ℚ) (text : Text)
    (stability : ℕ) :
    Separated (s.buffer.push stampTime purgeTime text stability).entries ↔
      regrows s.buffer purgeTime text = false := by
  have hkept : Separated (kept text s.buffer.entries) := by
    unfold kept
    split
    · exact h.separated.dropLast
    · exact h.separated
  rw [← Bool.not_eq_true, regrows_iff h.separated h.texts]
  constructor
  · rintro hsep ⟨x, hx, hlive, hgrown⟩
    -- The live neighbour survives the purge, and so does what follows it.
    obtain ⟨front, hfront⟩ : ∃ front, kept text s.buffer.entries = front ++ [x] :=
      List.getLast?_eq_some_iff.mp hx
    have hsurvive : ∃ front', (s.buffer.push stampTime purgeTime text stability).entries =
        front' ++ x :: [⟨stampTime, text, stability⟩] := by
      show ∃ front', (kept text s.buffer.entries ++ _).dropWhile (stale purgeTime) = _
      rw [hfront, List.append_assoc, List.dropWhile_append]
      split
      · exact ⟨[], by simp [hlive]⟩
      · exact ⟨_, rfl⟩
    obtain ⟨front', hentries⟩ := hsurvive
    rw [Separated, hentries, List.isChain_append_cons_cons] at hsep
    exact hsep.2.1 hgrown
  · intro hfree
    rcases List.eq_nil_or_concat (kept text s.buffer.entries) with hnil | ⟨front, x, hconcat⟩
    · show Separated ((kept text s.buffer.entries ++ [_]).dropWhile (stale purgeTime))
      rw [hnil, List.nil_append]
      exact (List.IsChain.singleton _).suffix (List.dropWhile_suffix _)
    · rw [List.concat_eq_append] at hconcat
      have hlast : x ∈ (kept text s.buffer.entries).getLast? := by
        rw [hconcat, List.getLast?_concat]
        rfl
      show Separated ((kept text s.buffer.entries ++ [_]).dropWhile (stale purgeTime))
      cases hstale : stale purgeTime x with
      | true =>
          have hsorted := h.stamped.1.sublist (kept_sublist text s.buffer.entries)
          rw [hconcat] at hsorted ⊢
          rw [dropWhile_stale_concat hsorted hstale]
          exact (List.IsChain.singleton _).suffix (List.dropWhile_suffix _)
      | false =>
          have hnot : ¬ x.text <+: text := fun hgrown => hfree ⟨x, hlast, hstale, hgrown⟩
          refine List.IsChain.suffix ?_ (List.dropWhile_suffix _)
          refine hkept.append (List.IsChain.singleton _) ?_
          intro y hy z hz
          obtain rfl := Option.some.inj (hlast.symm.trans hy)
          obtain rfl := Option.some.inj hz
          exact hnot

namespace TimedBuffer

theorem tidy_start (clock : ℚ) : (start clock).Tidy :=
  ⟨List.IsChain.nil, by simp [start, empty], List.Pairwise.nil, by simp [start, empty]⟩

theorem Tidy.noFragments {s : TimedBuffer} (h : s.Tidy) : s.NoFragments :=
  s.noFragments_iff.mpr h.separated

/-- A smaller buffer at a later time. -/
theorem Tidy.of_suffix {s t : TimedBuffer} (h : s.Tidy)
    (hentries : t.buffer.entries <:+ s.buffer.entries) (hclock : s.clock ≤ t.clock) : t.Tidy :=
  ⟨h.separated.suffix hentries, fun e he => h.texts e (hentries.subset he),
    h.stamped.of_sublist hentries.sublist hclock⟩

/-- The inversion of one push. -/
theorem step_push_eq_some {s t : TimedBuffer} {stampTime purgeTime : ℚ} {text : Text}
    {stability : ℕ} (h : s.step (.push stampTime purgeTime text stability) = some t) :
    s.clock ≤ stampTime ∧ stampTime ≤ purgeTime ∧ text ≠ [] ∧
      t = ⟨purgeTime, s.buffer.push stampTime purgeTime text stability⟩ := by
  obtain ⟨⟨hclock, horder, htext⟩, heq⟩ := Option.ite_none_right_eq_some.mp h
  exact ⟨hclock, horder, htext, (Option.some.inj heq).symm⟩

/-- **One operation** that does not regrow keeps the buffer tidy. -/
theorem Tidy.step {s t : TimedBuffer} (h : s.Tidy) {op : BufferOp} (havoids : op.avoidsRegrowth s)
    (hstep : s.step op = some t) : t.Tidy := by
  cases op with
  | push stampTime purgeTime text stability =>
      obtain ⟨hclock, horder, htext, rfl⟩ := step_push_eq_some hstep
      have hsublist := kept_sublist text s.buffer.entries
      have hpurged : (s.buffer.push stampTime purgeTime text stability).entries <:+
          kept text s.buffer.entries ++ [⟨stampTime, text, stability⟩] :=
        List.dropWhile_suffix _
      refine ⟨(separated_push_iff h stampTime purgeTime text stability).mpr havoids, ?_, ?_⟩
      · intro e he
        rcases List.mem_append.mp (hpurged.subset he) with hold | hnew
        · exact h.texts e (hsublist.subset hold)
        · rw [List.mem_singleton.mp hnew]
          exact htext
      · exact ((h.stamped.of_sublist hsublist le_rfl).concat hclock horder text
          stability).of_sublist hpurged.sublist le_rfl
  | getWindow time =>
      obtain ⟨hclock, heq⟩ := Option.ite_none_right_eq_some.mp hstep
      obtain rfl := Option.some.inj heq
      exact h.of_suffix (List.dropWhile_suffix _) hclock
  | clear =>
      obtain rfl := Option.some.inj hstep
      exact h.of_suffix (List.nil_suffix) le_rfl

/-- An operation that regrows leaves a fragment. -/
theorem Tidy.not_noFragments {s t : TimedBuffer} (h : s.Tidy) {op : BufferOp}
    (hregrows : ¬ op.avoidsRegrowth s) (hstep : s.step op = some t) : ¬ t.NoFragments := by
  cases op with
  | push stampTime purgeTime text stability =>
      obtain ⟨-, -, -, rfl⟩ := step_push_eq_some hstep
      intro hfree
      exact hregrows ((separated_push_iff h stampTime purgeTime text stability).mp
        ((noFragments_iff _).mp hfree))
  | getWindow time => exact absurd trivial hregrows
  | clear => exact absurd trivial hregrows

end TimedBuffer

open TimedBuffer

/-- **Growing prefixes.**  In every run of pushes of non-empty texts, reads and
clears under a clock that never goes back, no window holds an entry that is a
prefix of its successor exactly when no push meets a last entry that is a prefix
of the live entry before it, with a text that extends that entry. -/
theorem noFragments_iff_avoidsRegrowth (clock : ℚ) (ops : List BufferOp) (s : TimedBuffer)
    (hrun : execute step (start clock) ops = some s) :
    Always step NoFragments (start clock) ops ↔
      MeetsAlong step (fun s op => op.avoidsRegrowth s) (start clock) ops :=
  always_iff_meetsAlong step Tidy (tidy_start clock) (fun _ h => h.noFragments)
    (fun _ _ _ h _ havoids hstep => h.step havoids hstep)
    (fun _ _ _ h _ hregrows hstep => h.not_noFragments hregrows hstep) hrun

/-- Four partials within half a second: the second word is revised away and comes
back longer. -/
def revisedPartials : List BufferOp :=
  [.push 10 10 "hey a".toList 0, .push 10.1 10.1 "hey b".toList 0,
    .push 10.2 10.2 "hey".toList 0, .push 10.3 10.3 "hey all".toList 0, .getWindow 10.4]

theorem noFragments_fails :
    (execute step (start 10) revisedPartials).isSome = true ∧
      ¬ Always step NoFragments (start 10) revisedPartials := by
  decide +kernel

/-- The partials of one word and of the next, which never shrink. -/
def growingPartials : List BufferOp :=
  [.push 10 10 "he".toList 0, .push 10.1 10.1 "hey".toList 0, .getWindow 10.2,
    .push 10.3 10.3 "assistant".toList 1]

theorem growingPartials_noFragments :
    ∃ s, execute step (start 10) growingPartials = some s ∧
      (Always step NoFragments (start 10) growingPartials ↔
        MeetsAlong step (fun s op => op.avoidsRegrowth s) (start 10) growingPartials) := by
  obtain ⟨s, hrun⟩ := Option.isSome_iff_exists.mp
    (show (execute step (start 10) growingPartials).isSome = true by decide +kernel)
  exact ⟨s, hrun, noFragments_iff_avoidsRegrowth 10 _ s hrun⟩

end Audio
end AvaListener
