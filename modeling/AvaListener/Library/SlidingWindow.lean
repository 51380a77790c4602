import Mathlib.Algebra.Order.Group.Defs
import Mathlib.Algebra.Order.Group.Unbundled.Basic
import Mathlib.Data.List.Basic
import Mathlib.Data.List.TakeWhile

/-!
# Events in sliding windows

A limiter that is to keep the events of every time window below a limit remembers
the times of past events, forgets those that are older than the width of the window,
and admits an event while it remembers fewer than the limit.

`Remembers` is the invariant of such a limiter, and `WithinRate.append` the reason
why it works.  `KeepsRecent` says what may be forgotten: on a clock that does not go back
the limiter still counts as if it had forgotten nothing (`KeepsRecent.dropWhile_eq`).

When an event is too old is for the limiter to say, by a predicate `stale` of the time and
the event's own: what the limiter needs of it is that only events older than the width are
stale, and that with an event all earlier ones are stale and remain so.
-/

namespace AvaListener
namespace Library

variable {α : Type*} [AddCommGroup α] [LinearOrder α] [IsOrderedAddMonoid α]

/-- The events from `start` on. -/
def since (start : α) (times : List α) : List α :=
  times.filter fun t => decide (start ≤ t)

/-- At most `limit` events in every window of the given width, its ends included. -/
def WithinRate (limit : ℕ) (width : α) (times : List α) : Prop :=
  ∀ start, (times.filter fun t => decide (start ≤ t ∧ t ≤ start + width)).length ≤ limit

/-- Every event that is not older than `width` at time `now` is remembered. -/
def Remembers (width now : α) (kept times : List α) : Prop :=
  ∀ start, now - start ≤ width → (since start times).length ≤ (since start kept).length

/-- A filter does not see what is dropped in front if that fails it. -/
theorem filter_dropWhile_of_fails {β : Type*} {p q : β → Bool} (h : ∀ b, q b = true → p b = false)
    (l : List β) : (l.dropWhile q).filter p = l.filter p := by
  induction l with
  | nil => rfl
  | cons b rest ih =>
      rw [List.dropWhile_cons]
      split
      next hq => rw [ih, List.filter_cons_of_neg (by simp [h b hq])]
      · rfl

/-- In a list in order, dropping from the front drops everything that is to go. -/
theorem dropWhile_eq_filter_of_pairwise {β : Type*} {r : β → β → Prop} {p : β → Bool} {l : List β}
    (hl : l.Pairwise r) (hp : ∀ a b, r a b → p b = true → p a = true) :
    l.dropWhile p = l.filter fun b => !p b := by
  induction l with
  | nil => rfl
  | cons a rest ih =>
      obtain ⟨ha, hrest⟩ := List.pairwise_cons.mp hl
      rw [List.dropWhile_cons]
      split
      next hgoes => rw [ih hrest, List.filter_cons_of_neg (by simp [hgoes])]
      next hstays =>
        refine (List.filter_eq_self.mpr ?_).symm
        intro b hb
        rcases List.mem_cons.mp hb with rfl | hb
        · simpa using hstays
        · have hlater : p b ≠ true := fun hgoes => hstays (hp a b (ha b hb) hgoes)
          simpa using hlater

/-- Forgetting what is older than the width. -/
theorem since_forget {width now start : α} {stale : α → Bool}
    (hstale : ∀ t, stale t = true → width < now - t) (h : now - start ≤ width) (kept : List α) :
    since start (kept.dropWhile stale) = since start kept := by
  refine filter_dropWhile_of_fails ?_ kept
  intro t ht
  have hlt : t < start := (sub_lt_sub_iff_left now).mp (h.trans_lt (hstale t ht))
  simpa using hlt

theorem Remembers.later {width now later : α} {kept times : List α}
    (h : Remembers width now kept times) (hle : now ≤ later) : Remembers width later kept times :=
  fun start hstart => h start ((sub_le_sub_right hle start).trans hstart)

theorem Remembers.forget {width now : α} {kept times : List α} {stale : α → Bool}
    (h : Remembers width now kept times) (hstale : ∀ t, stale t = true → width < now - t) :
    Remembers width now (kept.dropWhile stale) times := by
  intro start hstart
  rw [since_forget hstale hstart]
  exact h start hstart

omit [AddCommGroup α] [IsOrderedAddMonoid α] in
theorem length_since_append (start t : α) (times : List α) :
    (since start (times ++ [t])).length =
      (since start times).length + if start ≤ t then 1 else 0 := by
  unfold since
  rw [List.filter_append, List.length_append]
  by_cases h : start ≤ t <;> simp [h]

omit [IsOrderedAddMonoid α] in
/-- An event that is recorded is remembered. -/
theorem Remembers.record {width now : α} {kept times : List α}
    (h : Remembers width now kept times) (t : α) :
    Remembers width now (kept ++ [t]) (times ++ [t]) := by
  intro start hstart
  rw [length_since_append, length_since_append]
  exact Nat.add_le_add_right (h start hstart) _

omit [IsOrderedAddMonoid α] in
/-- What is recorded besides the events does no harm. -/
theorem Remembers.note {width now : α} {kept times : List α}
    (h : Remembers width now kept times) (t : α) : Remembers width now (kept ++ [t]) times := by
  intro start hstart
  rw [length_since_append]
  exact (h start hstart).trans (Nat.le_add_right _ _)

/-- **An event is admitted while fewer than the limit are remembered.** -/
theorem WithinRate.append {limit : ℕ} {width now time : α} {kept times : List α}
    (hrate : WithinRate limit width times) (hkept : Remembers width now kept times)
    (hroom : kept.length < limit) (htime : now ≤ time) :
    WithinRate limit width (times ++ [time]) := by
  intro start
  rw [List.filter_append, List.length_append]
  by_cases hin : start ≤ time ∧ time ≤ start + width
  · have hrecent : now - start ≤ width := by
      refine (sub_le_sub_right htime start).trans ?_
      exact sub_le_iff_le_add'.mpr hin.2
    have hwindow : (times.filter fun t => decide (start ≤ t ∧ t ≤ start + width)).length ≤
        (since start times).length := by
      refine (List.monotone_filter_right times ?_).length_le
      intro t ht
      simpa using (of_decide_eq_true ht).1
    have hremembered : (since start times).length ≤ kept.length :=
      (hkept start hrecent).trans (List.length_filter_le _ _)
    have hone : ([time].filter fun t => decide (start ≤ t ∧ t ≤ start + width)).length = 1 := by
      simp [hin]
    omega
  · have hnone : [time].filter (fun t => decide (start ≤ t ∧ t ≤ start + width)) = [] := by
      simpa using hin
    rw [hnone]
    exact hrate start

/-! ## What a limiter may forget -/

/-- Who is stale stays so, and so do all before. -/
structure Ages {τ : Type*} [Preorder τ] (stale : τ → τ → Bool) : Prop where
  later : ∀ {now next t}, now ≤ next → stale now t = true → stale next t = true
  older : ∀ {now s t}, s ≤ t → stale now t = true → stale now s = true

/-- What is remembered is the end of the history, and what is forgotten of it was stale at
time `now`. -/
def KeepsRecent {τ : Type*} (stale : τ → τ → Bool) (now : τ) (kept times : List τ) : Prop :=
  ∃ gone, times = gone ++ kept ∧ ∀ t ∈ gone, stale now t = true

namespace KeepsRecent

variable {τ : Type*} {stale : τ → τ → Bool} {now next : τ} {kept times : List τ}

theorem refl (stale : τ → τ → Bool) (now : τ) (times : List τ) :
    KeepsRecent stale now times times :=
  ⟨[], rfl, nofun⟩

theorem record (h : KeepsRecent stale now kept times) (t : τ) :
    KeepsRecent stale now (kept ++ [t]) (times ++ [t]) := by
  obtain ⟨gone, rfl, hgone⟩ := h
  exact ⟨gone, List.append_assoc .., hgone⟩

theorem forget (h : KeepsRecent stale now kept times) :
    KeepsRecent stale now (kept.dropWhile (stale now)) times := by
  obtain ⟨gone, rfl, hgone⟩ := h
  refine ⟨gone ++ kept.takeWhile (stale now), ?_, ?_⟩
  · rw [List.append_assoc, List.takeWhile_append_dropWhile]
  · intro t ht
    rcases List.mem_append.mp ht with hold | hnew
    · exact hgone t hold
    · exact List.mem_takeWhile_imp hnew

variable [Preorder τ]

theorem later (h : KeepsRecent stale now kept times) (hages : Ages stale) (hle : now ≤ next) :
    KeepsRecent stale next kept times := by
  obtain ⟨gone, rfl, hgone⟩ := h
  exact ⟨gone, rfl, fun t ht => hages.later hle (hgone t ht)⟩

/-- **Nothing that counts is forgotten.**  Of a history in order, what is left after one more
purge is what is not stale. -/
theorem dropWhile_eq (h : KeepsRecent stale now kept times) (hages : Ages stale)
    (hle : now ≤ next) (horder : times.Pairwise (· ≤ ·)) :
    kept.dropWhile (stale next) = times.filter fun t => !stale next t := by
  obtain ⟨gone, rfl, hgone⟩ := h.later hages hle
  calc kept.dropWhile (stale next)
      = (gone ++ kept).dropWhile (stale next) := (List.dropWhile_append_of_pos hgone).symm
    _ = (gone ++ kept).filter fun t => !stale next t :=
        dropWhile_eq_filter_of_pairwise horder fun _ _ hst => hages.older hst

end KeepsRecent

end Library
end AvaListener
