import Mathlib.Data.List.Induction

/-!
# Runs of step functions

Two shapes of program run are used throughout the development.

* A **transducer** `step : σ → ι → σ × ο` consumes a list of inputs and answers
  each of them.  `finalState` is the state after the whole list, `trace` pairs
  every input with its answer, and `visits` pairs every input with the state
  that received it.
* A **scheduled system** `step : σ → ℓ → Option σ` is driven by a list of
  scheduler labels, a label being refused (`none`) where it is not enabled.
  `execute` runs a whole schedule, `Always` says that a predicate holds in
  every state reached, and `MeetsAlong` says that every step taken meets a
  condition on the state before it.  An `InfiniteRun` of such a system never ends.

The induction rules below are the only inductions over runs that the clients
need: they supply what one step preserves and read off what a run preserves.
-/

namespace AvaListener
namespace Library

/-! ## Transducers -/

section Transducer

variable {σ ι ο : Type*} (step : σ → ι → σ × ο)

/-- The state after a whole list of inputs. -/
def finalState : σ → List ι → σ
  | s, [] => s
  | s, i :: rest => finalState (step s i).1 rest

/-- Every input paired with the answer it got. -/
def trace : σ → List ι → List (ι × ο)
  | _, [] => []
  | s, i :: rest => (i, (step s i).2) :: trace (step s i).1 rest

/-- Every input paired with the state that received it. -/
def visits : σ → List ι → List (σ × ι)
  | _, [] => []
  | s, i :: rest => (s, i) :: visits (step s i).1 rest

@[simp] theorem finalState_nil (s : σ) : finalState step s [] = s := rfl

@[simp] theorem finalState_cons (s : σ) (i : ι) (rest : List ι) :
    finalState step s (i :: rest) = finalState step (step s i).1 rest := rfl

@[simp] theorem trace_nil (s : σ) : trace step s [] = [] := rfl

@[simp] theorem trace_cons (s : σ) (i : ι) (rest : List ι) :
    trace step s (i :: rest) = (i, (step s i).2) :: trace step (step s i).1 rest := rfl

@[simp] theorem visits_nil (s : σ) : visits step s [] = [] := rfl

@[simp] theorem visits_cons (s : σ) (i : ι) (rest : List ι) :
    visits step s (i :: rest) = (s, i) :: visits step (step s i).1 rest := rfl

theorem finalState_append (s : σ) (xs ys : List ι) :
    finalState step s (xs ++ ys) = finalState step (finalState step s xs) ys := by
  induction xs generalizing s with
  | nil => rfl
  | cons x xs ih => exact ih (step s x).1

theorem trace_append (s : σ) (xs ys : List ι) :
    trace step s (xs ++ ys) = trace step s xs ++ trace step (finalState step s xs) ys := by
  induction xs generalizing s with
  | nil => rfl
  | cons x xs ih => simp [ih]

theorem visits_append (s : σ) (xs ys : List ι) :
    visits step s (xs ++ ys) = visits step s xs ++ visits step (finalState step s xs) ys := by
  induction xs generalizing s with
  | nil => rfl
  | cons x xs ih => simp [ih]

/-- **Invariants.**  What every step preserves holds after every run. -/
theorem finalState_invariant (Inv : σ → Prop) {s : σ} (inputs : List ι)
    (hstart : Inv s) (hstep : ∀ t i, i ∈ inputs → Inv t → Inv (step t i).1) :
    Inv (finalState step s inputs) := by
  induction inputs generalizing s with
  | nil => exact hstart
  | cons i rest ih =>
      refine ih (hstep s i (List.mem_cons_self ..) hstart) ?_
      intro t j hj
      exact hstep t j (List.mem_cons_of_mem _ hj)

/-- An invariant holds in every state that receives an input. -/
theorem visits_invariant (Inv : σ → Prop) {s : σ} (inputs : List ι)
    (hstart : Inv s) (hstep : ∀ t i, i ∈ inputs → Inv t → Inv (step t i).1) :
    ∀ v ∈ visits step s inputs, Inv v.1 ∧ v.2 ∈ inputs := by
  induction inputs generalizing s with
  | nil => simp
  | cons i rest ih =>
      intro v hv
      rw [visits_cons, List.mem_cons] at hv
      rcases hv with rfl | hv
      · exact ⟨hstart, List.mem_cons_self ..⟩
      · have hrest := ih (hstep s i (List.mem_cons_self ..) hstart)
          (fun t j hj => hstep t j (List.mem_cons_of_mem _ hj)) v hv
        exact ⟨hrest.1, List.mem_cons_of_mem _ hrest.2⟩

/-- What a step answers from a state with the invariant, every answer of a run is. -/
theorem trace_invariant (Inv : σ → Prop) {Q : ι → ο → Prop} {s : σ} (inputs : List ι)
    (hstart : Inv s)
    (hstep : ∀ t i, i ∈ inputs → Inv t → Inv (step t i).1 ∧ Q i (step t i).2) :
    ∀ a ∈ trace step s inputs, Q a.1 a.2 := by
  induction inputs generalizing s with
  | nil => simp
  | cons i rest ih =>
      obtain ⟨hnext, hanswer⟩ := hstep s i (List.mem_cons_self ..) hstart
      intro a ha
      rw [trace_cons, List.mem_cons] at ha
      rcases ha with rfl | ha
      · exact hanswer
      · exact ih hnext (fun t j hj => hstep t j (List.mem_cons_of_mem _ hj)) a ha

/-- **Exact conditions.**  If, under an invariant, a step does what is wanted and keeps the
invariant where it meets `cond`, and fails where it misses it, then every step of a run does
what is wanted exactly when every step meets `cond`. -/
theorem forall_visits_iff (Inv : σ → Prop) {P cond : σ → ι → Prop} {s : σ} (inputs : List ι)
    (hstart : Inv s) (hmeets : ∀ t i, Inv t → cond t i → P t i ∧ Inv (step t i).1)
    (hmisses : ∀ t i, Inv t → ¬ cond t i → ¬ P t i) :
    (∀ v ∈ visits step s inputs, P v.1 v.2) ↔ ∀ v ∈ visits step s inputs, cond v.1 v.2 := by
  induction inputs generalizing s with
  | nil => simp
  | cons i rest ih =>
      rw [visits_cons, List.forall_mem_cons, List.forall_mem_cons]
      by_cases hcond : cond s i
      · obtain ⟨hP, hnext⟩ := hmeets s i hstart hcond
        rw [ih hnext]
        exact and_congr_left' (iff_of_true hP hcond)
      · have hP := hmisses s i hstart hcond
        exact iff_of_false (fun h => hP h.1) (fun h => hcond h.1)

/-- **History invariants.**  A predicate relating the whole past to the present
state holds of every run once it holds at the start and one more input keeps
it. -/
theorem history_invariant (P : List ι → σ → Prop) {s : σ} (hstart : P [] s)
    (hstep : ∀ past i, P past (finalState step s past) →
      P (past ++ [i]) (step (finalState step s past) i).1)
    (past : List ι) : P past (finalState step s past) := by
  induction past using List.reverseRecOn with
  | nil => exact hstart
  | append_singleton past i ih =>
      rw [finalState_append]
      exact hstep past i ih

/-- **Two runs.**  Related states give equal answers to the same inputs when the
relation forces equal answers and one step keeps it. -/
theorem trace_eq_of_related (R : σ → σ → Prop) {s t : σ} (inputs : List ι)
    (hstart : R s t)
    (hstep : ∀ a b i, i ∈ inputs → R a b →
      (step a i).2 = (step b i).2 ∧ R (step a i).1 (step b i).1) :
    trace step s inputs = trace step t inputs := by
  induction inputs generalizing s t with
  | nil => rfl
  | cons i rest ih =>
      obtain ⟨hanswer, hnext⟩ := hstep s t i (List.mem_cons_self ..) hstart
      rw [trace_cons, trace_cons, hanswer]
      congr 1
      exact ih hnext fun a b j hj => hstep a b j (List.mem_cons_of_mem _ hj)

end Transducer

/-! ## Scheduled systems -/

section Scheduled

variable {σ ℓ : Type*} (step : σ → ℓ → Option σ)

/-- Run a schedule; `none` when some label is refused. -/
def execute : σ → List ℓ → Option σ
  | s, [] => some s
  | s, l :: rest => (step s l).bind fun t => execute t rest

/-- `P` holds in every state the schedule passes through. -/
def Always (P : σ → Prop) : σ → List ℓ → Prop
  | s, [] => P s
  | s, l :: rest => P s ∧ ∀ t, step s l = some t → Always P t rest

/-- Every step the schedule takes meets `cond` in the state before it. -/
def MeetsAlong (cond : σ → ℓ → Prop) : σ → List ℓ → Prop
  | _, [] => True
  | s, l :: rest => cond s l ∧ ∀ t, step s l = some t → MeetsAlong cond t rest

instance decidableAlways (P : σ → Prop) [DecidablePred P] :
    ∀ s labels, Decidable (Always step P s labels)
  | s, [] => inferInstanceAs (Decidable (P s))
  | s, l :: rest =>
      have := fun t => decidableAlways P t rest
      inferInstanceAs (Decidable (P s ∧ ∀ t ∈ step s l, Always step P t rest))

instance decidableMeetsAlong (cond : σ → ℓ → Prop) [∀ s l, Decidable (cond s l)] :
    ∀ s labels, Decidable (MeetsAlong step cond s labels)
  | _, [] => inferInstanceAs (Decidable True)
  | s, l :: rest =>
      have := fun t => decidableMeetsAlong cond t rest
      inferInstanceAs (Decidable (cond s l ∧ ∀ t ∈ step s l, MeetsAlong step cond t rest))

/-- The sum of a measure over the steps the schedule takes, each in the state before it. -/
def totalAlong (measure : σ → ℓ → ℕ) : σ → List ℓ → ℕ
  | _, [] => 0
  | s, l :: rest =>
      measure s l + ((step s l).map fun t => totalAlong measure t rest).getD 0

@[simp] theorem execute_nil (s : σ) : execute step s [] = some s := rfl

theorem execute_cons (s : σ) (l : ℓ) (rest : List ℓ) :
    execute step s (l :: rest) = (step s l).bind fun t => execute step t rest := rfl

theorem execute_singleton (s : σ) (l : ℓ) : execute step s [l] = step s l :=
  Option.bind_fun_some _

/-- A completed schedule took its first step and completed the rest. -/
theorem execute_cons_eq_some {s u : σ} {l : ℓ} {rest : List ℓ}
    (h : execute step s (l :: rest) = some u) :
    ∃ t, step s l = some t ∧ execute step t rest = some u :=
  Option.bind_eq_some_iff.mp h

theorem execute_append {s t : σ} {xs : List ℓ} (h : execute step s xs = some t) (ys : List ℓ) :
    execute step s (xs ++ ys) = execute step t ys := by
  induction xs generalizing s with
  | nil =>
      obtain rfl := Option.some.inj h
      rfl
  | cons x xs ih =>
      obtain ⟨v, hv, hrest⟩ := execute_cons_eq_some step h
      rw [List.cons_append, execute_cons, hv, Option.bind_some, ih hrest]

/-- A completed schedule completed its first part and, from there, its second. -/
theorem execute_append_eq_some {s u : σ} {xs ys : List ℓ}
    (h : execute step s (xs ++ ys) = some u) :
    ∃ t, execute step s xs = some t ∧ execute step t ys = some u := by
  induction xs generalizing s with
  | nil => exact ⟨s, rfl, h⟩
  | cons x xs ih =>
      obtain ⟨v, hv, hrest⟩ := execute_cons_eq_some step h
      obtain ⟨t, hxs, hys⟩ := ih hrest
      refine ⟨t, ?_, hys⟩
      rw [execute_cons, hv, Option.bind_some, hxs]

theorem always_head {P : σ → Prop} {s : σ} {labels : List ℓ}
    (h : Always step P s labels) : P s := by
  cases labels with
  | nil => exact h
  | cons l rest => exact h.1

/-- What always holds along a completed schedule holds at its end. -/
theorem always_final {P : σ → Prop} {s u : σ} {labels : List ℓ}
    (h : Always step P s labels) (hrun : execute step s labels = some u) : P u := by
  induction labels generalizing s with
  | nil =>
      obtain rfl := Option.some.inj hrun
      exact h
  | cons l rest ih =>
      obtain ⟨t, hst, hrest⟩ := execute_cons_eq_some step hrun
      exact ih (h.2 t hst) hrest

/-- **Invariants of scheduled systems.** -/
theorem execute_invariant (Inv : σ → Prop) {s u : σ} {labels : List ℓ}
    (hstart : Inv s) (hstep : ∀ a l b, Inv a → l ∈ labels → step a l = some b → Inv b)
    (hrun : execute step s labels = some u) : Inv u := by
  induction labels generalizing s with
  | nil =>
      obtain rfl := Option.some.inj hrun
      exact hstart
  | cons l rest ih =>
      obtain ⟨t, hst, hrest⟩ := execute_cons_eq_some step hrun
      have ht : Inv t := hstep s l t hstart (List.mem_cons_self ..) hst
      exact ih ht (fun a m b ha hm => hstep a m b ha (List.mem_cons_of_mem _ hm)) hrest

/-- What every step keeps holds along every schedule. -/
theorem always_of_invariant {Inv P : σ → Prop} {s : σ} (labels : List ℓ) (hstart : Inv s)
    (hP : ∀ a, Inv a → P a) (hstep : ∀ a l b, Inv a → step a l = some b → Inv b) :
    Always step P s labels := by
  induction labels generalizing s with
  | nil => exact hP s hstart
  | cons l rest ih => exact ⟨hP s hstart, fun t hst => ih (hstep s l t hstart hst)⟩

/-- **Conditional invariants.**  An invariant that a step keeps whenever the
step meets `cond` holds along every schedule all of whose steps meet it. -/
theorem always_of_meetsAlong {Inv P : σ → Prop} {cond : σ → ℓ → Prop}
    {s : σ} {labels : List ℓ} (hstart : Inv s) (hP : ∀ a, Inv a → P a)
    (hstep : ∀ a l b, Inv a → cond a l → step a l = some b → Inv b)
    (hmeets : MeetsAlong step cond s labels) : Always step P s labels := by
  induction labels generalizing s with
  | nil => exact hP s hstart
  | cons l rest ih =>
      refine ⟨hP s hstart, ?_⟩
      intro t hst
      exact ih (hstep s l t hstart hmeets.1 hst) (hmeets.2 t hst)

/-- A condition that an invariant and the labels of the schedule secure. -/
theorem meetsAlong_of_invariant (Inv : σ → Prop) {cond : σ → ℓ → Prop} {s : σ}
    {labels : List ℓ} (hstart : Inv s)
    (hcond : ∀ a l, Inv a → l ∈ labels → cond a l)
    (hstep : ∀ a l b, Inv a → l ∈ labels → step a l = some b → Inv b) :
    MeetsAlong step cond s labels := by
  induction labels generalizing s with
  | nil => trivial
  | cons l rest ih =>
      have hmem : l ∈ l :: rest := List.mem_cons_self ..
      refine ⟨hcond s l hstart hmem, fun t hst => ih (hstep s l t hstart hmem hst) ?_ ?_⟩
      · exact fun a m ha hm => hcond a m ha (List.mem_cons_of_mem _ hm)
      · exact fun a m b ha hm => hstep a m b ha (List.mem_cons_of_mem _ hm)

/-- Two predicates that agree under an invariant hold along the same schedules. -/
theorem always_congr (Inv : σ → Prop) {P Q : σ → Prop} {s : σ} {labels : List ℓ}
    (hstart : Inv s) (hstep : ∀ a l b, Inv a → l ∈ labels → step a l = some b → Inv b)
    (hagree : ∀ a, Inv a → (P a ↔ Q a)) :
    Always step P s labels ↔ Always step Q s labels := by
  induction labels generalizing s with
  | nil => exact hagree s hstart
  | cons l rest ih =>
      have hrest : ∀ a m b, Inv a → m ∈ rest → step a m = some b → Inv b :=
        fun a m b ha hm => hstep a m b ha (List.mem_cons_of_mem _ hm)
      refine and_congr (hagree s hstart) (forall_congr' fun t => ?_)
      exact imp_congr_right fun hst => ih (hstep s l t hstart (List.mem_cons_self ..) hst) hrest

/-- **Exact conditions.**  If moreover a step that misses `cond` breaks `P`
at once, then a completed schedule keeps `P` exactly when all its steps meet
`cond`. -/
theorem always_iff_meetsAlong (Inv : σ → Prop) {P : σ → Prop} {cond : σ → ℓ → Prop}
    {s u : σ} {labels : List ℓ} (hstart : Inv s) (hP : ∀ a, Inv a → P a)
    (hkeep : ∀ a l b, Inv a → l ∈ labels → cond a l → step a l = some b → Inv b)
    (hbreak : ∀ a l b, Inv a → l ∈ labels → ¬ cond a l → step a l = some b → ¬ P b)
    (hrun : execute step s labels = some u) :
    Always step P s labels ↔ MeetsAlong step cond s labels := by
  induction labels generalizing s with
  | nil => exact ⟨fun _ => trivial, fun _ => hP s hstart⟩
  | cons l rest ih =>
      obtain ⟨t, hst, hrest⟩ := execute_cons_eq_some step hrun
      have hmem : l ∈ l :: rest := List.mem_cons_self ..
      have ihRest (hInv : Inv t) :=
        ih hInv (fun a m b ha hm => hkeep a m b ha (List.mem_cons_of_mem _ hm))
          (fun a m b ha hm => hbreak a m b ha (List.mem_cons_of_mem _ hm)) hrest
      constructor
      · rintro ⟨-, halways⟩
        have hcond : cond s l := by
          by_contra hmiss
          exact hbreak s l t hstart hmem hmiss hst (always_head step (halways t hst))
        refine ⟨hcond, ?_⟩
        intro v hv
        obtain rfl : t = v := Option.some.inj (hst.symm.trans hv)
        exact (ihRest (hkeep s l t hstart hmem hcond hst)).mp (halways t hst)
      · rintro ⟨hcond, hmeets⟩
        refine ⟨hP s hstart, ?_⟩
        intro v hv
        obtain rfl : t = v := Option.some.inj (hst.symm.trans hv)
        exact (ihRest (hkeep s l t hstart hmem hcond hst)).mpr (hmeets t hst)

/-- **Lasting harm.**  If a step that misses `cond` does harm that no step undoes, a
completed schedule that ends without it met `cond` throughout. -/
theorem meetsAlong_of_unharmed (Inv Harmed : σ → Prop) {cond : σ → ℓ → Prop} {s u : σ}
    {labels : List ℓ} (hstart : Inv s)
    (hkeep : ∀ a l b, Inv a → cond a l → step a l = some b → Inv b)
    (hharm : ∀ a l b, Inv a → ¬ cond a l → step a l = some b → Harmed b)
    (hlasts : ∀ a l b, Harmed a → step a l = some b → Harmed b)
    (hrun : execute step s labels = some u) (hunharmed : ¬ Harmed u) :
    MeetsAlong step cond s labels := by
  induction labels generalizing s with
  | nil => trivial
  | cons l rest ih =>
      obtain ⟨t, hst, hrest⟩ := execute_cons_eq_some step hrun
      have hcond : cond s l := by
        by_contra hmiss
        exact hunharmed (execute_invariant step Harmed (hharm s l t hstart hmiss hst)
          (fun a m b ha _ => hlasts a m b ha) hrest)
      refine ⟨hcond, ?_⟩
      intro v hv
      obtain rfl : t = v := Option.some.inj (hst.symm.trans hv)
      exact ih (hkeep s l t hstart hcond hst) hrest

/-- **Ranks.**  If counted steps use up a rank that no step raises, a completed schedule has
no more of them than the rank it began with. -/
theorem countP_le_rank (Inv : σ → Prop) (rank : σ → ℕ) (counted : ℓ → Bool) {s u : σ}
    {labels : List ℓ} (hstart : Inv s) (hkeep : ∀ a l b, Inv a → step a l = some b → Inv b)
    (hrank : ∀ a l b, Inv a → step a l = some b →
      rank b + (if counted l then 1 else 0) ≤ rank a)
    (hrun : execute step s labels = some u) : labels.countP counted ≤ rank s := by
  induction labels generalizing s with
  | nil => exact Nat.zero_le _
  | cons l rest ih =>
      obtain ⟨t, hst, hrest⟩ := execute_cons_eq_some step hrun
      have htail := ih (hkeep s l t hstart hst) hrest
      have hhead := hrank s l t hstart hst
      rw [List.countP_cons]
      omega

/-- **Supplies.**  If no step raises a rank by more than its measure, a completed schedule
has raised it by no more than the total. -/
theorem rank_le_totalAlong (rank : σ → ℕ) (measure : σ → ℓ → ℕ) {s u : σ} {labels : List ℓ}
    (hstep : ∀ a l b, step a l = some b → rank b ≤ rank a + measure a l)
    (hrun : execute step s labels = some u) :
    rank u ≤ rank s + totalAlong step measure s labels := by
  induction labels generalizing s with
  | nil =>
      obtain rfl := Option.some.inj hrun
      exact Nat.le_add_right _ _
  | cons l rest ih =>
      obtain ⟨t, hst, hrest⟩ := execute_cons_eq_some step hrun
      have htail := ih hrest
      have hhead := hstep s l t hst
      rw [totalAlong, hst, Option.map_some, Option.getD_some]
      omega

/-- A condition met along a schedule is met at its last step. -/
theorem meetsAlong_last {cond : σ → ℓ → Prop} {s t : σ} {past : List ℓ} {l : ℓ}
    (h : MeetsAlong step cond s (past ++ [l])) (hrun : execute step s past = some t) :
    cond t l := by
  induction past generalizing s with
  | nil =>
      obtain rfl := Option.some.inj hrun
      exact h.1
  | cons m rest ih =>
      obtain ⟨u, hst, hrest⟩ := execute_cons_eq_some step hrun
      exact ih (h.2 u hst) hrest

/-- A condition that, under an invariant, entails another entails it along every
schedule. -/
theorem meetsAlong_imp {Inv : σ → Prop} {P Q : σ → ℓ → Prop} {s : σ}
    {labels : List ℓ} (hstart : Inv s)
    (hstep : ∀ a l b, Inv a → step a l = some b → Inv b)
    (himp : ∀ a l, Inv a → P a l → Q a l) (h : MeetsAlong step P s labels) :
    MeetsAlong step Q s labels := by
  induction labels generalizing s with
  | nil => trivial
  | cons l rest ih =>
      exact ⟨himp s l hstart h.1, fun t hst => ih (hstep s l t hstart hst) (h.2 t hst)⟩

/-- Two step conditions that agree under an invariant are met by the same
schedules. -/
theorem meetsAlong_congr {Inv : σ → Prop} {P Q : σ → ℓ → Prop} {s : σ}
    {labels : List ℓ} (hstart : Inv s)
    (hstep : ∀ a l b, Inv a → step a l = some b → Inv b)
    (hagree : ∀ a l, Inv a → (P a l ↔ Q a l)) :
    MeetsAlong step P s labels ↔ MeetsAlong step Q s labels :=
  ⟨meetsAlong_imp step hstart hstep fun a l ha => (hagree a l ha).mp,
    meetsAlong_imp step hstart hstep fun a l ha => (hagree a l ha).mpr⟩

end Scheduled

/-! ## Infinite runs -/

section Infinite

variable {σ ℓ : Type*} {step : σ → ℓ → Option σ} {start : σ}

variable (step start) in
/-- A run that never ends: the states it passes through and the labels between
them. -/
structure InfiniteRun where
  states : ℕ → σ
  labels : ℕ → ℓ
  starts : states 0 = start
  steps : ∀ n, step (states n) (labels n) = some (states (n + 1))

namespace InfiniteRun

/-- What every step keeps holds at every moment of the run. -/
theorem invariant (Inv : σ → Prop) (r : InfiniteRun step start) (hstart : Inv start)
    (hstep : ∀ a l b, Inv a → step a l = some b → Inv b) (n : ℕ) : Inv (r.states n) := by
  induction n with
  | zero =>
      rw [r.starts]
      exact hstart
  | succ n ih => exact hstep _ _ _ ih (r.steps n)

variable (step) in
/-- The states reached when the next label is a function of the state. -/
def driven (next : σ → ℓ) (s : σ) : ℕ → σ
  | 0 => s
  | n + 1 => (step (driven next s n) (next (driven next s n))).getD (driven next s n)

theorem driven_invariant (Inv : σ → Prop) {next : σ → ℓ} (hstart : Inv start)
    (hprogress : ∀ a, Inv a → ∃ b, step a (next a) = some b ∧ Inv b) (n : ℕ) :
    Inv (driven step next start n) := by
  induction n with
  | zero => exact hstart
  | succ n ih =>
      obtain ⟨b, hb, hInv⟩ := hprogress _ ih
      rw [driven, hb]
      exact hInv

/-- A choice of labels that an invariant keeps enabled drives an infinite run. -/
def drive (Inv : σ → Prop) (next : σ → ℓ) (hstart : Inv start)
    (hprogress : ∀ a, Inv a → ∃ b, step a (next a) = some b ∧ Inv b) :
    InfiniteRun step start where
  states := driven step next start
  labels n := next (driven step next start n)
  starts := rfl
  steps n := by
    obtain ⟨b, hb, -⟩ := hprogress _ (driven_invariant Inv hstart hprogress n)
    rw [driven, hb, Option.getD_some]

end InfiniteRun

end Infinite

end Library
end AvaListener
