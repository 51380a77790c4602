import AvaListener.Library.Runs

/-!
# Observations of scheduled systems

A scheduled system is observed through a partial function `note` that reads one
observation off a step, or none.  `noted` is what a whole schedule shows.

A `ForwardSimulation` relates the states of such a system to those of an abstract one
whose labels are the observations: a step that shows nothing leaves the abstract state
alone, and a step that shows `a` is the abstract step `a`.  Then what any schedule of
the system shows is a schedule of the abstract system (`ForwardSimulation.execute_noted`),
and what is known of the latter's schedules is known of the observations.

`execute_history` is the rule for predicates that relate a state to the schedule that led
to it.
-/

namespace AvaListener
namespace Library

section Noted

variable {σ ℓ α : Type*} (step : σ → ℓ → Option σ) (note : σ → ℓ → Option α)

/-- What is noted of the steps a schedule takes, oldest first. -/
def noted : σ → List ℓ → List α
  | _, [] => []
  | s, l :: rest =>
      match step s l with
      | none => []
      | some t => (note s l).toList ++ noted t rest

variable {step note}

@[simp] theorem noted_nil (s : σ) : noted step note s [] = [] := rfl

theorem noted_cons {s t : σ} {l : ℓ} (h : step s l = some t) (rest : List ℓ) :
    noted step note s (l :: rest) = (note s l).toList ++ noted step note t rest := by
  simp only [noted, h]

theorem noted_append {s t : σ} {xs : List ℓ} (h : execute step s xs = some t) (ys : List ℓ) :
    noted step note s (xs ++ ys) = noted step note s xs ++ noted step note t ys := by
  induction xs generalizing s with
  | nil =>
      obtain rfl := Option.some.inj h
      rfl
  | cons x xs ih =>
      obtain ⟨u, hu, hrest⟩ := execute_cons_eq_some step h
      rw [List.cons_append, noted_cons hu, noted_cons hu, ih hrest, List.append_assoc]

/-- Where an invariant rules the observations out, a schedule shows nothing. -/
theorem noted_eq_nil (Inv : σ → Prop) {s : σ} {labels : List ℓ} (hstart : Inv s)
    (hnote : ∀ a l, Inv a → l ∈ labels → note a l = none)
    (hkeep : ∀ a l b, Inv a → l ∈ labels → step a l = some b → Inv b) :
    noted step note s labels = [] := by
  induction labels generalizing s with
  | nil => rfl
  | cons l rest ih =>
      have hmem : l ∈ l :: rest := List.mem_cons_self ..
      cases hst : step s l with
      | none => simp only [noted, hst]
      | some t =>
          rw [noted_cons hst, hnote s l hstart hmem, Option.toList_none, List.nil_append]
          exact ih (hkeep s l t hstart hmem hst)
            (fun a m ha hm => hnote a m ha (List.mem_cons_of_mem _ hm))
            (fun a m b ha hm => hkeep a m b ha (List.mem_cons_of_mem _ hm))

/-- **History invariants of scheduled systems.**  A predicate relating the schedule so far to
the state holds of every completed schedule once it holds at the start and one more step
keeps it. -/
theorem execute_history (P : List ℓ → σ → Prop) {s u : σ} {labels : List ℓ} (hstart : P [] s)
    (hstep : ∀ past l t v, execute step s past = some t → P past t → step t l = some v →
      P (past ++ [l]) v)
    (hrun : execute step s labels = some u) : P labels u := by
  induction labels using List.reverseRecOn generalizing u with
  | nil =>
      obtain rfl := Option.some.inj hrun
      exact hstart
  | append_singleton past l ih =>
      obtain ⟨t, hpast, hlast⟩ := execute_append_eq_some step hrun
      rw [execute_singleton] at hlast
      exact hstep past l t u hpast (ih hpast) hlast

end Noted

section Simulation

variable {σ ℓ τ α : Type*}

/-- The relation `R` is kept by the steps on admitted labels. -/
structure ForwardSimulation (step : σ → ℓ → Option σ) (note : σ → ℓ → Option α)
    (spec : τ → α → Option τ) (admitted : ℓ → Prop) (R : σ → τ → Prop) : Prop where
  silent : ∀ {s t : σ} {x : τ} {l : ℓ}, R s x → admitted l → step s l = some t →
    note s l = none → R t x
  shown : ∀ {s t : σ} {x : τ} {l : ℓ} {a : α}, R s x → admitted l → step s l = some t →
    note s l = some a → ∃ y, spec x a = some y ∧ R t y

variable {step : σ → ℓ → Option σ} {note : σ → ℓ → Option α} {spec : τ → α → Option τ}
  {admitted : ℓ → Prop} {R : σ → τ → Prop}

/-- **What a schedule shows is a schedule of the abstract system.** -/
theorem ForwardSimulation.execute_noted (h : ForwardSimulation step note spec admitted R)
    {s t : σ} {x : τ} {labels : List ℓ} (hstart : R s x) (hadmitted : ∀ l ∈ labels, admitted l)
    (hrun : execute step s labels = some t) :
    ∃ y, execute spec x (noted step note s labels) = some y ∧ R t y := by
  induction labels generalizing s x with
  | nil =>
      obtain rfl := Option.some.inj hrun
      exact ⟨x, rfl, hstart⟩
  | cons l rest ih =>
      obtain ⟨u, hu, hrest⟩ := execute_cons_eq_some step hrun
      have hl : admitted l := hadmitted l (List.mem_cons_self ..)
      have hothers : ∀ m ∈ rest, admitted m := fun m hm => hadmitted m (List.mem_cons_of_mem _ hm)
      rw [noted_cons hu]
      cases hnote : note s l with
      | none => exact ih (h.silent hstart hl hu hnote) hothers hrest
      | some a =>
          obtain ⟨y, hy, hR⟩ := h.shown hstart hl hu hnote
          obtain ⟨z, hz, hlast⟩ := ih hR hothers hrest
          refine ⟨z, ?_, hlast⟩
          rw [Option.toList_some, List.singleton_append, execute_cons, hy, Option.bind_some, hz]

end Simulation

end Library
end AvaListener
