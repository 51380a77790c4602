import Mathlib.Data.List.Forall2

/-!
# Computations that may raise

Sequencing in `Except`: when a bind succeeds, when a traversal succeeds, and what
a fold that may raise has consumed.
-/

namespace AvaListener
namespace Library

universe u v

variable {ε : Type u} {α β : Type v}

@[simp] theorem ok_bind (a : α) (f : α → Except ε β) : (Except.ok a >>= f) = f a := rfl

@[simp] theorem error_bind (e : ε) (f : α → Except ε β) :
    (Except.error e >>= f) = Except.error e := rfl

/-- A sequence succeeds exactly when both of its parts do. -/
theorem bind_eq_ok_iff {x : Except ε α} {f : α → Except ε β} {b : β} :
    (x >>= f) = .ok b ↔ ∃ a, x = .ok a ∧ f a = .ok b := by
  cases x with
  | error e => simp
  | ok a => simp

theorem map_eq_ok_iff {x : Except ε α} {f : α → β} {b : β} :
    x.map f = .ok b ↔ ∃ a, x = .ok a ∧ f a = b := by
  cases x with
  | error e => simp [Except.map]
  | ok a => simp [Except.map]

theorem mapError_eq_ok_iff {ε' : Type u} {x : Except ε α} {f : ε → ε'} {a : α} :
    x.mapError f = .ok a ↔ x = .ok a := by
  cases x with
  | error e => simp [Except.mapError]
  | ok a => simp [Except.mapError]

theorem toOption_eq_some_iff {x : Except ε α} {a : α} : x.toOption = some a ↔ x = .ok a := by
  cases x with
  | error e => simp [Except.toOption]
  | ok b => simp [Except.toOption]

/-- A check that raises is passed where its test fails. -/
theorem ite_error_eq_ok_iff {c : Prop} [Decidable c] {e : ε} {x : Except ε α} {a : α} :
    (if c then Except.error e else x) = .ok a ↔ ¬ c ∧ x = .ok a := by
  by_cases hc : c
  · simp [hc]
  · simp [hc]

/-- **A traversal succeeds exactly when every element does**, with the results in
order. -/
theorem mapM_eq_ok_iff {f : α → Except ε β} {xs : List α} {ys : List β} :
    xs.mapM f = .ok ys ↔ List.Forall₂ (fun x y => f x = .ok y) xs ys := by
  induction xs generalizing ys with
  | nil =>
      rw [List.mapM_nil, List.forall₂_nil_left_iff]
      exact ⟨fun h => (Except.ok.inj h).symm, fun h => congrArg Except.ok h.symm⟩
  | cons x xs ih =>
      rw [List.mapM_cons, bind_eq_ok_iff, List.forall₂_cons_left_iff]
      constructor
      · rintro ⟨y, hy, h⟩
        obtain ⟨tail, htail, heq⟩ := bind_eq_ok_iff.mp h
        exact ⟨y, tail, hy, ih.mp htail, (Except.ok.inj heq).symm⟩
      · rintro ⟨y, tail, hy, htail, rfl⟩
        exact ⟨y, hy, bind_eq_ok_iff.mpr ⟨tail, ih.mpr htail, rfl⟩⟩

/-- Every element of a traversed list has its result among the results. -/
theorem exists_mem_of_mapM {f : α → Except ε β} {xs : List α} {ys : List β}
    (h : xs.mapM f = .ok ys) {x : α} (hx : x ∈ xs) : ∃ y ∈ ys, f x = .ok y := by
  have hall := mapM_eq_ok_iff.mp h
  clear h
  induction hall with
  | nil => cases hx
  | cons hxy _ ih =>
      rcases List.mem_cons.mp hx with rfl | hx
      · exact ⟨_, List.mem_cons_self .., hxy⟩
      · obtain ⟨y, hy, hf⟩ := ih hx
        exact ⟨y, List.mem_cons_of_mem _ hy, hf⟩

/-- Every result of a traversal is that of a traversed element. -/
theorem exists_source_of_mapM {f : α → Except ε β} {xs : List α} {ys : List β}
    (h : xs.mapM f = .ok ys) {y : β} (hy : y ∈ ys) : ∃ x ∈ xs, f x = .ok y := by
  have hall := mapM_eq_ok_iff.mp h
  clear h
  induction hall with
  | nil => cases hy
  | cons hxy _ ih =>
      rcases List.mem_cons.mp hy with rfl | hy
      · exact ⟨_, List.mem_cons_self .., hxy⟩
      · obtain ⟨x, hx, hf⟩ := ih hy
        exact ⟨x, List.mem_cons_of_mem _ hx, hf⟩

theorem exists_mapM_eq_ok_iff {f : α → Except ε β} {xs : List α} :
    (∃ ys, xs.mapM f = .ok ys) ↔ ∀ x ∈ xs, ∃ y, f x = .ok y := by
  constructor
  · rintro ⟨ys, h⟩ x hx
    obtain ⟨y, -, hy⟩ := exists_mem_of_mapM h hx
    exact ⟨y, hy⟩
  · intro hall
    induction xs with
    | nil => exact ⟨[], rfl⟩
    | cons x xs ih =>
        obtain ⟨hx, hxs⟩ := List.forall_mem_cons.mp hall
        obtain ⟨y, hy⟩ := hx
        obtain ⟨ys, hys⟩ := ih hxs
        exact ⟨y :: ys, mapM_eq_ok_iff.mpr (.cons hy (mapM_eq_ok_iff.mp hys))⟩

/-- A traversal of part of a list computes part of the results. -/
theorem mapM_ok_of_sublist {f : α → Except ε β} {part xs : List α} {ys : List β}
    (h : xs.mapM f = .ok ys) (hpart : part.Sublist xs) :
    ∃ zs, part.mapM f = .ok zs ∧ zs.Sublist ys := by
  have hall := mapM_eq_ok_iff.mp h
  clear h
  induction hpart generalizing ys with
  | slnil => exact ⟨[], rfl, List.nil_sublist ys⟩
  | cons x _ ih =>
      obtain ⟨y, tail, -, htail, rfl⟩ := List.forall₂_cons_left_iff.mp hall
      obtain ⟨zs, hzs, hsub⟩ := ih htail
      exact ⟨zs, hzs, hsub.cons y⟩
  | cons_cons x _ ih =>
      obtain ⟨y, tail, hy, htail, rfl⟩ := List.forall₂_cons_left_iff.mp hall
      obtain ⟨zs, hzs, hsub⟩ := ih htail
      exact ⟨y :: zs, mapM_eq_ok_iff.mpr (.cons hy (mapM_eq_ok_iff.mp hzs)), hsub.cons_cons y⟩

/-- Two traversals that correspond element by element correspond as a whole. -/
theorem mapM_map_of_corresponds {ε' : Type u} {α' β' : Type v} {f : α → Except ε β}
    {f' : α' → Except ε' β'} {encode : α → α'} {image : β → β'} {raised : ε → ε'}
    (h : ∀ a, f' (encode a) = ((f a).map image).mapError raised) (xs : List α) :
    (xs.map encode).mapM f' = ((xs.mapM f).map (List.map image)).mapError raised := by
  induction xs with
  | nil => rfl
  | cons a rest ih =>
      rw [List.map_cons, List.mapM_cons, List.mapM_cons, h, ih]
      cases f a with
      | error e => rfl
      | ok b =>
          cases rest.mapM f with
          | error e => rfl
          | ok bs => rfl

end Library
end AvaListener
