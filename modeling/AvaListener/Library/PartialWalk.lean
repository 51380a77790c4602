import Mathlib.Data.Option.Basic
import Mathlib.Order.Nat
import Mathlib.Algebra.Order.Group.Nat

/-!
# Walks of a partial function

Following `next : α → Option α` from a starting point, as far as it leads.  A walk
that ends ends at one place after one number of steps, and a walk that returns to a
place it has visited never ends.
-/

namespace AvaListener
namespace Library

section PartialWalk

variable {α : Type*} (next : α → Option α) (start : α)

/-- Where the walk is after `n` steps; `none` when it has ended before. -/
def walkAt : ℕ → Option α
  | 0 => some start
  | n + 1 => (walkAt n).bind next

@[simp] theorem walkAt_zero : walkAt next start 0 = some start := rfl

theorem walkAt_succ (n : ℕ) : walkAt next start (n + 1) = (walkAt next start n).bind next := rfl

variable {next start}

theorem walkAt_succ_of_eq {n : ℕ} {a : α} (h : walkAt next start n = some a) :
    walkAt next start (n + 1) = next a := by
  rw [walkAt_succ, h, Option.bind_some]

/-- A walk that is somewhere was somewhere all along. -/
theorem isSome_walkAt_of_le {m n : ℕ} (hle : m ≤ n) (h : (walkAt next start n).isSome = true) :
    (walkAt next start m).isSome = true := by
  induction n, hle using Nat.le_induction with
  | base => exact h
  | succ n _ ih =>
      refine ih ?_
      cases hn : walkAt next start n with
      | none => simp [walkAt_succ, hn] at h
      | some a => rfl

/-- From equal places the walk goes on alike. -/
theorem walkAt_add_eq {i j : ℕ} (h : walkAt next start i = walkAt next start j) (k : ℕ) :
    walkAt next start (i + k) = walkAt next start (j + k) := by
  induction k with
  | zero => exact h
  | succ k ih => rw [← Nat.add_assoc, ← Nat.add_assoc, walkAt_succ, walkAt_succ, ih]

/-- **A walk that returns never ends.** -/
theorem isSome_walkAt_of_repeat {i j : ℕ} (hij : i < j)
    (heq : walkAt next start i = walkAt next start j) (h : (walkAt next start j).isSome = true)
    (n : ℕ) : (walkAt next start n).isSome = true := by
  induction n using Nat.strongRecOn with
  | _ n ih =>
      rcases Nat.lt_or_ge j n with hlt | hle
      · obtain ⟨k, rfl⟩ := Nat.exists_eq_add_of_lt hlt
        rw [Nat.add_assoc, ← walkAt_add_eq heq]
        exact ih _ (by omega)
      · exact isSome_walkAt_of_le hle h

/-- **A walk ends at one place.** -/
theorem walkAt_end_unique {m n : ℕ} {a b : α} (ha : walkAt next start m = some a)
    (hb : walkAt next start n = some b) (hend : next a = none) (hend' : next b = none) :
    m = n := by
  have hstops : ∀ {i j : ℕ} {x y : α}, walkAt next start i = some x → walkAt next start j = some y →
      next x = none → j ≤ i := by
    intro i j x y hx hy hnone
    by_contra hlt
    have hsome := isSome_walkAt_of_le (by omega : i + 1 ≤ j) (by rw [hy]; rfl)
    rw [walkAt_succ_of_eq hx, hnone] at hsome
    cases hsome
  exact Nat.le_antisymm (hstops hb ha hend') (hstops ha hb hend)

/-- A walk that ends visits no place twice. -/
theorem walkAt_ne_of_end {n : ℕ} {a : α} (ha : walkAt next start n = some a) (hend : next a = none)
    {i j : ℕ} (hij : i < j) (hj : j ≤ n) : walkAt next start i ≠ walkAt next start j := by
  intro heq
  have hjsome := isSome_walkAt_of_le hj (by rw [ha]; rfl)
  have hsome := isSome_walkAt_of_repeat hij heq hjsome (n + 1)
  rw [walkAt_succ_of_eq ha, hend] at hsome
  cases hsome

end PartialWalk

end Library
end AvaListener
