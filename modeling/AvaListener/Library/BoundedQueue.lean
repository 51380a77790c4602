import Mathlib.Data.Nat.Notation
import Mathlib.Tactic.TypeStar

/-!
# Bounded queues

A first-in first-out queue with a positive `maxsize`, as `queue.Queue` of the host language
offers it to callers that do not wait: `put_nowait` raises where the queue is full,
`get_nowait` where it is empty.
-/

namespace AvaListener
namespace Library

/-- The items of a queue, oldest first. -/
structure BoundedQueue (α : Type*) (maxsize : ℕ) where
  items : List α
  length_le : items.length ≤ maxsize

namespace BoundedQueue

variable {α : Type*} {maxsize : ℕ}

def empty : BoundedQueue α maxsize := ⟨[], Nat.zero_le _⟩

def qsize (q : BoundedQueue α maxsize) : ℕ := q.items.length

theorem concat_length_le {items : List α} {a : α} (h : items.length < maxsize) :
    (items ++ [a]).length ≤ maxsize := by
  rw [List.length_append]
  exact h

theorem rest_length_le {q : BoundedQueue α maxsize} {a : α} {rest : List α}
    (h : q.items = a :: rest) : rest.length ≤ maxsize := by
  have hle := q.length_le
  rw [h] at hle
  exact Nat.le_of_succ_le hle

/-- `put_nowait`: `none` stands for `Full`. -/
def putNowait (q : BoundedQueue α maxsize) (a : α) : Option (BoundedQueue α maxsize) :=
  if h : q.items.length < maxsize then some ⟨q.items ++ [a], concat_length_le h⟩ else none

/-- `get_nowait`: `none` stands for `Empty`. -/
def getNowait (q : BoundedQueue α maxsize) : Option (α × BoundedQueue α maxsize) :=
  match h : q.items with
  | [] => none
  | a :: rest => some (a, ⟨rest, rest_length_le h⟩)

variable {q r : BoundedQueue α maxsize} {a : α}

@[simp] theorem qsize_empty : (empty : BoundedQueue α maxsize).qsize = 0 := rfl

theorem qsize_le (q : BoundedQueue α maxsize) : q.qsize ≤ maxsize := q.length_le

theorem qsize_of_putNowait (h : q.putNowait a = some r) : r.qsize = q.qsize + 1 := by
  unfold putNowait at h
  split at h
  · obtain rfl := Option.some.inj h
    simp [qsize]
  · cases h

theorem putNowait_eq_none_iff : q.putNowait a = none ↔ q.qsize = maxsize := by
  have hle := q.qsize_le
  simp only [putNowait, qsize, dite_eq_right_iff, reduceCtorEq, imp_false] at hle ⊢
  omega

theorem exists_putNowait (h : q.qsize < maxsize) (a : α) : ∃ r, q.putNowait a = some r :=
  ⟨_, dif_pos h⟩

theorem qsize_of_getNowait (h : q.getNowait = some (a, r)) : r.qsize + 1 = q.qsize := by
  unfold getNowait at h
  split at h
  · cases h
  next hitems =>
    obtain ⟨rfl, rfl⟩ := Prod.mk.inj (Option.some.inj h)
    simp [qsize, hitems]

theorem getNowait_eq_none_iff : q.getNowait = none ↔ q.qsize = 0 := by
  unfold getNowait
  split
  next hitems => simp [qsize, hitems]
  next hitems => simp [qsize, hitems]

end BoundedQueue

end Library
end AvaListener
