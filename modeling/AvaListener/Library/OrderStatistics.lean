import Mathlib.Data.List.Sort

/-!
# Order statistics

The elements of a list by their rank in ascending order, and how many elements lie at or
below each of them.
-/

namespace AvaListener
namespace Library

variable {α : Type*} [LinearOrder α]

/-- In an ascending list the elements at or below a value come first. -/
theorem lt_countP_iff_of_pairwise {s : List α} (hs : s.Pairwise (· ≤ ·)) {k : ℕ}
    (hk : k < s.length) (v : α) : k < s.countP (· ≤ v) ↔ s[k] ≤ v := by
  induction s generalizing k with
  | nil => exact absurd hk (Nat.not_lt_zero k)
  | cons x xs ih =>
      obtain ⟨hx, hxs⟩ := List.pairwise_cons.mp hs
      by_cases hle : x ≤ v
      · rw [List.countP_cons, if_pos (decide_eq_true hle)]
        cases k with
        | zero => exact ⟨fun _ => hle, fun _ => Nat.zero_lt_succ _⟩
        | succ k => exact Nat.succ_lt_succ_iff.trans (ih hxs (Nat.lt_of_succ_lt_succ hk))
      · have hnone : (x :: xs).countP (· ≤ v) = 0 := by
          rw [List.countP_eq_zero]
          intro y hy
          rw [decide_eq_true_eq]
          rcases List.mem_cons.mp hy with rfl | hy
          · exact hle
          · exact fun hyv => hle ((hx y hy).trans hyv)
        rw [hnone]
        refine iff_of_false (Nat.not_lt_zero k) fun hkv => hle ?_
        cases k with
        | zero => exact hkv
        | succ k => exact (hx _ (List.getElem_mem _)).trans hkv

/-- The element of rank `k`, the smallest having rank zero. -/
def orderStatistic (xs : List α) (k : ℕ) : Option α := (xs.insertionSort (· ≤ ·))[k]?

variable {xs : List α} {j k : ℕ} {v w : α}

theorem isSome_orderStatistic (h : k < xs.length) : (orderStatistic xs k).isSome := by
  rw [orderStatistic, List.getElem?_eq_getElem (by rwa [List.length_insertionSort]),
    Option.isSome_some]

theorem mem_of_orderStatistic (h : orderStatistic xs k = some v) : v ∈ xs :=
  (List.perm_insertionSort _ xs).mem_iff.mp (List.mem_of_getElem? h)

/-- More than `k` elements lie at or below a value exactly when the one of rank `k` does. -/
theorem lt_countP_iff (h : orderStatistic xs k = some w) (v : α) :
    k < xs.countP (· ≤ v) ↔ w ≤ v := by
  obtain ⟨hk, rfl⟩ := List.getElem?_eq_some_iff.mp h
  rw [← (List.perm_insertionSort (· ≤ ·) xs).countP_eq]
  exact lt_countP_iff_of_pairwise (List.pairwise_insertionSort _ xs) hk v

theorem orderStatistic_mono (hj : orderStatistic xs j = some v) (hk : orderStatistic xs k = some w)
    (h : j ≤ k) : v ≤ w := by
  have hcount : k < xs.countP (· ≤ w) := (lt_countP_iff hk w).mpr le_rfl
  exact (lt_countP_iff hj w).mp (h.trans_lt hcount)

end Library
end AvaListener
