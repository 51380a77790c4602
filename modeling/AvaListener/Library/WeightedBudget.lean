import Mathlib.Algebra.Order.BigOperators.Group.Finset
import Mathlib.Algebra.Order.Field.Basic
import Mathlib.Data.Fintype.Basic
import Mathlib.Tactic.Linarith

/-!
# Weighted budgets

A budget of one from which every member of a finite family takes its weight times a
pressure between zero and one.  Where the weights are positive and add up to one, no member
makes up for another: the budget is whole only without any pressure and spent only under
full pressure everywhere.
-/

namespace AvaListener
namespace Library

variable {K : Type*} [Field K] [LinearOrder K]

/-! ## The unit interval -/

/-- The value cut off below zero and above one. -/
def clampUnit (x : K) : K := max 0 (min 1 x)

theorem clampUnit_nonneg (x : K) : 0 ≤ clampUnit x := le_max_left ..

theorem clampUnit_mono {x y : K} (h : x ≤ y) : clampUnit x ≤ clampUnit y :=
  max_le_max le_rfl (min_le_min le_rfl h)

theorem clampUnit_eq_self {x : K} (h0 : 0 ≤ x) (h1 : x ≤ 1) : clampUnit x = x := by
  rw [clampUnit, min_eq_right h1, max_eq_right h0]

variable [IsStrictOrderedRing K]

theorem clampUnit_le_one (x : K) : clampUnit x ≤ 1 := max_le zero_le_one (min_le_left ..)

theorem clampUnit_eq_zero_iff {x : K} : clampUnit x = 0 ↔ x ≤ 0 := by
  rw [clampUnit, max_eq_left_iff, min_le_iff]
  exact or_iff_right (not_le.mpr zero_lt_one)

theorem clampUnit_eq_one_iff {x : K} : clampUnit x = 1 ↔ 1 ≤ x := by
  constructor
  · intro h
    by_contra hlt
    have hbelow : clampUnit x < 1 := max_lt zero_lt_one (min_lt_of_right_lt (not_le.mp hlt))
    exact hbelow.ne h
  · intro h
    rw [clampUnit, min_eq_left h, max_eq_right zero_le_one]

/-! ## Budgets -/

variable {ι : Type*} [Fintype ι]

/-- What the pressures leave of the budget. -/
def remaining (weight pressure : ι → K) : K := 1 - ∑ i, weight i * pressure i

variable {weight pressure : ι → K}

theorem remaining_le_one (hweight : ∀ i, 0 < weight i) (hpressure : ∀ i, 0 ≤ pressure i) :
    remaining weight pressure ≤ 1 := by
  have hsum : 0 ≤ ∑ i, weight i * pressure i :=
    Finset.sum_nonneg fun i _ => mul_nonneg (hweight i).le (hpressure i)
  unfold remaining
  linarith

theorem remaining_anti (hweight : ∀ i, 0 < weight i) {more : ι → K}
    (h : ∀ i, pressure i ≤ more i) : remaining weight more ≤ remaining weight pressure := by
  have hsum : ∑ i, weight i * pressure i ≤ ∑ i, weight i * more i :=
    Finset.sum_le_sum fun i _ => mul_le_mul_of_nonneg_left (h i) (hweight i).le
  unfold remaining
  linarith

/-- Nothing is taken exactly where nothing presses. -/
theorem remaining_eq_one_iff (hweight : ∀ i, 0 < weight i) (hpressure : ∀ i, 0 ≤ pressure i) :
    remaining weight pressure = 1 ↔ ∀ i, pressure i = 0 := by
  have hterm : ∀ i ∈ Finset.univ, 0 ≤ weight i * pressure i :=
    fun i _ => mul_nonneg (hweight i).le (hpressure i)
  rw [remaining, sub_eq_self, Finset.sum_eq_zero_iff_of_nonneg hterm]
  refine ⟨fun h i => ?_, fun h i _ => by rw [h i, mul_zero]⟩
  exact (mul_eq_zero.mp (h i (Finset.mem_univ i))).resolve_left (hweight i).ne'

section FullBudget

variable (hsum : ∑ i, weight i = 1)

include hsum

theorem remaining_nonneg (hweight : ∀ i, 0 < weight i) (hpressure : ∀ i, pressure i ≤ 1) :
    0 ≤ remaining weight pressure := by
  have hle : ∑ i, weight i * pressure i ≤ ∑ i, weight i :=
    Finset.sum_le_sum fun i _ => mul_le_of_le_one_right (hweight i).le (hpressure i)
  unfold remaining
  linarith

/-- Everything is taken exactly where everything presses in full. -/
theorem remaining_eq_zero_iff (hweight : ∀ i, 0 < weight i) (hpressure : ∀ i, pressure i ≤ 1) :
    remaining weight pressure = 0 ↔ ∀ i, pressure i = 1 := by
  have hterm : ∀ i ∈ Finset.univ, weight i * pressure i ≤ weight i :=
    fun i _ => mul_le_of_le_one_right (hweight i).le (hpressure i)
  have hfull : remaining weight pressure = ∑ i, weight i - ∑ i, weight i * pressure i := by
    rw [remaining, hsum]
  rw [hfull, sub_eq_zero, eq_comm, Finset.sum_eq_sum_iff_of_le hterm]
  refine ⟨fun h i => ?_, fun h i _ => by rw [h i, mul_one]⟩
  exact mul_left_cancel₀ (hweight i).ne' ((h i (Finset.mem_univ i)).trans (mul_one _).symm)

end FullBudget

end Library
end AvaListener
