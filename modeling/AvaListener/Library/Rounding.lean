import Mathlib.Algebra.Order.Floor.Ring
import Mathlib.Data.Int.Log
import Mathlib.Data.Rat.Floor
import Mathlib.Tactic.Linarith

/-!
# Rounding to a binary precision

Binary floating point rounds an exact result to the nearest number with so many bits, and
of two nearest ones to that whose last bit is zero.  The exponent is not bounded here: the
sum or the difference of two floating-point numbers is rounded in the same way by a format
that bounds it, as long as it does not overflow.

Rounding is monotone, whatever the precision (`roundBits_mono`).  So a comparison that holds
of exact numbers holds of the rounded ones, though not the other way round.
-/

namespace AvaListener
namespace Library

section Integer

variable {K : Type*} [Field K] [LinearOrder K] [IsStrictOrderedRing K] [FloorRing K] {x y : K}

/-- The nearest integer, of two the even one. -/
def roundHalfEven (x : K) : ℤ :=
  if x - ⌊x⌋ < 1 / 2 ∨ x - ⌊x⌋ = 1 / 2 ∧ Even ⌊x⌋ then ⌊x⌋ else ⌊x⌋ + 1

omit [IsStrictOrderedRing K] in
theorem floor_le_roundHalfEven (x : K) : ⌊x⌋ ≤ roundHalfEven x := by
  unfold roundHalfEven
  split
  · exact le_rfl
  · exact (lt_add_one _).le

omit [IsStrictOrderedRing K] in
theorem roundHalfEven_le_floor_add_one (x : K) : roundHalfEven x ≤ ⌊x⌋ + 1 := by
  unfold roundHalfEven
  split
  · exact (lt_add_one _).le
  · exact le_rfl

@[simp] theorem roundHalfEven_intCast (n : ℤ) : roundHalfEven (n : K) = n := by
  unfold roundHalfEven
  rw [Int.floor_intCast, sub_self]
  exact if_pos (.inl one_half_pos)

theorem roundHalfEven_mono (h : x ≤ y) : roundHalfEven x ≤ roundHalfEven y := by
  rcases (Int.floor_mono h).lt_or_eq with hlt | heq
  · calc roundHalfEven x ≤ ⌊x⌋ + 1 := roundHalfEven_le_floor_add_one x
      _ ≤ ⌊y⌋ := Int.add_one_le_iff.mpr hlt
      _ ≤ roundHalfEven y := floor_le_roundHalfEven y
  · by_cases hdown : y - ⌊y⌋ < 1 / 2 ∨ y - ⌊y⌋ = 1 / 2 ∧ Even ⌊y⌋
    · -- Of two numbers over one integer the lower is rounded down if the higher is.
      have hless : x - ⌊x⌋ < 1 / 2 ∨ x - ⌊x⌋ = 1 / 2 ∧ Even ⌊x⌋ := by
        rw [heq]
        have hle : x - ⌊y⌋ ≤ y - ⌊y⌋ := sub_le_sub_right h _
        rcases hdown with hlt | ⟨hhalf, heven⟩
        · exact .inl (hle.trans_lt hlt)
        · exact (hhalf ▸ hle).lt_or_eq.imp_right fun hx => ⟨hx, heven⟩
      rw [roundHalfEven, if_pos hless, heq]
      exact floor_le_roundHalfEven y
    · have hup : roundHalfEven y = ⌊y⌋ + 1 := if_neg hdown
      rw [hup, ← heq]
      exact roundHalfEven_le_floor_add_one x

end Integer

variable {K : Type*} [Field K] [LinearOrder K] [IsStrictOrderedRing K] [FloorRing K]
  (bits : ℕ) {x y : K}

/-- The distance between neighbours at a positive number, for so many bits after the
leading one. -/
def spacing (x : K) : K := 2 ^ (Int.log 2 x - bits)

/-- Rounding of a number that is not negative. -/
def roundMagnitude (x : K) : K := roundHalfEven (x / spacing bits x) * spacing bits x

/-- The nearest number with so many bits after the leading one. -/
def roundBits (x : K) : K :=
  if x < 0 then -roundMagnitude bits (-x) else roundMagnitude bits x

/-- Rounding to a double. -/
def binary64 (x : K) : K := roundBits 52 x

theorem spacing_pos (x : K) : 0 < spacing bits x := zpow_pos two_pos _

/-- A power of two is as many spacings as the bits allow. -/
theorem two_pow_mul_spacing (x : K) : 2 ^ bits * spacing bits x = 2 ^ Int.log 2 x := by
  have htwo : (2 : K) ≠ 0 := two_pos.ne'
  rw [spacing, ← zpow_natCast, ← zpow_add₀ htwo]
  congr 1
  omega

/-- A positive number and its rounding lie between the same powers of two. -/
theorem roundMagnitude_bounds (hx : 0 < x) :
    2 ^ Int.log 2 x ≤ roundMagnitude bits x ∧ roundMagnitude bits x ≤ 2 ^ (Int.log 2 x + 1) := by
  have hspacing := spacing_pos bits x
  have hpower := two_pow_mul_spacing bits x
  have hcast : ((2 ^ bits : ℤ) : K) = 2 ^ bits := by push_cast; rfl
  have hcast' : ((2 * 2 ^ bits : ℤ) : K) = 2 * 2 ^ bits := by push_cast; rfl
  constructor
  · have hle : ((2 ^ bits : ℤ) : K) ≤ x / spacing bits x := by
      rw [hcast, le_div_iff₀ hspacing, hpower]
      exact_mod_cast Int.zpow_log_le_self one_lt_two hx
    have hround := roundHalfEven_mono hle
    rw [roundHalfEven_intCast] at hround
    rw [← hpower, ← hcast]
    exact mul_le_mul_of_nonneg_right (Int.cast_le.mpr hround) hspacing.le
  · have htwice : 2 * 2 ^ bits * spacing bits x = 2 ^ (Int.log 2 x + 1) := by
      rw [mul_assoc, hpower, zpow_add_one₀ two_ne_zero, mul_comm]
    have hle : x / spacing bits x ≤ ((2 * 2 ^ bits : ℤ) : K) := by
      rw [hcast', div_le_iff₀ hspacing, htwice]
      exact_mod_cast (Int.lt_zpow_succ_log_self one_lt_two x).le
    have hround := roundHalfEven_mono hle
    rw [roundHalfEven_intCast] at hround
    rw [← htwice, ← hcast']
    exact mul_le_mul_of_nonneg_right (Int.cast_le.mpr hround) hspacing.le

@[simp] theorem roundMagnitude_zero : roundMagnitude bits (0 : K) = 0 := by
  have hzero : roundHalfEven (0 : K) = 0 := by
    exact_mod_cast roundHalfEven_intCast (K := K) 0
  rw [roundMagnitude, zero_div, hzero, Int.cast_zero, zero_mul]

theorem roundMagnitude_nonneg (hx : 0 ≤ x) : 0 ≤ roundMagnitude bits x := by
  rcases hx.eq_or_lt with rfl | hx
  · exact (roundMagnitude_zero bits).ge
  · exact (zpow_pos two_pos _).le.trans (roundMagnitude_bounds bits hx).1

theorem roundMagnitude_mono (hx : 0 ≤ x) (h : x ≤ y) :
    roundMagnitude bits x ≤ roundMagnitude bits y := by
  rcases hx.eq_or_lt with rfl | hx
  · rw [roundMagnitude_zero]
    exact roundMagnitude_nonneg bits h
  · rcases (Int.log_mono_right (b := 2) hx h).lt_or_eq with hlt | heq
    · calc roundMagnitude bits x ≤ 2 ^ (Int.log 2 x + 1) := (roundMagnitude_bounds bits hx).2
        _ ≤ 2 ^ Int.log 2 y := zpow_le_zpow_right₀ one_le_two hlt
        _ ≤ roundMagnitude bits y := (roundMagnitude_bounds bits (hx.trans_le h)).1
    · have hsame : spacing bits x = spacing bits y := by rw [spacing, spacing, heq]
      have hspacing := spacing_pos bits y
      rw [roundMagnitude, roundMagnitude, hsame]
      have hround := roundHalfEven_mono (div_le_div_of_nonneg_right h hspacing.le)
      exact mul_le_mul_of_nonneg_right (Int.cast_le.mpr hround) hspacing.le

/-- **Rounding is monotone.** -/
theorem roundBits_mono (h : x ≤ y) : roundBits bits x ≤ roundBits bits y := by
  unfold roundBits
  by_cases hx : x < 0
  · rw [if_pos hx]
    by_cases hy : y < 0
    · rw [if_pos hy, neg_le_neg_iff]
      exact roundMagnitude_mono bits (neg_nonneg.mpr hy.le) (neg_le_neg h)
    · rw [if_neg hy]
      exact (neg_nonpos.mpr (roundMagnitude_nonneg bits (neg_nonneg.mpr hx.le))).trans
        (roundMagnitude_nonneg bits (not_lt.mp hy))
  · have hx := not_lt.mp hx
    rw [if_neg hx.not_gt, if_neg (hx.trans h).not_gt]
    exact roundMagnitude_mono bits hx h

theorem binary64_mono (h : x ≤ y) : binary64 x ≤ binary64 y := roundBits_mono 52 h

/-- A positive number is less than twice its rounding. -/
theorem lt_two_mul_binary64 (hx : 0 < x) : x < 2 * binary64 x := by
  have hround : binary64 x = roundMagnitude 52 x := if_neg hx.not_gt
  calc x < 2 ^ (Int.log 2 x + 1) := by exact_mod_cast Int.lt_zpow_succ_log_self one_lt_two x
    _ = 2 * 2 ^ Int.log 2 x := by rw [zpow_add_one₀ two_ne_zero, mul_comm]
    _ ≤ 2 * binary64 x := by
        rw [hround]
        exact mul_le_mul_of_nonneg_left (roundMagnitude_bounds 52 hx).1 zero_le_two

end Library
end AvaListener
