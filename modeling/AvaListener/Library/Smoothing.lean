import Mathlib.Algebra.Order.Field.Basic
import Mathlib.Tactic.Linarith
import Mathlib.Tactic.Ring

/-!
# Exponential smoothing

One smoothing step `weight * x + (1 - weight) * s` over a linearly ordered
field, with the asymmetric choice of weight of a fast-rise, slow-decay filter.
A smoothed value lies below the larger of its two arguments, so it can only
reach a level that one of them had reached.  In turn `climbed` is how far it has
come after so many values of at least a level.
-/

namespace AvaListener
namespace Library

variable {K : Type*} [Field K] [LinearOrder K] [IsStrictOrderedRing K]

/-- One smoothing step with weight `weight` on the new value. -/
def smooth (weight x s : K) : K :=
  weight * x + (1 - weight) * s

/-- The weight is `rise` when the new value lies above the smoothed one. -/
def smoothAsym (rise decay x s : K) : K :=
  smooth (if s < x then rise else decay) x s

theorem smooth_le_max {weight : K} (h0 : 0 ≤ weight) (h1 : weight ≤ 1) (x s : K) :
    smooth weight x s ≤ max x s := by
  have hx : weight * x ≤ weight * max x s := mul_le_mul_of_nonneg_left (le_max_left x s) h0
  have hs : (1 - weight) * s ≤ (1 - weight) * max x s :=
    mul_le_mul_of_nonneg_left (le_max_right x s) (by linarith)
  calc
    smooth weight x s ≤ weight * max x s + (1 - weight) * max x s := add_le_add hx hs
    _ = max x s := by ring

theorem smoothAsym_le_max {rise decay : K} (hr0 : 0 ≤ rise) (hr1 : rise ≤ 1)
    (hd0 : 0 ≤ decay) (hd1 : decay ≤ 1) (x s : K) :
    smoothAsym rise decay x s ≤ max x s := by
  unfold smoothAsym
  split
  · exact smooth_le_max hr0 hr1 x s
  · exact smooth_le_max hd0 hd1 x s

/-- A level the smoothed value reaches was reached by the new value or by the
old smoothed one. -/
theorem le_or_le_of_le_smoothAsym {rise decay : K} (hr0 : 0 ≤ rise) (hr1 : rise ≤ 1)
    (hd0 : 0 ≤ decay) (hd1 : decay ≤ 1) {x s level : K}
    (h : level ≤ smoothAsym rise decay x s) : level ≤ x ∨ level ≤ s :=
  le_max_iff.mp (h.trans (smoothAsym_le_max hr0 hr1 hd0 hd1 x s))

/-- With a new value at most `low` and an old one at most `high`, a decaying
step ends below the mixture of the two bounds. -/
theorem smoothAsym_le_of_le {rise decay : K} (hr0 : 0 ≤ rise) (hr1 : rise ≤ 1)
    (hd0 : 0 ≤ decay) (hd1 : decay ≤ 1) {x s low high : K} (hx : x ≤ low) (hs : s ≤ high) :
    smoothAsym rise decay x s ≤ max low (smooth decay low high) := by
  by_cases hrise : s < x
  · -- A rising step stays below the new value.
    have hle : smoothAsym rise decay x s ≤ max x s := smoothAsym_le_max hr0 hr1 hd0 hd1 x s
    rw [max_eq_left hrise.le] at hle
    exact le_max_of_le_left (hle.trans hx)
  · have hlow : decay * x ≤ decay * low := mul_le_mul_of_nonneg_left hx hd0
    have hhigh : (1 - decay) * s ≤ (1 - decay) * high :=
      mul_le_mul_of_nonneg_left hs (by linarith)
    refine le_max_of_le_right ?_
    simp only [smoothAsym, if_neg hrise, smooth]
    exact add_le_add hlow hhigh

/-! ## Climbing -/

/-- How far `n` steps come from nothing towards `level`. -/
def climbed (weight level : K) (n : ℕ) : K :=
  level * (1 - (1 - weight) ^ n)

omit [LinearOrder K] [IsStrictOrderedRing K] in
@[simp] theorem climbed_zero (weight level : K) : climbed weight level 0 = 0 := by
  simp [climbed]

omit [LinearOrder K] [IsStrictOrderedRing K] in
theorem climbed_succ (weight level : K) (n : ℕ) :
    climbed weight level (n + 1) = smooth weight level (climbed weight level n) := by
  unfold climbed smooth
  ring

theorem climbed_le {weight level : K} (h1 : weight ≤ 1) (hlevel : 0 ≤ level) (n : ℕ) :
    climbed weight level n ≤ level := by
  have hpow : 0 ≤ (1 - weight) ^ n := pow_nonneg (by linarith) n
  calc
    climbed weight level n ≤ level * 1 := mul_le_mul_of_nonneg_left (by linarith) hlevel
    _ = level := mul_one level

/-- What falls short of `0` climbs nowhere. -/
theorem climbed_nonpos {weight level : K} (h0 : 0 ≤ weight) (h1 : weight ≤ 1) (hlevel : level ≤ 0)
    (n : ℕ) : climbed weight level n ≤ 0 := by
  have hpow : (1 - weight) ^ n ≤ 1 := pow_le_one₀ (by linarith) (by linarith)
  exact mul_nonpos_of_nonpos_of_nonneg hlevel (by linarith)

/-- **One step** from a place that `n` steps reach, with a value of at least the level. -/
theorem climbed_succ_le_smoothAsym {rise decay level x s : K} {n : ℕ} (hr0 : 0 ≤ rise)
    (hr1 : rise ≤ 1) (hd1 : decay ≤ 1) (hlevel : 0 ≤ level) (hx : level ≤ x)
    (hs : climbed rise level n ≤ s) : climbed rise level (n + 1) ≤ smoothAsym rise decay x s := by
  by_cases hrise : s < x
  · have hgain : rise * level ≤ rise * x := mul_le_mul_of_nonneg_left hx hr0
    have hkept : (1 - rise) * climbed rise level n ≤ (1 - rise) * s :=
      mul_le_mul_of_nonneg_left hs (by linarith)
    rw [climbed_succ, smoothAsym, if_pos hrise]
    exact add_le_add hgain hkept
  · -- A decaying step stays above the value it decays to.
    have hkept : (1 - decay) * x ≤ (1 - decay) * s :=
      mul_le_mul_of_nonneg_left (not_lt.mp hrise) (by linarith)
    rw [smoothAsym, if_neg hrise]
    calc
      climbed rise level (n + 1) ≤ level := climbed_le hr1 hlevel (n + 1)
      _ ≤ x := hx
      _ = decay * x + (1 - decay) * x := by ring
      _ ≤ decay * x + (1 - decay) * s := add_le_add le_rfl hkept

theorem smoothAsym_nonneg {rise decay x s : K} (hr0 : 0 ≤ rise) (hr1 : rise ≤ 1)
    (hd1 : decay ≤ 1) (hx : 0 ≤ x) (hs : 0 ≤ s) : 0 ≤ smoothAsym rise decay x s := by
  have hstart : climbed rise 0 0 ≤ s := by rwa [climbed_zero]
  have hstep := climbed_succ_le_smoothAsym hr0 hr1 hd1 le_rfl hx hstart
  rwa [climbed, zero_mul] at hstep

end Library
end AvaListener
