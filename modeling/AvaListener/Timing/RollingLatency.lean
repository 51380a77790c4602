import AvaListener.Library.OrderStatistics
import Mathlib.Algebra.Order.Ring.Rat
import Mathlib.Data.List.Induction

/-!
# Rolling latencies

`RollingLatency` of `runtime/timing/latency.py`: a window of samples and their 99th
percentile, in exact arithmetic.  The code reads the sample of rank `⌊0.99 n⌋ - 1`; a
99th percentile needs `⌈0.99 n⌉` samples at or below it.
-/

namespace AvaListener
namespace Timing

open Library

structure RollingLatency where
  window : ℕ
  samples : List ℚ
  deriving DecidableEq

namespace RollingLatency

/-- `RollingLatency(label, window)`. -/
def init (window : ℕ) : RollingLatency := ⟨window, []⟩

def record (r : RollingLatency) (ms : ℚ) : RollingLatency :=
  let samples := r.samples ++ [ms]
  { r with samples := if r.window < samples.length then samples.tail else samples }

/-- `max(0, int(n * 0.99) - 1)`. -/
def p99Index (n : ℕ) : ℕ := max 0 (99 * n / 100 - 1)

def p99Ms (r : RollingLatency) : ℚ :=
  if r.samples = [] then 0
  else ((r.samples.insertionSort (· ≤ ·))[p99Index r.samples.length]?).getD 0

/-! ## The window -/

/-- The last `window` samples recorded, or all of them. -/
def retained (window : ℕ) (recorded : List ℚ) : List ℚ :=
  recorded.drop (recorded.length - window)

/-- One sample more: the oldest goes where the window was full. -/
theorem retained_concat (window : ℕ) (recorded : List ℚ) (ms : ℚ) :
    retained window (recorded ++ [ms]) =
      if window < (retained window recorded ++ [ms]).length then
        (retained window recorded ++ [ms]).tail
      else retained window recorded ++ [ms] := by
  have hlength : (retained window recorded ++ [ms]).length =
      recorded.length - (recorded.length - window) + 1 := by
    rw [List.length_append, retained, List.length_drop, List.length_singleton]
  have hdrop : retained window recorded ++ [ms] =
      (recorded ++ [ms]).drop (recorded.length - window) := by
    rw [retained, List.drop_append_of_le_length (Nat.sub_le _ _)]
  rw [hlength, hdrop, List.tail_drop]
  split
  next hfull =>
    rw [retained, List.length_append, List.length_singleton]
    congr 1
    omega
  next hroom =>
    rw [retained, List.length_append, List.length_singleton]
    congr 1
    omega

/-- **The samples kept** after any sequence of calls. -/
theorem foldl_record (window : ℕ) (recorded : List ℚ) :
    recorded.foldl record (init window) = ⟨window, retained window recorded⟩ := by
  induction recorded using List.reverseRecOn with
  | nil =>
      rw [retained, List.drop_nil]
      rfl
  | append_singleton recorded ms ih =>
      rw [List.foldl_append, ih, retained_concat]
      rfl

/-! ## The percentile -/

/-- A sample with at least 99 percent of the samples at or below it. -/
def IsPercentile99 (samples : List ℚ) (v : ℚ) : Prop :=
  v ∈ samples ∧ 99 * samples.length ≤ 100 * samples.countP (· ≤ v)

instance (samples : List ℚ) (v : ℚ) : Decidable (IsPercentile99 samples v) :=
  inferInstanceAs (Decidable (_ ∧ _))

/-- The index rounds to no harm: there is one sample, or a multiple of a hundred, or the
sample below the cut is as large as the one above. -/
def HarmlessRounding (samples : List ℚ) : Prop :=
  samples.length = 1 ∨ 100 ∣ samples.length ∨
    orderStatistic samples (99 * samples.length / 100 - 1) =
      orderStatistic samples (99 * samples.length / 100)

variable {samples : List ℚ}

theorem p99Index_lt (h : samples ≠ []) : p99Index samples.length < samples.length := by
  have hpos : 0 < samples.length := List.length_pos_iff.mpr h
  unfold p99Index
  omega

/-- The value read is the sample of its rank. -/
theorem orderStatistic_p99Ms (window : ℕ) (h : samples ≠ []) :
    orderStatistic samples (p99Index samples.length) = some (p99Ms ⟨window, samples⟩) := by
  obtain ⟨v, hv⟩ := Option.isSome_iff_exists.mp (isSome_orderStatistic (p99Index_lt h))
  rw [p99Ms, if_neg h, hv]
  show some v = some ((orderStatistic samples (p99Index samples.length)).getD 0)
  rw [hv, Option.getD_some]

theorem isPercentile99_iff {v : ℚ} (hne : samples ≠ [])
    (hv : orderStatistic samples (p99Index samples.length) = some v) :
    IsPercentile99 samples v ↔ HarmlessRounding samples := by
  have hpos : 0 < samples.length := List.length_pos_iff.mpr hne
  have hcount : p99Index samples.length < samples.countP (· ≤ v) :=
    (lt_countP_iff hv v).mpr le_rfl
  have hmem : v ∈ samples := mem_of_orderStatistic hv
  by_cases heasy : samples.length = 1 ∨ 100 ∣ samples.length
  · refine iff_of_true ⟨hmem, ?_⟩ (heasy.imp_right Or.inl)
    unfold p99Index at hcount
    rcases heasy with hone | ⟨m, hm⟩
    · omega
    · omega
  · rw [not_or] at heasy
    obtain ⟨hone, hmultiple⟩ := heasy
    have hindex : p99Index samples.length = 99 * samples.length / 100 - 1 := by
      unfold p99Index
      omega
    rw [hindex] at hv
    have hrank : 99 * samples.length / 100 < samples.length := by omega
    obtain ⟨w, hw⟩ := Option.isSome_iff_exists.mp (isSome_orderStatistic hrank)
    -- The cut lies strictly between two ranks.
    have hcut : 99 * samples.length ≤ 100 * samples.countP (· ≤ v) ↔
        99 * samples.length / 100 < samples.countP (· ≤ v) := by
      omega
    have hle : v ≤ w := orderStatistic_mono hv hw (Nat.sub_le _ _)
    constructor
    · rintro ⟨-, hpercent⟩
      have hge : w ≤ v := (lt_countP_iff hw v).mp (hcut.mp hpercent)
      rw [HarmlessRounding, hv, hw, le_antisymm hle hge]
      exact .inr (.inr rfl)
    · rintro (h | h | h)
      · exact absurd h hone
      · exact absurd h hmultiple
      · rw [hv, hw, Option.some.injEq] at h
        exact ⟨hmem, hcut.mpr ((lt_countP_iff hw v).mpr h.ge)⟩

/-- **When `p99_ms` is a 99th percentile**: exactly when there is a sample and the index
rounds to no harm. -/
theorem p99Ms_isPercentile99_iff (window : ℕ) (recorded : List ℚ) :
    IsPercentile99 (retained window recorded) (recorded.foldl record (init window)).p99Ms ↔
      retained window recorded ≠ [] ∧ HarmlessRounding (retained window recorded) := by
  rw [foldl_record]
  by_cases hne : retained window recorded = []
  · refine iff_of_false ?_ (fun h => h.1 hne)
    rintro ⟨hmem, -⟩
    rw [hne] at hmem
    cases hmem
  · rw [isPercentile99_iff hne (orderStatistic_p99Ms window hne), and_iff_right hne]

/-- Of two samples the smaller is read. -/
theorem two_samples_fail :
    ([1, 2].foldl record (init 200)).p99Ms = 1 ∧
      ¬ IsPercentile99 (retained 200 [1, 2]) ([1, 2].foldl record (init 200)).p99Ms := by
  decide +kernel

end RollingLatency

end Timing
end AvaListener
