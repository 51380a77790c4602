import AvaListener.Library.OrderedDict
import AvaListener.Library.PyText
import AvaListener.Library.WeightedBudget
import Mathlib.Data.Rat.Defs
import Mathlib.Algebra.Order.Ring.Rat
import Mathlib.Data.Fintype.Sets

/-!
# The health score

`runtime/health/signals.py` and `runtime/health/scorer.py` in exact arithmetic: six metrics
are normalised to pressures and taken off a score of one with their weights.

A metrics dictionary has numbers and `None` for values, under whatever keys.
-/

namespace AvaListener
namespace Health

open Library

/-! ## Signals -/

/-- The keys of `HEALTH_SIGNAL_MAP`. -/
inductive Signal where
  | queueOverruns
  | vadLag
  | memoryPressure
  | restartFrequency
  | transportLatency
  | droppedWakeCandidates
  deriving DecidableEq

instance : Fintype Signal where
  elems := {.queueOverruns, .vadLag, .memoryPressure, .restartFrequency, .transportLatency,
    .droppedWakeCandidates}
  complete sig := by cases sig <;> decide

/-- `_clamp`. -/
def clamp (v : ℚ) : ℚ := clampUnit v

/-- `v or 0.0`. -/
def orZero (v : ℚ) : ℚ := if v = 0 then 0 else v

structure SignalDefinition where
  metricKey : Text
  normalizer : ℚ → ℚ

/-- `HEALTH_SIGNAL_MAP`. -/
def healthSignalMap : Signal → SignalDefinition
  | .queueOverruns => ⟨"queue_depth".toList, fun v => clamp (v / 100)⟩
  | .vadLag => ⟨"reset_count".toList, fun v => clamp (v / 20)⟩
  | .memoryPressure => ⟨"memory_usage_mb".toList, fun v => clamp (orZero v / 2048)⟩
  | .restartFrequency => ⟨"restart_count".toList, fun v => clamp (v / 5)⟩
  | .transportLatency => ⟨"transport_latency_ms".toList, fun v => clamp (orZero v / 500)⟩
  | .droppedWakeCandidates => ⟨"telemetry_drop_count".toList, fun v => clamp (v / 500)⟩

structure HealthSignals where
  queueOverruns : ℚ
  vadLag : ℚ
  memoryPressure : ℚ
  restartFrequency : ℚ
  transportLatency : ℚ
  droppedWakeCandidates : ℚ

/-- `to_dict`, at a key. -/
def HealthSignals.toDict (s : HealthSignals) : Signal → ℚ
  | .queueOverruns => s.queueOverruns
  | .vadLag => s.vadLag
  | .memoryPressure => s.memoryPressure
  | .restartFrequency => s.restartFrequency
  | .transportLatency => s.transportLatency
  | .droppedWakeCandidates => s.droppedWakeCandidates

abbrev Metrics : Type := Dict Text (Option ℚ)

/-- `metrics.get(sig.metric_key, 0) or 0`. -/
def Metrics.raw (metrics : Metrics) (sig : Signal) : ℚ :=
  ((metrics.get? (healthSignalMap sig).metricKey).join.map orZero).getD 0

/-- `apply` of `compute_signals`. -/
def Metrics.apply (metrics : Metrics) (sig : Signal) : ℚ :=
  (healthSignalMap sig).normalizer (metrics.raw sig)

def computeSignals (metrics : Metrics) : HealthSignals where
  queueOverruns := metrics.apply .queueOverruns
  vadLag := metrics.apply .vadLag
  memoryPressure := metrics.apply .memoryPressure
  restartFrequency := metrics.apply .restartFrequency
  transportLatency := metrics.apply .transportLatency
  droppedWakeCandidates := metrics.apply .droppedWakeCandidates

/-! ## The score -/

/-- `SIGNAL_WEIGHTS`. -/
def signalWeights : List (Signal × ℚ) :=
  [(.queueOverruns, 0.20), (.vadLag, 0.15), (.memoryPressure, 0.20), (.restartFrequency, 0.25),
    (.transportLatency, 0.10), (.droppedWakeCandidates, 0.10)]

def computeHealthScore (signals : HealthSignals) : ℚ :=
  let penalty := signalWeights.foldl
    (fun penalty e => penalty + min (signals.toDict e.1 * e.2) e.2) 0
  max 0 (min 1 (1 - penalty))

def scoreFromMetrics (metrics : Metrics) : ℚ :=
  computeHealthScore (computeSignals metrics)

/-! ## Pressures -/

/-- Where the pressure of the signal is full. -/
def Signal.saturation : Signal → ℚ
  | .queueOverruns => 100
  | .vadLag => 20
  | .memoryPressure => 2048
  | .restartFrequency => 5
  | .transportLatency => 500
  | .droppedWakeCandidates => 500

/-- The weight of the signal. -/
def Signal.weight : Signal → ℚ
  | .queueOverruns => 0.20
  | .vadLag => 0.15
  | .memoryPressure => 0.20
  | .restartFrequency => 0.25
  | .transportLatency => 0.10
  | .droppedWakeCandidates => 0.10

theorem Signal.saturation_pos (sig : Signal) : 0 < sig.saturation := by
  cases sig <;> decide +kernel

theorem Signal.weight_pos (sig : Signal) : 0 < sig.weight := by
  cases sig <;> decide +kernel

theorem Signal.sum_weight : ∑ sig, Signal.weight sig = 1 := by
  decide +kernel

@[simp] theorem orZero_eq (v : ℚ) : orZero v = v := by
  unfold orZero
  split
  next hzero => exact hzero.symm
  · rfl

/-- Every normalizer is the ratio to the saturation value, clamped. -/
theorem toDict_computeSignals (metrics : Metrics) (sig : Signal) :
    (computeSignals metrics).toDict sig = clampUnit (metrics.raw sig / sig.saturation) := by
  cases sig with
  | memoryPressure =>
      show clamp (orZero _ / 2048) = _
      rw [orZero_eq]
      rfl
  | transportLatency =>
      show clamp (orZero _ / 500) = _
      rw [orZero_eq]
      rfl
  | _ => rfl

theorem pressure_nonneg (metrics : Metrics) (sig : Signal) :
    0 ≤ (computeSignals metrics).toDict sig := by
  rw [toDict_computeSignals]
  exact clampUnit_nonneg _

theorem pressure_le_one (metrics : Metrics) (sig : Signal) :
    (computeSignals metrics).toDict sig ≤ 1 := by
  rw [toDict_computeSignals]
  exact clampUnit_le_one _

theorem pressure_eq_zero_iff (metrics : Metrics) (sig : Signal) :
    (computeSignals metrics).toDict sig = 0 ↔ metrics.raw sig ≤ 0 := by
  rw [toDict_computeSignals, clampUnit_eq_zero_iff, div_le_iff₀ sig.saturation_pos, zero_mul]

theorem pressure_eq_one_iff (metrics : Metrics) (sig : Signal) :
    (computeSignals metrics).toDict sig = 1 ↔ sig.saturation ≤ metrics.raw sig := by
  rw [toDict_computeSignals, clampUnit_eq_one_iff, le_div_iff₀ sig.saturation_pos, one_mul]

/-- What is read of a metric: its value, or zero where it is missing or `None`. -/
theorem raw_eq (metrics : Metrics) (sig : Signal) :
    metrics.raw sig = (metrics.get? (healthSignalMap sig).metricKey).join.getD 0 := by
  unfold Metrics.raw
  cases (metrics.get? (healthSignalMap sig).metricKey).join with
  | none => rfl
  | some v => exact orZero_eq v

theorem raw_nonpos_iff (metrics : Metrics) (sig : Signal) :
    metrics.raw sig ≤ 0 ↔
      ∀ v, metrics.get? (healthSignalMap sig).metricKey = some (some v) → v ≤ 0 := by
  rw [raw_eq]
  cases metrics.get? (healthSignalMap sig).metricKey with
  | none => simp
  | some value =>
      cases value with
      | none => simp
      | some v => simp

/-- A saturated metric is there and is a number. -/
theorem saturation_le_raw_iff (metrics : Metrics) (sig : Signal) :
    sig.saturation ≤ metrics.raw sig ↔
      ∃ v, metrics.get? (healthSignalMap sig).metricKey = some (some v) ∧ sig.saturation ≤ v := by
  have hzero : ¬ sig.saturation ≤ 0 := not_le.mpr sig.saturation_pos
  rw [raw_eq]
  cases metrics.get? (healthSignalMap sig).metricKey with
  | none => simp [hzero]
  | some value =>
      cases value with
      | none => simp [hzero]
      | some v => simp

/-! ## The score is a budget -/

theorem sum_signals (f : Signal → ℚ) : ∑ sig, f sig =
    f .queueOverruns + (f .vadLag + (f .memoryPressure + (f .restartFrequency +
      (f .transportLatency + (f .droppedWakeCandidates + 0))))) := rfl

/-- Every term of the penalty is the weight times the pressure. -/
theorem penalty_eq (signals : HealthSignals) (h : ∀ sig, signals.toDict sig ≤ 1) :
    signalWeights.foldl (fun penalty e => penalty + min (signals.toDict e.1 * e.2) e.2) 0 =
      ∑ sig, sig.weight * signals.toDict sig := by
  have hterm : ∀ sig : Signal,
      min (signals.toDict sig * sig.weight) sig.weight = sig.weight * signals.toDict sig := by
    intro sig
    rw [min_eq_left (mul_le_of_le_one_left sig.weight_pos.le (h sig)), mul_comm]
  rw [sum_signals]
  simp only [← hterm]
  simp only [signalWeights, List.foldl_cons, List.foldl_nil, Signal.weight, zero_add, add_zero,
    add_assoc]

theorem scoreFromMetrics_eq (metrics : Metrics) :
    scoreFromMetrics metrics = remaining Signal.weight (computeSignals metrics).toDict := by
  have hle := remaining_le_one Signal.weight_pos (pressure_nonneg metrics)
  have hnonneg := remaining_nonneg Signal.sum_weight Signal.weight_pos (pressure_le_one metrics)
  show clampUnit (1 - _) = _
  rw [penalty_eq _ (pressure_le_one metrics)]
  exact clampUnit_eq_self hnonneg hle

/-- **Health scores.**  They lie between zero and one and fall as the metrics rise; one is the
score without any pressure, zero the score with every metric saturated. -/
theorem scoreFromMetrics_contract :
    (∀ metrics, 0 ≤ scoreFromMetrics metrics ∧ scoreFromMetrics metrics ≤ 1) ∧
      (∀ metrics metrics' : Metrics, (∀ sig, metrics.raw sig ≤ metrics'.raw sig) →
        scoreFromMetrics metrics' ≤ scoreFromMetrics metrics) ∧
      (∀ metrics, scoreFromMetrics metrics = 1 ↔
        ∀ sig v, metrics.get? (healthSignalMap sig).metricKey = some (some v) → v ≤ 0) ∧
      ∀ metrics, scoreFromMetrics metrics = 0 ↔
        ∀ sig, ∃ v, metrics.get? (healthSignalMap sig).metricKey = some (some v) ∧
          sig.saturation ≤ v := by
  refine ⟨fun metrics => ?_, fun metrics metrics' h => ?_, fun metrics => ?_, fun metrics => ?_⟩
  · rw [scoreFromMetrics_eq]
    exact ⟨remaining_nonneg Signal.sum_weight Signal.weight_pos (pressure_le_one metrics),
      remaining_le_one Signal.weight_pos (pressure_nonneg metrics)⟩
  · rw [scoreFromMetrics_eq, scoreFromMetrics_eq]
    refine remaining_anti Signal.weight_pos fun sig => ?_
    rw [toDict_computeSignals, toDict_computeSignals]
    exact clampUnit_mono (div_le_div_of_nonneg_right (h sig) sig.saturation_pos.le)
  · rw [scoreFromMetrics_eq, remaining_eq_one_iff Signal.weight_pos (pressure_nonneg metrics)]
    refine forall_congr' fun sig => ?_
    rw [pressure_eq_zero_iff, raw_nonpos_iff]
  · rw [scoreFromMetrics_eq, remaining_eq_zero_iff Signal.sum_weight Signal.weight_pos
      (pressure_le_one metrics)]
    refine forall_congr' fun sig => ?_
    rw [pressure_eq_one_iff, saturation_le_raw_iff]

end Health
end AvaListener
