import AvaListener.Library.Rounding
import AvaListener.Library.SlidingWindow

/-!
# The restart and recovery policies

`runtime/supervisor/restart_policy.py`: the sliding window that throttles
restarts, and the table of escalating recovery steps with its failure counter.

Clock readings are doubles, and so is the difference of two: the age of a stamp is
rounded before it is compared with the window.
-/

namespace AvaListener
namespace Supervision

open Library

/-! ## The throttle -/

structure RestartPolicy where
  maxRestarts : ℤ
  windowS : ℚ
  /-- `_timestamps`, the oldest in front. -/
  timestamps : List ℚ
  deriving DecidableEq

namespace RestartPolicy

/-- `RestartPolicy(max_restarts, window_s)`. -/
def create (maxRestarts : ℤ) (windowS : ℚ) : RestartPolicy := ⟨maxRestarts, windowS, []⟩

/-- `RestartPolicy()`. -/
def default : RestartPolicy := create 5 60

/-- `(now - t) > window_s`. -/
def stale (p : RestartPolicy) (now t : ℚ) : Bool := binary64 p.windowS < binary64 (now - t)

/-- The loop that both methods share: drop what is older than the window. -/
def prune (p : RestartPolicy) (now : ℚ) : RestartPolicy :=
  { p with timestamps := p.timestamps.dropWhile (p.stale now) }

def recordRestart (p : RestartPolicy) (now : ℚ) : RestartPolicy :=
  { p with timestamps := p.timestamps ++ [now] }.prune now

/-- `can_restart` answers and prunes. -/
def canRestart (p : RestartPolicy) (now : ℚ) : Bool × RestartPolicy :=
  (decide (((p.prune now).timestamps.length : ℤ) < p.maxRestarts), p.prune now)

/-- Rounding makes no stamp stale that is not. -/
theorem lt_of_stale {p : RestartPolicy} {now t : ℚ} (h : p.stale now t = true) :
    p.windowS < now - t := by
  by_contra hle
  exact (of_decide_eq_true h).not_ge (binary64_mono (not_lt.mp hle))

theorem ages_stale (p : RestartPolicy) : Ages p.stale where
  later hle h := decide_eq_true
    ((of_decide_eq_true h).trans_le (binary64_mono (sub_le_sub_right hle _)))
  older hle h := decide_eq_true
    ((of_decide_eq_true h).trans_le (binary64_mono (sub_le_sub_left hle _)))

theorem length_prune_le (p : RestartPolicy) (now : ℚ) :
    (p.prune now).timestamps.length ≤ p.timestamps.length :=
  (List.dropWhile_sublist _).length_le

theorem length_recordRestart_le (p : RestartPolicy) (now : ℚ) :
    (p.recordRestart now).timestamps.length ≤ p.timestamps.length + 1 := by
  have h := length_prune_le { p with timestamps := p.timestamps ++ [now] } now
  simpa [recordRestart] using h

/-- Few recorded restarts are never throttled. -/
theorem canRestart_of_length_lt {p : RestartPolicy} {now : ℚ}
    (h : (p.timestamps.length : ℤ) < p.maxRestarts) : (p.canRestart now).1 = true := by
  have hle : ((p.prune now).timestamps.length : ℤ) ≤ p.timestamps.length :=
    Int.ofNat_le.mpr (p.length_prune_le now)
  exact decide_eq_true (lt_of_le_of_lt hle h)

end RestartPolicy

/-! ## The escalation -/

inductive RecoveryStep where
  | workerRestart
  | providerReload
  | runtimeRestart
  | degradedMode
  | fatal
  deriving DecidableEq, Repr

namespace RecoveryStep

/-- The place of a step in `STEPS`. -/
def level : RecoveryStep → ℕ
  | workerRestart => 0
  | providerReload => 1
  | runtimeRestart => 2
  | degradedMode => 3
  | fatal => 4

end RecoveryStep

structure RecoveryPolicy where
  failures : ℕ
  deriving DecidableEq

namespace RecoveryPolicy

/-- `STEPS`. -/
def steps : List RecoveryStep :=
  [.workerRestart, .providerReload, .runtimeRestart, .degradedMode, .fatal]

/-- `BACKOFF_MS`. -/
def backoffMs : List ℕ := [1000, 2000, 4000, 8000, 16000]

def create : RecoveryPolicy := ⟨0⟩

def recordFailure (p : RecoveryPolicy) : RecoveryPolicy :=
  ⟨min (p.failures + 1) steps.length⟩

def reset (_ : RecoveryPolicy) : RecoveryPolicy := ⟨0⟩

def currentStep (p : RecoveryPolicy) : RecoveryStep :=
  steps.getD (min (p.failures - 1) (steps.length - 1)) .fatal

def nextBackoffMs (p : RecoveryPolicy) : ℕ :=
  backoffMs.getD (min (p.failures - 1) (backoffMs.length - 1)) 16000

/-- The table's places are the levels: the `k`-th failure in a row asks for the
`k`-th step. -/
theorem level_currentStep (p : RecoveryPolicy) :
    p.currentStep.level = min (p.failures - 1) 4 := by
  have hplaces : ∀ k ≤ 4, (steps.getD k .fatal).level = k := by decide
  exact hplaces _ (Nat.min_le_right ..)

end RecoveryPolicy

end Supervision
end AvaListener
