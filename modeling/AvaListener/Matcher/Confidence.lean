import Mathlib.Tactic.Linarith
import Mathlib.Tactic.NormNum
import AvaListener.Matcher.Evaluator

/-!
# Confidence and cooldown

`runtime/matcher/scorers/phonetic.py` and `runtime/matcher/cooldown.py`.
-/

namespace AvaListener
namespace Matcher

open Config

/-- `compute_confidence`: eighty percent match score plus a bonus of up to
twenty percent for sustained matching, capped at one. -/
def computeConfidence (matchScore : ℚ) (windowSize hitCount : ℕ) : ℚ :=
  let repeatRate : ℚ := hitCount / max windowSize 3
  let repeatBonus := min repeatRate 1 * 0.20
  min (matchScore * 0.80 + repeatBonus) 1

theorem computeConfidence_le_one (matchScore : ℚ) (windowSize hitCount : ℕ) :
    computeConfidence matchScore windowSize hitCount ≤ 1 :=
  min_le_right _ _

/-- Without a match score only the bonus is left. -/
theorem computeConfidence_zero_le (windowSize hitCount : ℕ) :
    computeConfidence 0 windowSize hitCount ≤ 0.20 := by
  have hbonus : min ((hitCount : ℚ) / max windowSize 3) 1 * 0.20 ≤ 1 * 0.20 :=
    mul_le_mul_of_nonneg_right (min_le_right _ _) (by norm_num)
  refine (min_le_left _ _).trans ?_
  linarith

@[simp] theorem computeConfidence_zero_zero (windowSize : ℕ) :
    computeConfidence 0 windowSize 0 = 0 := by
  simp [computeConfidence]

/-- `CooldownGate`. -/
structure CooldownGate where
  lastTrigger : ℚ
  deriving DecidableEq

namespace CooldownGate

def init : CooldownGate := ⟨0⟩

/-- Enough time has passed since the last trigger. -/
def canTrigger (g : CooldownGate) (now : ℚ) : Bool :=
  cooldownSeconds ≤ now - g.lastTrigger

def markTriggered (_ : CooldownGate) (now : ℚ) : CooldownGate := ⟨now⟩

theorem canTrigger_iff (g : CooldownGate) (now : ℚ) :
    g.canTrigger now = true ↔ g.lastTrigger + cooldownSeconds ≤ now := by
  rw [canTrigger, decide_eq_true_eq]
  constructor <;> intro h <;> linarith

end CooldownGate

end Matcher
end AvaListener
