import Mathlib.Data.Rat.Defs

/-!
# Central configuration

The tunables of `runtime/config/defaults.py` that the modelled functions read.
Scores, confidences and clock readings are exact rationals.
-/

namespace AvaListener
namespace Config

/-! ## ASR and audio -/

/-- Silent chunks fed to the recogniser after the VAD gates off. -/
def trailingPadFrames : ℕ := 2

/-- Consecutive speech-positive chunks before speech is confirmed. -/
def minSpeechFrames : ℕ := 3

/-- Consecutive silent chunks before speech ends. -/
def minSilenceFrames : ℕ := 8

/-- Seconds between two silence-driven stream resets. -/
def resetCooldownSeconds : ℚ := 15

/-- `maxlen` of the worker's pre-roll deque. -/
def preBufferLen : ℕ := 5

/-! ## Matching -/

def jaroThreshold : ℚ := 0.82
def fuzzyThreshold : ℚ := 65
def requireFullPhrase : Bool := true
def allowPrefixMatching : Bool := false

/-! ## Confidence -/

/-- Fallback trigger threshold. -/
def defaultThreshold : ℚ := 0.78

/-- Width of the rolling hypothesis window, in seconds. -/
def windowSeconds : ℚ := 3.5

def weightMatch : ℚ := 0.65
def weightContext : ℚ := 0.20
def weightStability : ℚ := 0.15
def emaRiseAlpha : ℚ := 0.70
def emaDecayAlpha : ℚ := 0.30
def stabilityCap : ℕ := 12

/-- Hard block after any trigger, in seconds. -/
def cooldownSeconds : ℚ := 2

/-! ## Phrase arbitration -/

inductive PhrasePriorityMode where
  | longest
  | score
  | canonical
  deriving DecidableEq, Repr

def phrasePriorityMode : PhrasePriorityMode := .longest

end Config
end AvaListener
