import AvaListener.Kernel.EngineSteps
import AvaListener.Matcher.AsciiText

/-!
# Duplicate suppression over whole runs

The wakes of a run are spaced by the cooldown and, when the generation counter
never decreases, belong to pairwise different generations.  Both are read off
`WakeEngine.step_gates` by induction over the run, the two gates being the whole
invariant.
-/

namespace AvaListener
namespace Kernel

open Library Config Matcher

/-- The `_on_hypothesis` calls of a run, in order. -/
def callsOf (inputs : List EngineInput) : List Call :=
  inputs.filterMap fun
    | .hypothesis c => some c
    | _ => none

@[simp] theorem callsOf_hypothesis (c : Call) (rest : List EngineInput) :
    callsOf (.hypothesis c :: rest) = c :: callsOf rest := rfl

theorem callsOf_cons_subset (input : EngineInput) (rest : List EngineInput) :
    callsOf rest ⊆ callsOf (input :: rest) := by
  intro c hc
  cases input with
  | hypothesis d => exact List.mem_cons_of_mem d hc
  | reconfigure m => exact hc
  | loadProfile wakePhrases => exact hc

namespace WakeEngine

variable (lib : TextLib)

/-- The `emit_wake` calls of a run, in order. -/
def wakeLog (s : WakeEngine) (inputs : List EngineInput) : List WakeEvent :=
  (trace (step lib) s inputs).filterMap fun answered => wakeOf answered.2

theorem wakeLog_cons (s : WakeEngine) (input : EngineInput) (rest : List EngineInput) :
    s.wakeLog lib (input :: rest) =
      (wakeOf (s.step lib input).2).toList ++ (s.step lib input).1.wakeLog lib rest := by
  cases hwake : wakeOf (s.step lib input).2 with
  | none => simp [wakeLog, hwake]
  | some w => simp [wakeLog, hwake]

/-- Every wake comes after the cooldown stamp the run started with, and any two
wakes are a cooldown apart. -/
theorem wakeLog_spaced (s : WakeEngine) (inputs : List EngineInput) :
    (∀ w ∈ s.wakeLog lib inputs, s.cooldown.lastTrigger + cooldownSeconds ≤ w.markedAt) ∧
      (s.wakeLog lib inputs).Pairwise fun a b => a.markedAt + cooldownSeconds ≤ b.markedAt := by
  induction inputs generalizing s with
  | nil => simp [wakeLog]
  | cons input rest ih =>
      obtain ⟨hafter, hspaced⟩ := ih (s.step lib input).1
      rw [wakeLog_cons]
      rcases step_gates lib s input with ⟨hnone, -, hcooldown⟩ |
        ⟨c, w, -, hwake, -, -, hopen, -, hcooldown⟩
      · rw [hcooldown] at hafter
        rw [hnone]
        exact ⟨hafter, hspaced⟩
      · rw [hcooldown] at hafter
        rw [hwake]
        have hpos : (0 : ℚ) ≤ cooldownSeconds := by norm_num [cooldownSeconds]
        refine ⟨?_, List.pairwise_cons.mpr ⟨hafter, hspaced⟩⟩
        intro v hv
        rcases List.mem_cons.mp hv with rfl | hv
        · exact hopen
        · have hlater := hafter v hv
          show s.cooldown.lastTrigger + cooldownSeconds ≤ v.markedAt
          have hlater' : w.markedAt + cooldownSeconds ≤ v.markedAt := hlater
          linarith

/-- With a generation counter that never decreases and has not fallen behind the
last trigger, the wakes have increasing generations. -/
theorem wakeLog_generations (s : WakeEngine) (inputs : List EngineInput)
    (hsorted : (callsOf inputs).Pairwise fun a b => a.generationId ≤ b.generationId)
    (hbound : ∀ c ∈ callsOf inputs, s.lastTriggerGeneration ≤ c.generationId) :
    (∀ w ∈ s.wakeLog lib inputs, s.lastTriggerGeneration < w.generationId) ∧
      (s.wakeLog lib inputs).Pairwise fun a b => a.generationId < b.generationId := by
  induction inputs generalizing s with
  | nil => simp [wakeLog]
  | cons input rest ih =>
      have hsub := callsOf_cons_subset input rest
      rw [wakeLog_cons]
      rcases step_gates lib s input with ⟨hnone, htrigger, -⟩ |
        ⟨c, w, rfl, hwake, hgeneration, hfresh, -, htrigger, -⟩
      · have hrest : (callsOf rest).Pairwise fun a b => a.generationId ≤ b.generationId := by
          cases input with
          | hypothesis d => exact (List.pairwise_cons.mp hsorted).2
          | reconfigure m => exact hsorted
          | loadProfile wakePhrases => exact hsorted
        obtain ⟨hafter, hincreasing⟩ := ih (s.step lib input).1 hrest (by
          intro d hd
          rw [htrigger]
          exact hbound d (hsub hd))
        rw [htrigger] at hafter
        rw [hnone]
        exact ⟨hafter, hincreasing⟩
      · rw [callsOf_hypothesis, List.pairwise_cons] at hsorted
        obtain ⟨hafter, hincreasing⟩ := ih (s.step lib (.hypothesis c)).1 hsorted.2 (by
          intro d hd
          rw [htrigger, hgeneration]
          exact_mod_cast hsorted.1 d hd)
        have hlast : s.lastTriggerGeneration < (w.generationId : ℤ) := by
          have hle := hbound c (List.mem_cons_self ..)
          rw [hgeneration]
          omega
        rw [htrigger] at hafter
        rw [hwake]
        refine ⟨?_, List.pairwise_cons.mpr ⟨?_, hincreasing⟩⟩
        · intro v hv
          rcases List.mem_cons.mp hv with rfl | hv
          · exact hlast
          · have hlater := hafter v hv
            omega
        · intro v hv
          exact_mod_cast hafter v hv

/-- **One wake per generation, a cooldown between wakes.**  In every run of a new
engine whose generation counter never decreases, whatever the hypotheses, profile
loads, registry changes and clock readings, no two wakes share a generation and
consecutive wakes are marked at least `COOLDOWN_SECONDS` apart. -/
theorem wakes_once_per_generation_and_spaced (m : MatcherState) (inputs : List EngineInput)
    (hsorted : (callsOf inputs).Pairwise fun a b => a.generationId ≤ b.generationId) :
    (((init m).wakeLog lib inputs).map (·.generationId)).Nodup ∧
      ((init m).wakeLog lib inputs).IsChain fun a b =>
        a.markedAt + cooldownSeconds ≤ b.markedAt := by
  have hstart : ∀ c ∈ callsOf inputs, (init m).lastTriggerGeneration ≤ c.generationId := by
    intro c _
    show (-1 : ℤ) ≤ c.generationId
    omega
  constructor
  · rw [List.nodup_iff_pairwise_ne, List.pairwise_map]
    exact (wakeLog_generations lib (init m) inputs hsorted hstart).2.imp fun h => h.ne
  · exact (wakeLog_spaced lib (init m) inputs).2.isChain

/-- Two utterances, the second one first inside and then past the cooldown. -/
def twoUtterances : List EngineInput :=
  [.loadProfile AsciiText.customWakePhrases,
    .hypothesis (.still "hey assistant".toList 2 1 10),
    .hypothesis (.still "hey assistant".toList 3 1 11),
    .hypothesis (.still "hey assistant".toList 2 2 11.5),
    .hypothesis (.still "hey assistant".toList 3 2 13)]

theorem twoUtterances_wake_once :
    (((init .empty).wakeLog AsciiText.lib twoUtterances).map (·.generationId) = [1, 2]) ∧
      (((init .empty).wakeLog AsciiText.lib twoUtterances).map (·.generationId)).Nodup ∧
      ((init .empty).wakeLog AsciiText.lib twoUtterances).IsChain fun a b =>
        a.markedAt + cooldownSeconds ≤ b.markedAt :=
  ⟨by decide +kernel,
    wakes_once_per_generation_and_spaced AsciiText.lib .empty twoUtterances (by decide)⟩

end WakeEngine

end Kernel
end AvaListener
