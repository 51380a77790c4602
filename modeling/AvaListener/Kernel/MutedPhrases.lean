import AvaListener.Kernel.WakeEvidence

/-!
# Muted phrases and wakes

A disabled entry keeps its variants in the index, and `best_match` appends the
canonical phrase of the longest variant found to the phrases it scores.  So a
muted phrase can be answered, and woken on, only where the longest registered
variant that the window holds is one of its own (`FindsMuted`).
-/

namespace AvaListener
namespace Kernel

open Library Config Matcher

namespace WakeEngine

variable (lib : TextLib)

/-- A wake of a run names a phrase. -/
theorem wake_phrase_ne_nil (m : MatcherState) (past : List EngineInput) (c : Call) (w : WakeEvent)
    (hwake : wakeOf ((finalState (WakeEngine.step lib) (init m) past).onHypothesis lib c).2 =
      some w) :
    w.phrase ≠ [] := by
  obtain ⟨-, htriggers, rfl⟩ := (wakeOf_onHypothesis_eq_some_iff lib _ c).mp hwake
  exact ((emaBacked_run lib m past).of_triggers htriggers).1

/-- The longest registered variant in the window belongs to a phrase that is not
active. -/
def FindsMuted (m : MatcherState) (window : List Hypothesis) : Prop :=
  let variant := findMatchedVariant lib m (buildWeightedText lib window) window
  variant ≠ [] ∧ ∃ canonical, m.getCanonical lib variant = some canonical ∧
    canonical ≠ [] ∧ canonical ∉ m.getActivePhrases

theorem findsMuted_iff (m : MatcherState) (window : List Hypothesis) :
    FindsMuted lib m window ↔
      (matchContext lib m window).canonicalCandidate ≠ [] ∧
        (matchContext lib m window).canonicalCandidate ∉ m.getActivePhrases := by
  simp only [FindsMuted, matchContext]
  by_cases hvariant : findMatchedVariant lib m (buildWeightedText lib window) window = []
  · simp [hvariant]
  · cases hget : m.getCanonical lib
        (findMatchedVariant lib m (buildWeightedText lib window) window) with
    | none => simp [hvariant]
    | some canonical => simp [hvariant]

instance (m : MatcherState) (window : List Hypothesis) : Decidable (FindsMuted lib m window) :=
  decidable_of_iff _ (findsMuted_iff lib m window).symm

/-- A phrase outside the active list is scored exactly where it owns that variant. -/
theorem findsMuted_iff_scored (m : MatcherState) (window : List Hypothesis) :
    FindsMuted lib m window ↔
      ∃ p ∈ phrasesToScore m (matchContext lib m window), p ∉ m.getActivePhrases := by
  rw [findsMuted_iff]
  constructor
  · intro hmuted
    exact ⟨_, mem_phrasesToScore.mpr (Or.inr ⟨hmuted.1, rfl⟩), hmuted.2⟩
  · rintro ⟨p, hp, hinactive⟩
    obtain ⟨hne, rfl⟩ := (mem_phrasesToScore.mp hp).resolve_left hinactive
    exact ⟨hne, hinactive⟩

/-- Without such a variant no muted phrase wins. -/
theorem bestMatch_enabled {m : MatcherState} {window : List Hypothesis}
    (h : ¬ FindsMuted lib m window) :
    (bestMatch lib m window).phrase = [] ∨
      m.registry.PhraseEnabled (bestMatch lib m window).phrase := by
  rw [bestMatch_enabled_iff]
  rintro ⟨-, hne, hinactive, -⟩
  exact h ((findsMuted_iff lib m window).mpr ⟨hne, hinactive⟩)

/-- The core phrase of `profiles/arvsal.json`. -/
def arvsalEntry : PhraseEntry where
  phraseId := "arvsal_core".toList
  phrase := "arvsal".toList
  variants := ["arvsal".toList, "arsal".toList, "arv sal".toList]
  threshold := 0.72

/-- Two phrases are loaded, `arvsal` is disabled, and the index is rebuilt. -/
def mutedArvsal : MatcherState :=
  match MatcherState.empty.loadPhrases AsciiText.lib
      (AsciiText.customWakePhrases ++ [arvsalEntry]) with
  | .ok m =>
      ({ m with registry := m.registry.disablePhrase "arvsal_core".toList }).rebuildIndex
        AsciiText.lib
  | .error _ => .empty

end WakeEngine

end Kernel
end AvaListener
