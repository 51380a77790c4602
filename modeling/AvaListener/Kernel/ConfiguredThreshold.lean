import Mathlib.Data.Option.Basic
import AvaListener.Kernel.WakeEvidence

/-!
# Configured trigger thresholds

Each registered phrase carries a trigger threshold, but `_get_threshold` answers
`DEFAULT_THRESHOLD` for every phrase.  The trigger gate is therefore the
configured one for the phrases that are configured with that value, and for no
others.
-/

namespace AvaListener
namespace Kernel

open Library Config Matcher

namespace WakeEngine

variable (lib : TextLib)

/-- The generation gate and the cooldown gate. -/
def GatesOpen (s : WakeEngine) (c : Call) : Prop :=
  (c.generationId : ℤ) ≠ s.lastTriggerGeneration ∧
    s.cooldown.canTrigger c.clock.cooldownCheck = true

instance (s : WakeEngine) (c : Call) : Decidable (s.GatesOpen c) :=
  inferInstanceAs (Decidable (_ ∧ _))

/-- If the call reports a phrase, that phrase has a configured threshold, and a
wake for it is emitted exactly when the gates are open and that threshold is
reached. -/
def HonoursConfigured (s : WakeEngine) (c : Call) : Prop :=
  (s.observe lib c).result.phrase ≠ [] →
    ∃ t ∈ s.matcher.registry.configuredThreshold (s.observe lib c).result.phrase,
      (wakeOf (s.onHypothesis lib c).2).map (·.phrase) = some (s.observe lib c).result.phrase ↔
        s.GatesOpen c ∧ (t ≤ s.smoothedConf c (s.observe lib c) ∨
          t + 0.08 ≤ (s.observe lib c).rawConf)

instance (s : WakeEngine) (c : Call) : Decidable (s.HonoursConfigured lib c) :=
  inferInstanceAs (Decidable (_ → _))

/-- A wake always carries the phrase the call reported. -/
theorem wakeOf_map_phrase_iff (s : WakeEngine) (c : Call) (hpaused : s.detectionPaused = false) :
    (wakeOf (s.onHypothesis lib c).2).map (·.phrase) = some (s.observe lib c).result.phrase ↔
      s.Triggers lib c := by
  by_cases htriggers : s.Triggers lib c
  · simp [onHypothesis_fired lib s c hpaused htriggers, htriggers, wakeEvent]
  · simp [onHypothesis_quiet lib s c hpaused htriggers, htriggers]

/-- One call of an engine that is not paused, if it reports a phrase that is
configured with `DEFAULT_THRESHOLD`. -/
theorem honoursConfigured_of_default {s : WakeEngine} {c : Call}
    (hpaused : s.detectionPaused = false)
    (hdefault : s.matcher.registry.configuredThreshold (s.observe lib c).result.phrase =
      some defaultThreshold) : s.HonoursConfigured lib c := by
  intro _
  refine ⟨defaultThreshold, hdefault, ?_⟩
  rw [wakeOf_map_phrase_iff lib s c hpaused, Triggers, confident_iff, GatesOpen, or_comm, and_comm]

/-- The trigger gate is that of threshold `t` exactly for the default one: at
`DEFAULT_THRESHOLD` and at `t` itself the two would part. -/
theorem confident_gate_iff (phrase : Text) (t : ℚ) :
    (∀ raw smooth : ℚ, confident phrase raw smooth = true ↔ t ≤ smooth ∨ t + 0.08 ≤ raw) ↔
      t = defaultThreshold := by
  simp only [confident_iff]
  constructor
  · intro hgate
    refine le_antisymm ?_ ?_
    · have hreached := (hgate 0 defaultThreshold).mp (Or.inr le_rfl)
      rcases hreached with hle | hle
      · exact hle
      · norm_num [defaultThreshold] at hle ⊢
        linarith
    · have hreached := (hgate (t - 1) t).mpr (Or.inl le_rfl)
      rcases hreached with hle | hle
      · linarith
      · exact hle
  · rintro rfl raw smooth
    exact or_comm

/-- **Configured thresholds.**  After a profile load, every phrase that a call of a
run reports has a configured threshold, and if that is `DEFAULT_THRESHOLD`, the
call wakes as it asks for.  For no other configured value is the trigger gate of
the code the gate of that value. -/
theorem configured_threshold_honoured {m₀ m : MatcherState} {wakePhrases : List PhraseEntry}
    (hload : m₀.loadPhrases lib wakePhrases = .ok m) :
    (∀ calls : List Call, ∀ v ∈ visits (fun s c => s.onHypothesis lib c) (init m) calls,
      ∀ p, (v.1.observe lib v.2).result.phrase = p → p ≠ [] →
        ∃ t, m.registry.configuredThreshold p = some t ∧
          (t = defaultThreshold → v.1.HonoursConfigured lib v.2)) ∧
    ∀ p t, m.registry.configuredThreshold p = some t →
      ((∀ raw smooth : ℚ, confident p raw smooth = true ↔ t ≤ smooth ∨ t + 0.08 ≤ raw) ↔
        t = defaultThreshold) := by
  refine ⟨?_, fun p t _ => confident_gate_iff p t⟩
  intro calls v hv p hreported hphrase
  have hvisit : ∀ v ∈ visits (fun s c => s.onHypothesis lib c) (init m) calls,
      (v.1.matcher = m ∧ v.1.detectionPaused = false) ∧ v.2 ∈ calls := by
    refine visits_invariant _ (fun s : WakeEngine => s.matcher = m ∧ s.detectionPaused = false)
      calls ⟨rfl, rfl⟩ ?_
    intro s c _ hs
    obtain ⟨hmatcher, hpaused⟩ := onHypothesis_keeps lib s c
    exact ⟨hmatcher.trans hs.1, hpaused.trans hs.2⟩
  obtain ⟨⟨hmatcher, hpaused⟩, -⟩ := hvisit v hv
  subst hreported
  have hsync := MatcherState.loadPhrases_inSync hload
  rw [← hmatcher] at hsync ⊢
  obtain ⟨t, ht⟩ :=
    PhraseRegistry.exists_configuredThreshold (bestMatch_phrase_registered lib hsync hphrase)
  refine ⟨t, ht, ?_⟩
  rintro rfl
  exact honoursConfigured_of_default lib hpaused ht

/-- The registry and index after `profiles/custom.json`, whose phrase is
configured with `0.72`. -/
def customMatcher : MatcherState :=
  match MatcherState.empty.loadPhrases AsciiText.lib AsciiText.customWakePhrases with
  | .ok m => m
  | .error _ => .empty

theorem customMatcher_loaded :
    MatcherState.empty.loadPhrases AsciiText.lib AsciiText.customWakePhrases =
      .ok customMatcher := by
  decide +kernel

/-- Three partial hypotheses of one utterance. -/
def threePartials : List Call :=
  [.still "hey assistant".toList 0 1 10, .still "hey assistant".toList 0 1 10.1,
    .still "hey assistant".toList 0 1 10.2]

/-- The profile with `DEFAULT_THRESHOLD` for its phrase instead. -/
def defaultWakePhrases : List PhraseEntry :=
  AsciiText.customWakePhrases.map fun entry => { entry with threshold := 0.78 }

def defaultMatcher : MatcherState :=
  match MatcherState.empty.loadPhrases AsciiText.lib defaultWakePhrases with
  | .ok m => m
  | .error _ => .empty

/-- With that profile the three partials are woken on as configured; with the shipped
one the gate is another. -/
theorem threePartials_default_honoured :
    (∀ v ∈ visits (fun s c => s.onHypothesis AsciiText.lib c) (init defaultMatcher) threePartials,
        v.1.HonoursConfigured AsciiText.lib v.2) ∧
      ¬ ∀ raw smooth : ℚ, confident "hey assistant".toList raw smooth = true ↔
        0.72 ≤ smooth ∨ 0.72 + 0.08 ≤ raw := by
  have hload : MatcherState.empty.loadPhrases AsciiText.lib defaultWakePhrases =
      .ok defaultMatcher := by decide +kernel
  constructor
  · intro v hv
    by_cases hphrase : (v.1.observe AsciiText.lib v.2).result.phrase = []
    · exact fun hne => absurd hphrase hne
    · obtain ⟨t, ht, hhonours⟩ := (configured_threshold_honoured AsciiText.lib hload).1
        threePartials v hv _ rfl hphrase
      have hregistry : ∀ cfg ∈ defaultMatcher.registry.getAll,
          cfg.threshold = defaultThreshold := by
        decide +kernel
      obtain ⟨cfg, hcfg, rfl⟩ := Option.map_eq_some_iff.mp ht
      exact hhonours (hregistry cfg (List.mem_reverse.mp (List.mem_of_find?_eq_some hcfg)))
  · rw [(configured_threshold_honoured AsciiText.lib customMatcher_loaded).2
      "hey assistant".toList 0.72 (by decide +kernel)]
    norm_num [defaultThreshold]

/-- The third partial passes the configured gate and is not woken on. -/
theorem threePartials_threshold_ignored :
    MatcherState.empty.loadPhrases AsciiText.lib AsciiText.customWakePhrases = .ok customMatcher ∧
      ¬ ∀ v ∈ visits (fun s c => s.onHypothesis AsciiText.lib c) (init customMatcher) threePartials,
        v.1.HonoursConfigured AsciiText.lib v.2 :=
  ⟨customMatcher_loaded, by decide +kernel⟩

end WakeEngine

end Kernel
end AvaListener
