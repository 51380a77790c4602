import AvaListener.Kernel.Engine

/-!
# What one engine step can do

Frame lemmas of the stages of `_on_hypothesis` and the three outcomes of a call:
ignored while paused, scored without firing, or fired.  Everything proved about
engine runs goes through these lemmas.
-/

namespace AvaListener
namespace Kernel

open Library Config Matcher Audio Telemetry

namespace WakeEngine

variable (lib : TextLib)

/-! ## Frames -/

section Frames

variable (s : WakeEngine) (c : Call)

/-- The candidate life cycle writes the candidate, the telemetry and the state
machine only. -/
theorem trackCandidate_frame (o : Observation) :
    ∃ candidate telemetry stateMachine, s.trackCandidate lib c o =
      { s with
        candidate := candidate
        telemetry := telemetry
        stateMachine := stateMachine } := by
  unfold trackCandidate
  dsimp only
  split
  · split
    · exact ⟨_, _, _, rfl⟩
    · unfold updateCandidate
      split
      · exact ⟨_, _, _, rfl⟩
      · exact ⟨_, _, _, rfl⟩
  · split
    · unfold dropCandidate
      split
      · exact ⟨_, _, _, rfl⟩
      · exact ⟨_, _, _, rfl⟩
    · exact ⟨_, _, _, rfl⟩

@[simp] theorem scored_matcher : (s.scored lib c).matcher = s.matcher := by
  obtain ⟨_, _, _, hframe⟩ := trackCandidate_frame lib s c (s.observe lib c)
  simp [scored, hframe]

@[simp] theorem scored_cooldown : (s.scored lib c).cooldown = s.cooldown := by
  obtain ⟨_, _, _, hframe⟩ := trackCandidate_frame lib s c (s.observe lib c)
  simp [scored, hframe]

@[simp] theorem scored_lastTriggerGeneration :
    (s.scored lib c).lastTriggerGeneration = s.lastTriggerGeneration := by
  obtain ⟨_, _, _, hframe⟩ := trackCandidate_frame lib s c (s.observe lib c)
  simp [scored, hframe]

@[simp] theorem scored_detectionPaused :
    (s.scored lib c).detectionPaused = s.detectionPaused := by
  obtain ⟨_, _, _, hframe⟩ := trackCandidate_frame lib s c (s.observe lib c)
  simp [scored, hframe]

@[simp] theorem scored_buffer : (s.scored lib c).buffer = (s.observe lib c).buffer := rfl

@[simp] theorem scored_hitCount :
    (s.scored lib c).hitCount =
      if s.newGeneration c then 0 else (s.observe lib c).hitCount := rfl

@[simp] theorem scored_lastSeenGeneration :
    (s.scored lib c).lastSeenGeneration = c.generationId := rfl

@[simp] theorem scored_smoothConf :
    (s.scored lib c).smoothConf = s.smoothedConf c (s.observe lib c) := rfl

@[simp] theorem scored_lastMatchedPhrase :
    (s.scored lib c).lastMatchedPhrase =
      if s.phraseChanged (s.observe lib c).result.phrase then (s.observe lib c).result.phrase
      else s.lastMatchedPhrase := rfl

/-- The last matched phrase is the reported one, or what it was. -/
theorem lastMatchedPhrase_scored :
    (s.scored lib c).lastMatchedPhrase =
      if (s.observe lib c).result.phrase = [] then s.lastMatchedPhrase
      else (s.observe lib c).result.phrase := by
  by_cases hnil : (s.observe lib c).result.phrase = []
  · simp [phraseChanged, hnil]
  · by_cases hsame : (s.observe lib c).result.phrase = s.lastMatchedPhrase
    · simp [phraseChanged, hsame]
    · simp [phraseChanged, hnil, hsame]

variable (w : WakeEvent)

/-- What FIRE leaves behind in the fields detection reads. -/
theorem fire_fields :
    (s.fire c w).matcher = s.matcher ∧
      (s.fire c w).detectionPaused = s.detectionPaused ∧
      (s.fire c w).lastSeenGeneration = s.lastSeenGeneration ∧
      (s.fire c w).lastMatchedPhrase = s.lastMatchedPhrase ∧
      (s.fire c w).lastTriggerGeneration = c.generationId ∧
      (s.fire c w).cooldown = ⟨c.clock.marked⟩ ∧
      (s.fire c w).buffer = .empty ∧
      (s.fire c w).hitCount = 0 ∧
      (s.fire c w).smoothConf = 0 := by
  unfold fire confirmCandidate
  dsimp only
  split
  · exact ⟨rfl, rfl, rfl, rfl, rfl, rfl, rfl, rfl, rfl⟩
  · exact ⟨rfl, rfl, rfl, rfl, rfl, rfl, rfl, rfl, rfl⟩

@[simp] theorem fire_matcher : (s.fire c w).matcher = s.matcher :=
  (fire_fields s c w).1

@[simp] theorem fire_detectionPaused : (s.fire c w).detectionPaused = s.detectionPaused :=
  (fire_fields s c w).2.1

@[simp] theorem fire_lastSeenGeneration :
    (s.fire c w).lastSeenGeneration = s.lastSeenGeneration :=
  (fire_fields s c w).2.2.1

@[simp] theorem fire_lastMatchedPhrase :
    (s.fire c w).lastMatchedPhrase = s.lastMatchedPhrase :=
  (fire_fields s c w).2.2.2.1

@[simp] theorem fire_lastTriggerGeneration :
    (s.fire c w).lastTriggerGeneration = c.generationId :=
  (fire_fields s c w).2.2.2.2.1

@[simp] theorem fire_cooldown : (s.fire c w).cooldown = ⟨c.clock.marked⟩ :=
  (fire_fields s c w).2.2.2.2.2.1

@[simp] theorem fire_buffer : (s.fire c w).buffer = .empty :=
  (fire_fields s c w).2.2.2.2.2.2.1

@[simp] theorem fire_hitCount : (s.fire c w).hitCount = 0 :=
  (fire_fields s c w).2.2.2.2.2.2.2.1

@[simp] theorem fire_smoothConf : (s.fire c w).smoothConf = 0 :=
  (fire_fields s c w).2.2.2.2.2.2.2.2

end Frames

/-! ## The three outcomes of a call -/

/-- The three gates in front of FIRE are open. -/
def Triggers (s : WakeEngine) (c : Call) : Prop :=
  confident (s.observe lib c).result.phrase (s.observe lib c).rawConf
      (s.smoothedConf c (s.observe lib c)) = true ∧
    (c.generationId : ℤ) ≠ s.lastTriggerGeneration ∧
    s.cooldown.canTrigger c.clock.cooldownCheck = true

instance (s : WakeEngine) (c : Call) : Decidable (s.Triggers lib c) :=
  inferInstanceAs (Decidable (_ ∧ _ ∧ _))

variable (s : WakeEngine) (c : Call)

theorem onHypothesis_paused (h : s.detectionPaused = true) :
    s.onHypothesis lib c = (s, none) := by
  simp [onHypothesis, h]

theorem onHypothesis_fired (h : s.detectionPaused = false) (htriggers : s.Triggers lib c) :
    s.onHypothesis lib c =
      ((s.scored lib c).fire c (s.wakeEvent lib c),
        some (s.report lib c (some (s.wakeEvent lib c)))) := by
  obtain ⟨hconfident, hgeneration, hcooldown⟩ := htriggers
  have hconfident' : confident (s.wakeEvent lib c).phrase (s.wakeEvent lib c).rawConfidence
      (s.wakeEvent lib c).smoothConfidence = true := hconfident
  simp [onHypothesis, h, hconfident', hgeneration, hcooldown]

theorem onHypothesis_quiet (h : s.detectionPaused = false) (hnot : ¬ s.Triggers lib c) :
    s.onHypothesis lib c = (s.scored lib c, some (s.report lib c none)) := by
  by_cases hconfident : confident (s.wakeEvent lib c).phrase (s.wakeEvent lib c).rawConfidence
      (s.wakeEvent lib c).smoothConfidence = true
  · by_cases hgeneration : (c.generationId : ℤ) = s.lastTriggerGeneration
    · simp [onHypothesis, h, hconfident, hgeneration]
    · have hcooldown : s.cooldown.canTrigger c.clock.cooldownCheck = false := by
        by_contra hopen
        exact hnot ⟨hconfident, hgeneration, by simpa using hopen⟩
      simp [onHypothesis, h, hconfident, hgeneration, hcooldown]
  · simp [onHypothesis, h, hconfident]

theorem onHypothesis_keeps (s : WakeEngine) (c : Call) :
    (s.onHypothesis lib c).1.matcher = s.matcher ∧
      (s.onHypothesis lib c).1.detectionPaused = s.detectionPaused := by
  cases hpaused : s.detectionPaused with
  | true => simp [onHypothesis_paused lib s c hpaused, hpaused]
  | false =>
      by_cases htriggers : s.Triggers lib c
      · simp [onHypothesis_fired lib s c hpaused htriggers, hpaused]
      · simp [onHypothesis_quiet lib s c hpaused htriggers, hpaused]

/-- The wake of a call, if it answers one. -/
def wakeOf (answer : Option CallReport) : Option WakeEvent :=
  answer.bind (·.wake)

@[simp] theorem wakeOf_none : wakeOf none = none := rfl

@[simp] theorem wakeOf_report (wake : Option WakeEvent) :
    wakeOf (some (s.report lib c wake)) = wake := rfl

/-- **When a call fires.** -/
theorem wakeOf_onHypothesis_eq_some_iff {w : WakeEvent} :
    wakeOf (s.onHypothesis lib c).2 = some w ↔
      s.detectionPaused = false ∧ s.Triggers lib c ∧ w = s.wakeEvent lib c := by
  cases hpaused : s.detectionPaused with
  | true => simp [onHypothesis_paused lib s c hpaused]
  | false =>
      by_cases htriggers : s.Triggers lib c
      · simp [onHypothesis_fired lib s c hpaused htriggers, htriggers, eq_comm]
      · simp [onHypothesis_quiet lib s c hpaused htriggers, htriggers]

/-- A profile load or a registry change concerns the matcher only. -/
theorem step_reconfigures (input : EngineInput) (h : ∀ c, input ≠ .hypothesis c) :
    ∃ m, s.step lib input = ({ s with matcher := m }, none) := by
  cases input with
  | hypothesis c => exact absurd rfl (h c)
  | reconfigure m => exact ⟨m, rfl⟩
  | loadProfile wakePhrases =>
      cases hload : s.matcher.loadPhrases lib wakePhrases with
      | error e => exact ⟨s.matcher, by simp [step, hload]⟩
      | ok m => exact ⟨m, by simp [step, hload]⟩

/-- **The duplicate-suppression gates.**  A step without a wake leaves the last
trigger generation and the cooldown stamp alone; a wake passes both gates and
sets both. -/
theorem step_gates (input : EngineInput) :
    (wakeOf (s.step lib input).2 = none ∧
      (s.step lib input).1.lastTriggerGeneration = s.lastTriggerGeneration ∧
      (s.step lib input).1.cooldown = s.cooldown) ∨
    ∃ c w, input = .hypothesis c ∧ wakeOf (s.step lib input).2 = some w ∧
      w.generationId = c.generationId ∧ (c.generationId : ℤ) ≠ s.lastTriggerGeneration ∧
      s.cooldown.lastTrigger + cooldownSeconds ≤ w.markedAt ∧
      (s.step lib input).1.lastTriggerGeneration = w.generationId ∧
      (s.step lib input).1.cooldown = ⟨w.markedAt⟩ := by
  cases input with
  | hypothesis c =>
      cases hpaused : s.detectionPaused with
      | true =>
          left
          simp [step, onHypothesis_paused lib s c hpaused]
      | false =>
          by_cases htriggers : s.Triggers lib c
          · right
            have hopen := (CooldownGate.canTrigger_iff _ _).mp htriggers.2.2
            refine ⟨c, s.wakeEvent lib c, rfl, ?_, rfl, htriggers.2.1, ?_, ?_, ?_⟩
            · simp [step, onHypothesis_fired lib s c hpaused htriggers]
            · exact hopen.trans c.clock.cooldownCheck_le_marked
            · simp [step, onHypothesis_fired lib s c hpaused htriggers, wakeEvent]
            · simp [step, onHypothesis_fired lib s c hpaused htriggers, wakeEvent]
          · left
            simp [step, onHypothesis_quiet lib s c hpaused htriggers]
  | reconfigure m => exact Or.inl ⟨rfl, rfl, rfl⟩
  | loadProfile wakePhrases =>
      left
      obtain ⟨m, hm⟩ := step_reconfigures lib s (.loadProfile wakePhrases) (by simp)
      simp [hm]

end WakeEngine

end Kernel
end AvaListener
