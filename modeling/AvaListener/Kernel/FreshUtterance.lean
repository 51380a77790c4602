import AvaListener.Kernel.ConfiguredThreshold

/-!
# Generations as fresh utterances

Two runs that heard different things before a generation `g` are compared on the
calls of `g`.  Three pieces of state can carry the difference across: the live
part of the hypothesis buffer, the hit counter, which the first call reads before
it clears it, and the last matched phrase, which decides whether a later call
restarts the EMA.

The simulation relation is `Agree`: equal in every field detection reads, except
that the last matched phrases may differ while EMA and hit counter are zero.
-/

namespace AvaListener
namespace Kernel

open Library Config Matcher Audio

namespace WakeEngine

variable (lib : TextLib)

/-- What a run of calls computes and emits. -/
def heard (s : WakeEngine) (calls : List Call) : List (Option (ℚ × ℚ × Option WakeEvent)) :=
  (trace (fun s c => s.onHypothesis lib c) s calls).map fun answered =>
    answered.2.map fun r => (r.rawConf, r.smoothConf, r.wake)

/-- Two histories of an engine that end before generation `g` and leave the
registry, the cooldown stamp and the last trigger generation equal. -/
structure ComparableHistories (m : MatcherState) (h₁ h₂ : List EngineInput) (g : ℕ) : Prop where
  before₁ : ∀ c ∈ callsOf h₁, c.generationId < g
  before₂ : ∀ c ∈ callsOf h₂, c.generationId < g
  matcher_eq : (finalState (WakeEngine.step lib) (init m) h₁).matcher =
    (finalState (WakeEngine.step lib) (init m) h₂).matcher
  cooldown_eq : (finalState (WakeEngine.step lib) (init m) h₁).cooldown =
    (finalState (WakeEngine.step lib) (init m) h₂).cooldown
  lastTrigger_eq : (finalState (WakeEngine.step lib) (init m) h₁).lastTriggerGeneration =
    (finalState (WakeEngine.step lib) (init m) h₂).lastTriggerGeneration

/-- What was heard in earlier generations does not change detection in `g`. -/
def FreshUtterance : Prop :=
  ∀ (m : MatcherState) (h₁ h₂ : List EngineInput) (g : ℕ) (calls : List Call),
    ComparableHistories lib m h₁ h₂ g → (∀ c ∈ calls, c.generationId = g) →
      (finalState (WakeEngine.step lib) (init m) h₁).heard lib calls =
        (finalState (WakeEngine.step lib) (init m) h₂).heard lib calls

/-- Two states hold the same leftovers of the past for a first call `c` of a new
generation: the same live hypotheses, the same hit counter, and last matched
phrases that are equal or will not be asked for while the EMA is positive. -/
def SameLeftovers (s t : WakeEngine) (c : Call) : Prop :=
  s.buffer.live c.clock.pushPurge = t.buffer.live c.clock.pushPurge ∧
    s.hitCount = t.hitCount ∧
    (s.lastMatchedPhrase = t.lastMatchedPhrase ∨ s.hitCount ≤ 1 ∨
      (s.observe lib c).result.phrase ≠ [])

/-! ## The simulation relation -/

/-- The fields detection reads, without the last matched phrase. -/
structure CoreEq (s t : WakeEngine) : Prop where
  matcher : s.matcher = t.matcher
  buffer : s.buffer = t.buffer
  cooldown : s.cooldown = t.cooldown
  hitCount : s.hitCount = t.hitCount
  lastTriggerGeneration : s.lastTriggerGeneration = t.lastTriggerGeneration
  lastSeenGeneration : s.lastSeenGeneration = t.lastSeenGeneration
  smoothConf : s.smoothConf = t.smoothConf
  running₁ : s.detectionPaused = false
  running₂ : t.detectionPaused = false

structure Agree (s t : WakeEngine) : Prop extends CoreEq s t where
  lastMatched : s.lastMatchedPhrase = t.lastMatchedPhrase ∨ s.smoothConf = 0 ∧ s.hitCount = 0

variable {lib} {s t : WakeEngine} {c : Call}

/-- The buffering and matching stages see a state through its registry, its live
hypotheses and its hit counter. -/
theorem observe_eq_of_live (hmatcher : s.matcher = t.matcher)
    (hlive : s.buffer.live c.clock.pushPurge = t.buffer.live c.clock.pushPurge)
    (hhits : s.hitCount = t.hitCount) : s.observe lib c = t.observe lib c := by
  have hpush (text : Text) (stability : ℕ) :
      s.buffer.push c.clock.pushStamp c.clock.pushPurge text stability =
        t.buffer.push c.clock.pushStamp c.clock.pushPurge text stability := by
    rw [HypothesisBuffer.push_eq_push_live s.buffer, HypothesisBuffer.push_eq_push_live t.buffer,
      hlive]
  simp only [observe, hmatcher, hhits, hpush]

/-- A call without a phrase and without earlier hits scores zero. -/
theorem observe_of_phrase_nil (hphrase : (s.observe lib c).result.phrase = [])
    (hhits : s.hitCount ≤ 1) :
    (s.observe lib c).rawConf = 0 ∧ (s.observe lib c).hitCount = 0 := by
  have hscore : (s.observe lib c).result.score = 0 := bestMatch_score_eq_zero lib hphrase
  have hzero : (s.observe lib c).hitCount = 0 := by
    show (if 0.50 < (s.observe lib c).result.score then s.hitCount + 1 else s.hitCount - 1) = 0
    rw [hscore, if_neg (by norm_num)]
    omega
  refine ⟨?_, hzero⟩
  show computeConfidence (s.observe lib c).result.score _ (s.observe lib c).hitCount = 0
  rw [hscore, hzero, computeConfidence_zero_zero]

theorem smoothAsym_zero_zero (rise decay : ℚ) : smoothAsym rise decay 0 0 = 0 := by
  simp [smoothAsym, smooth]

/-- **One call on two states.**  Equal observations, EMA values and gates give
equal answers and leave equal cores. -/
theorem onHypothesis_agree (hcore : s.matcher = t.matcher) (hcooldown : s.cooldown = t.cooldown)
    (htrigger : s.lastTriggerGeneration = t.lastTriggerGeneration)
    (hpaused₁ : s.detectionPaused = false) (hpaused₂ : t.detectionPaused = false)
    (hobserve : s.observe lib c = t.observe lib c)
    (hgen : s.newGeneration c = t.newGeneration c)
    (hsmooth : s.smoothedConf c (s.observe lib c) = t.smoothedConf c (s.observe lib c)) :
    (s.onHypothesis lib c).2 = (t.onHypothesis lib c).2 ∧
      CoreEq (s.onHypothesis lib c).1 (t.onHypothesis lib c).1 := by
  have htriggers : s.Triggers lib c ↔ t.Triggers lib c := by
    rw [Triggers, Triggers, ← hobserve, hsmooth, htrigger, hcooldown]
  have hwake : s.wakeEvent lib c = t.wakeEvent lib c := by
    simp only [wakeEvent, ← hobserve, hsmooth]
  have hreport (wake : Option WakeEvent) : s.report lib c wake = t.report lib c wake := by
    simp only [report, ← hobserve, hsmooth]
  by_cases hfires : s.Triggers lib c
  · rw [onHypothesis_fired lib s c hpaused₁ hfires,
      onHypothesis_fired lib t c hpaused₂ (htriggers.mp hfires), hwake, hreport]
    refine ⟨rfl, ?_⟩
    constructor <;> simp [hcore, hpaused₁, hpaused₂]
  · rw [onHypothesis_quiet lib s c hpaused₁ hfires,
      onHypothesis_quiet lib t c hpaused₂ (mt htriggers.mpr hfires), hreport]
    refine ⟨rfl, ?_⟩
    constructor <;> simp [hcore, hcooldown, htrigger, hpaused₁, hpaused₂, ← hobserve, hgen, hsmooth]

/-- After a call the last matched phrase is the reported one, or what it was. -/
theorem onHypothesis_lastMatchedPhrase (hpaused : s.detectionPaused = false) :
    (s.onHypothesis lib c).1.lastMatchedPhrase =
      if (s.observe lib c).result.phrase = [] then s.lastMatchedPhrase
      else (s.observe lib c).result.phrase := by
  by_cases hfires : s.Triggers lib c
  · rw [onHypothesis_fired lib s c hpaused hfires, fire_lastMatchedPhrase,
      lastMatchedPhrase_scored]
  · rw [onHypothesis_quiet lib s c hpaused hfires, lastMatchedPhrase_scored]

/-- After a call, EMA and hit counter are zero where the EMA stage left them so:
firing clears both. -/
theorem onHypothesis_zero (hpaused : s.detectionPaused = false)
    (hsmooth : s.smoothedConf c (s.observe lib c) = 0)
    (hhits : s.newGeneration c = true ∨ (s.observe lib c).hitCount = 0) :
    (s.onHypothesis lib c).1.smoothConf = 0 ∧ (s.onHypothesis lib c).1.hitCount = 0 := by
  by_cases hfires : s.Triggers lib c
  · simp [onHypothesis_fired lib s c hpaused hfires]
  · rw [onHypothesis_quiet lib s c hpaused hfires]
    refine ⟨hsmooth, ?_⟩
    rcases hhits with hgen | hzero
    · simp [hgen]
    · simp [hzero]

/-- The last matched phrases agree after a call, or EMA and hit counter are
zero. -/
theorem lastMatched_after (hpaused₁ : s.detectionPaused = false)
    (hpaused₂ : t.detectionPaused = false) (hobserve : s.observe lib c = t.observe lib c)
    (h : s.lastMatchedPhrase = t.lastMatchedPhrase ∨ (s.observe lib c).result.phrase ≠ [] ∨
      s.smoothedConf c (s.observe lib c) = 0 ∧
        (s.newGeneration c = true ∨ (s.observe lib c).hitCount = 0)) :
    (s.onHypothesis lib c).1.lastMatchedPhrase = (t.onHypothesis lib c).1.lastMatchedPhrase ∨
      (s.onHypothesis lib c).1.smoothConf = 0 ∧ (s.onHypothesis lib c).1.hitCount = 0 := by
  rw [onHypothesis_lastMatchedPhrase hpaused₁, onHypothesis_lastMatchedPhrase hpaused₂, ← hobserve]
  rcases h with hlast | hphrase | ⟨hsmooth, hhits⟩
  · exact Or.inl (by rw [hlast])
  · exact Or.inl (by rw [if_neg hphrase, if_neg hphrase])
  · exact Or.inr (onHypothesis_zero hpaused₁ hsmooth hhits)

/-- **The first call of a new generation** brings states with the same leftovers
into agreement. -/
theorem agree_of_sameLeftovers (hmatcher : s.matcher = t.matcher)
    (hcooldown : s.cooldown = t.cooldown)
    (htrigger : s.lastTriggerGeneration = t.lastTriggerGeneration)
    (hpaused₁ : s.detectionPaused = false) (hpaused₂ : t.detectionPaused = false)
    (hnew₁ : s.newGeneration c = true) (hnew₂ : t.newGeneration c = true)
    (hsame : SameLeftovers lib s t c) :
    (s.onHypothesis lib c).2 = (t.onHypothesis lib c).2 ∧
      Agree (s.onHypothesis lib c).1 (t.onHypothesis lib c).1 := by
  obtain ⟨hlive, hhits, hlast⟩ := hsame
  have hobserve : s.observe lib c = t.observe lib c := observe_eq_of_live hmatcher hlive hhits
  have hsmooth : s.smoothedConf c (s.observe lib c) = t.smoothedConf c (s.observe lib c) := by
    simp only [smoothedConf, hnew₁, hnew₂, true_or, if_true]
  obtain ⟨hanswer, hcore⟩ := onHypothesis_agree hmatcher hcooldown htrigger hpaused₁ hpaused₂
    hobserve (hnew₁.trans hnew₂.symm) hsmooth
  refine ⟨hanswer, hcore, lastMatched_after hpaused₁ hpaused₂ hobserve ?_⟩
  rcases hlast with heq | hfew | hphrase
  · exact Or.inl heq
  · by_cases hnil : (s.observe lib c).result.phrase = []
    · -- No phrase and at most one old hit: the raw confidence is zero.
      have hraw := (observe_of_phrase_nil hnil hfew).1
      refine Or.inr (Or.inr ⟨?_, Or.inl hnew₁⟩)
      simp only [smoothedConf, hnew₁, true_or, if_true, hraw, smoothAsym_zero_zero]
    · exact Or.inr (Or.inl hnil)
  · exact Or.inr (Or.inl hphrase)

/-- **Every later call** answers alike on states in agreement and keeps them so. -/
theorem Agree.onHypothesis (h : Agree s t) (c : Call) :
    (s.onHypothesis lib c).2 = (t.onHypothesis lib c).2 ∧
      Agree (s.onHypothesis lib c).1 (t.onHypothesis lib c).1 := by
  have hobserve : s.observe lib c = t.observe lib c :=
    observe_eq_of_live h.matcher (by rw [h.buffer]) h.hitCount
  have hgen : s.newGeneration c = t.newGeneration c := by
    rw [newGeneration, newGeneration, h.lastSeenGeneration]
  have hcarried (phrase : Text) :
      (if s.newGeneration c ∨ s.phraseChanged phrase then 0 else s.smoothConf) =
        if t.newGeneration c ∨ t.phraseChanged phrase then 0 else t.smoothConf := by
    rcases h.lastMatched with hlast | ⟨hzero, -⟩
    · rw [hgen, phraseChanged, phraseChanged, hlast, h.smoothConf]
    · rw [← h.smoothConf, hzero, ite_self, ite_self]
  have hsmooth : s.smoothedConf c (s.observe lib c) = t.smoothedConf c (s.observe lib c) := by
    simp only [smoothedConf]
    rw [hcarried]
  obtain ⟨hanswer, hcore⟩ := onHypothesis_agree h.matcher h.cooldown h.lastTriggerGeneration
    h.running₁ h.running₂ hobserve hgen hsmooth
  refine ⟨hanswer, hcore, lastMatched_after h.running₁ h.running₂ hobserve ?_⟩
  rcases h.lastMatched with hlast | ⟨hzero, hhits⟩
  · exact Or.inl hlast
  · by_cases hnil : (s.observe lib c).result.phrase = []
    · obtain ⟨hraw, hcount⟩ := observe_of_phrase_nil hnil (by omega : s.hitCount ≤ 1)
      refine Or.inr (Or.inr ⟨?_, Or.inr hcount⟩)
      simp only [smoothedConf, hraw, hzero, ite_self, smoothAsym_zero_zero]
    · exact Or.inr (Or.inl hnil)

variable (lib)

/-- After calls of earlier generations, a call of `g` opens a new generation; and
nothing in a run pauses the engine. -/
theorem newGeneration_of_before {m : MatcherState} {past : List EngineInput} {g : ℕ}
    (hbefore : ∀ c ∈ callsOf past, c.generationId < g) (hc : c.generationId = g) :
    (finalState (WakeEngine.step lib) (init m) past).detectionPaused = false ∧
      (finalState (WakeEngine.step lib) (init m) past).newGeneration c = true := by
  have hrun : (finalState (WakeEngine.step lib) (init m) past).detectionPaused = false ∧
      (finalState (WakeEngine.step lib) (init m) past).lastSeenGeneration < g := by
    refine finalState_invariant _
      (fun s : WakeEngine => s.detectionPaused = false ∧ s.lastSeenGeneration < g) past
      ⟨rfl, by show (-1 : ℤ) < g; omega⟩ ?_
    intro s input hinput hs
    cases input with
    | hypothesis d =>
        have hd : d.generationId < g := hbefore d (List.mem_filterMap.mpr ⟨_, hinput, rfl⟩)
        show (s.onHypothesis lib d).1.detectionPaused = false ∧
          (s.onHypothesis lib d).1.lastSeenGeneration < g
        by_cases hfires : s.Triggers lib d
        · rw [onHypothesis_fired lib s d hs.1 hfires]
          simp [hs.1, hd]
        · rw [onHypothesis_quiet lib s d hs.1 hfires]
          simp [hs.1, hd]
    | reconfigure m => exact hs
    | loadProfile wakePhrases =>
        obtain ⟨m, hm⟩ := step_reconfigures lib s (.loadProfile wakePhrases) (by simp)
        rw [hm]
        exact hs
  refine ⟨hrun.1, ?_⟩
  have hne : (g : ℤ) ≠ (finalState (WakeEngine.step lib) (init m) past).lastSeenGeneration := by
    have hlt := hrun.2
    omega
  simpa [newGeneration, hc] using hne

/-- **Fresh utterances.**  Two comparable histories whose final states hold the
same leftovers for the first call of generation `g` are not told apart by any
run of calls of `g`: all reports agree. -/
theorem fresh_utterance_of_sameLeftovers (m : MatcherState) (h₁ h₂ : List EngineInput) (g : ℕ)
    (calls : List Call) (hcomparable : ComparableHistories lib m h₁ h₂ g)
    (hcalls : ∀ c ∈ calls, c.generationId = g)
    (hsame : ∀ c ∈ calls.head?, SameLeftovers lib
      (finalState (WakeEngine.step lib) (init m) h₁)
      (finalState (WakeEngine.step lib) (init m) h₂) c) :
    (finalState (WakeEngine.step lib) (init m) h₁).heard lib calls =
      (finalState (WakeEngine.step lib) (init m) h₂).heard lib calls := by
  cases calls with
  | nil => rfl
  | cons c rest =>
      have hc : c.generationId = g := hcalls c (List.mem_cons_self ..)
      obtain ⟨hpaused₁, hnew₁⟩ := newGeneration_of_before lib (m := m) hcomparable.before₁ hc
      obtain ⟨hpaused₂, hnew₂⟩ := newGeneration_of_before lib (m := m) hcomparable.before₂ hc
      obtain ⟨hanswer, hagree⟩ := agree_of_sameLeftovers hcomparable.matcher_eq
        hcomparable.cooldown_eq hcomparable.lastTrigger_eq hpaused₁ hpaused₂ hnew₁ hnew₂
        (hsame c rfl)
      have hrest := trace_eq_of_related (fun s c => s.onHypothesis lib c) Agree rest hagree
        fun a b d _ hab => hab.onHypothesis d
      simp only [heard, trace_cons, hanswer, hrest]

/-- One partial hypothesis of generation `2`, with no past and after two partials
of generation `1`. -/
theorem freshUtterance_fails : ¬ FreshUtterance AsciiText.lib := by
  intro hfresh
  have heq := hfresh customMatcher []
    [.hypothesis (.still "hey assistant".toList 0 1 10),
      .hypothesis (.still "hey assistant".toList 0 1 10.1)] 2
    [.still "hey assistant".toList 0 2 11]
    ⟨by decide, by decide, by decide +kernel, by decide +kernel, by decide +kernel⟩ (by decide)
  revert heq
  decide +kernel

/-- One partial of generation `1` leaves the same leftovers as none, once it has
left the window. -/
theorem old_partial_is_forgotten :
    (finalState (WakeEngine.step AsciiText.lib) (init customMatcher) []).heard AsciiText.lib
        [.still "hey assistant".toList 0 2 20] =
      (finalState (WakeEngine.step AsciiText.lib) (init customMatcher)
        [.hypothesis (.still "hey assistant".toList 0 1 10)]).heard AsciiText.lib
          [.still "hey assistant".toList 0 2 20] := by
  refine fresh_utterance_of_sameLeftovers AsciiText.lib customMatcher []
    [.hypothesis (.still "hey assistant".toList 0 1 10)] 2 [.still "hey assistant".toList 0 2 20]
    ⟨by decide, by decide, by decide +kernel, by decide +kernel, by decide +kernel⟩ (by decide) ?_
  intro c hc
  obtain rfl := Option.some.inj hc
  refine ⟨?_, ?_, Or.inr (Or.inl ?_)⟩
  · decide +kernel
  · decide +kernel
  · decide +kernel

end WakeEngine

end Kernel
end AvaListener
