import AvaListener.Kernel.WakeLog
import AvaListener.Matcher.StableHypotheses

/-!
# Sustained evidence wakes

The gates in front of a wake say when the engine must not fire.  In turn, an utterance that
has not woken yet and whose calls go on reporting one phrase with a raw confidence of at
least some level wakes as soon as the smoothed confidence has climbed from nothing to the
threshold, at that rate, or sooner.

The raw confidence grows with the hits in a row, so that a match score alone is enough, if
it lasts a few calls longer.
-/

namespace AvaListener
namespace Kernel

open Library Config Matcher

namespace WakeEngine

variable (lib : TextLib)

/-! ## What goes on -/

/-- The call belongs to the utterance and reports the phrase at the level, and nothing but
the confidence can hold back a wake. -/
structure Sustains (utterance : ℕ) (spoken : Text) (level : ℚ) (s : WakeEngine) (c : Call) :
    Prop where
  listens : s.detectionPaused = false
  generation : c.generationId = utterance
  phrase : (s.observe lib c).result.phrase = spoken
  raw : level ≤ (s.observe lib c).rawConf
  cooled : s.cooldown.canTrigger c.clock.cooldownCheck = true

instance (utterance : ℕ) (spoken : Text) (level : ℚ) (s : WakeEngine) (c : Call) :
    Decidable (Sustains lib utterance spoken level s c) :=
  decidable_of_iff (s.detectionPaused = false ∧ c.generationId = utterance ∧
      (s.observe lib c).result.phrase = spoken ∧ level ≤ (s.observe lib c).rawConf ∧
      s.cooldown.canTrigger c.clock.cooldownCheck = true)
    ⟨fun ⟨h₁, h₂, h₃, h₄, h₅⟩ => ⟨h₁, h₂, h₃, h₄, h₅⟩,
      fun h => ⟨h.listens, h.generation, h.phrase, h.raw, h.cooled⟩⟩

/-- Every call up to the one that wakes is of the kind. -/
def UntilWake (kind : WakeEngine → Call → Prop) : WakeEngine → List Call → Prop
  | _, [] => True
  | s, c :: rest =>
      kind s c ∧
        (wakeOf (s.onHypothesis lib c).2 = none → UntilWake kind (s.onHypothesis lib c).1 rest)

instance decidableUntilWake (kind : WakeEngine → Call → Prop) [∀ s c, Decidable (kind s c)] :
    ∀ s calls, Decidable (UntilWake lib kind s calls)
  | _, [] => inferInstanceAs (Decidable True)
  | s, c :: rest =>
      have := decidableUntilWake kind (s.onHypothesis lib c).1 rest
      inferInstanceAs (Decidable (_ ∧ (_ → _)))

/-- So many calls at the level are enough: for the escape hatch, or for the smoothing. -/
def Enough (spoken : Text) (level : ℚ) (n : ℕ) : Prop :=
  triggerThreshold spoken + 0.08 ≤ level ∧ 0 < n ∨
    triggerThreshold spoken ≤ climbed emaRiseAlpha level n

instance (spoken : Text) (level : ℚ) (n : ℕ) : Decidable (Enough spoken level n) :=
  inferInstanceAs (Decidable (_ ∨ _))

/-- The engine has not woken in the utterance, and its smoothed confidence has come as far
as `n` calls at the level take it. -/
structure Climbing (utterance : ℕ) (spoken : Text) (level : ℚ) (n : ℕ) (s : WakeEngine) :
    Prop where
  fresh : s.lastTriggerGeneration ≠ utterance
  smooth : climbed emaRiseAlpha level n ≤ s.smoothConf
  /-- The next call does not start again. -/
  same : n = 0 ∨ s.lastSeenGeneration = utterance ∧ s.lastMatchedPhrase = spoken

variable {lib} {utterance n : ℕ} {spoken : Text} {level : ℚ} {s : WakeEngine} {c : Call}

/-! ## Confidences are not negative -/

/-- The raw confidence of a score and of so many hits in a window of at most that size. -/
theorem le_computeConfidence {low score : ℚ} {k W windowSize hits : ℕ} (hscore : low ≤ score)
    (hhits : k ≤ hits) (hwindow : max windowSize 3 ≤ W) :
    min (low * 0.80 + min ((k : ℚ) / W) 1 * 0.20) 1 ≤ computeConfidence score windowSize hits := by
  have hpos : (0 : ℚ) < (max windowSize 3 : ℕ) := by
    exact_mod_cast (Nat.zero_lt_succ 2).trans_le (le_max_right windowSize 3)
  have hrate : (k : ℚ) / W ≤ hits / (max windowSize 3 : ℕ) := by
    refine div_le_div₀ (Nat.cast_nonneg hits) ?_ hpos ?_
    · exact_mod_cast hhits
    · exact_mod_cast hwindow
  have hbonus : min ((k : ℚ) / W) 1 ≤ min ((hits : ℚ) / (max windowSize 3 : ℕ)) 1 :=
    min_le_min_right 1 hrate
  refine min_le_min_right 1 ?_
  linarith

theorem rawConf_nonneg : 0 ≤ (s.observe lib c).rawConf := by
  have hscore : 0 ≤ (s.observe lib c).result.score := bestMatch_score_nonneg ..
  have hle := le_computeConfidence hscore (Nat.zero_le (s.observe lib c).hitCount)
    (le_refl (max (s.observe lib c).buffer.window.length 3))
  refine le_trans (le_of_eq ?_) hle
  simp

theorem smoothConf_nonneg_onHypothesis (h : 0 ≤ s.smoothConf) :
    0 ≤ (s.onHypothesis lib c).1.smoothConf := by
  have hscored : 0 ≤ (s.scored lib c).smoothConf := by
    rw [scored_smoothConf, smoothedConf]
    refine smoothAsym_nonneg (by norm_num [emaRiseAlpha]) (by norm_num [emaRiseAlpha])
      (by norm_num [emaDecayAlpha]) rawConf_nonneg ?_
    split
    · exact le_rfl
    · exact h
  cases hpaused : s.detectionPaused with
  | true => rwa [onHypothesis_paused lib s c hpaused]
  | false =>
      by_cases htriggers : s.Triggers lib c
      · rw [onHypothesis_fired lib s c hpaused htriggers, fire_smoothConf]
      · rwa [onHypothesis_quiet lib s c hpaused htriggers]

theorem smoothConf_nonneg (lib : TextLib) (m : MatcherState) (inputs : List EngineInput) :
    0 ≤ (finalState (step lib) (init m) inputs).smoothConf := by
  refine finalState_invariant (step lib) (fun s => 0 ≤ s.smoothConf) inputs le_rfl ?_
  intro s input _ h
  cases input with
  | hypothesis c => exact smoothConf_nonneg_onHypothesis h
  | reconfigure m => exact h
  | loadProfile wakePhrases =>
      simp only [step]
      split
      · exact h
      · exact h

/-! ## One call -/

theorem triggerThreshold_pos (phrase : Text) : 0 < triggerThreshold phrase := by
  unfold triggerThreshold getThreshold
  split
  · norm_num [defaultThreshold]
  · norm_num [defaultThreshold]

/-- The smoothed confidence climbs one step further. -/
theorem Climbing.smoothed (h : Climbing utterance spoken level n s) (hlevel : 0 ≤ level)
    (hnonneg : 0 ≤ s.smoothConf) (hc : Sustains lib utterance spoken level s c) :
    climbed emaRiseAlpha level (n + 1) ≤ s.smoothedConf c (s.observe lib c) := by
  rw [smoothedConf]
  refine climbed_succ_le_smoothAsym (by norm_num [emaRiseAlpha]) (by norm_num [emaRiseAlpha])
    (by norm_num [emaDecayAlpha]) hlevel hc.raw ?_
  rcases h.same with rfl | ⟨hgeneration, hphrase⟩
  · rw [climbed_zero]
    split
    · exact le_rfl
    · exact hnonneg
  · have hnew : s.newGeneration c = false := by
      simp [newGeneration, hgeneration, hc.generation]
    have hchanged : s.phraseChanged (s.observe lib c).result.phrase = false := by
      simp [phraseChanged, hc.phrase, hphrase]
    simp only [hnew, hchanged, Bool.false_eq_true, or_self, if_false]
    exact h.smooth

/-- **One call** of sustained evidence wakes, in the utterance and with the phrase, or it
climbs one step further and has not reached the threshold. -/
theorem Climbing.step (h : Climbing utterance spoken level n s) (hspoken : spoken ≠ [])
    (hlevel : 0 ≤ level) (hnonneg : 0 ≤ s.smoothConf)
    (hc : Sustains lib utterance spoken level s c) :
    (∃ w, wakeOf (s.onHypothesis lib c).2 = some w ∧ w.phrase = spoken ∧
        w.generationId = utterance) ∨
      wakeOf (s.onHypothesis lib c).2 = none ∧ level < triggerThreshold spoken + 0.08 ∧
        climbed emaRiseAlpha level (n + 1) < triggerThreshold spoken ∧
          Climbing utterance spoken level (n + 1) (s.onHypothesis lib c).1 := by
  have hsmoothed := h.smoothed hlevel hnonneg hc
  by_cases htriggers : s.Triggers lib c
  · rw [onHypothesis_fired lib s c hc.listens htriggers]
    exact .inl ⟨_, rfl, hc.phrase, hc.generation⟩
  · -- The other gates are open, so it is the confidence that holds the wake back.
    have hgeneration : (c.generationId : ℤ) ≠ s.lastTriggerGeneration := by
      rw [hc.generation]
      exact h.fresh.symm
    have hquiet : confident (s.observe lib c).result.phrase (s.observe lib c).rawConf
        (s.smoothedConf c (s.observe lib c)) = false := by
      by_contra hconfident
      exact htriggers ⟨by simpa using hconfident, hgeneration, hc.cooled⟩
    simp only [confident, hc.phrase, decide_eq_false_iff_not, not_or, not_le] at hquiet
    obtain ⟨hraw, hbelow⟩ := hquiet
    rw [onHypothesis_quiet lib s c hc.listens htriggers]
    refine .inr ⟨rfl, hc.raw.trans_lt hraw, hsmoothed.trans_lt hbelow, ?_, hsmoothed,
      .inr ⟨?_, ?_⟩⟩
    · rw [scored_lastTriggerGeneration]
      exact h.fresh
    · rw [scored_lastSeenGeneration, hc.generation]
    · rw [lastMatchedPhrase_scored, hc.phrase, if_neg hspoken]

/-! ## The utterance -/

theorem wakeLog_hypothesis (lib : TextLib) (s : WakeEngine) (c : Call) (calls : List Call) :
    s.wakeLog lib ((c :: calls).map .hypothesis) =
      (wakeOf (s.onHypothesis lib c).2).toList ++
        (s.onHypothesis lib c).1.wakeLog lib (calls.map .hypothesis) := by
  rw [List.map_cons, wakeLog_cons]
  rfl

/-- The engine wakes while the calls last, if they last long enough. -/
theorem Climbing.wakes (h : Climbing utterance spoken level n s) (hspoken : spoken ≠ [])
    (hlevel : 0 ≤ level) (hnonneg : 0 ≤ s.smoothConf) {calls : List Call}
    (hsustained : UntilWake lib (Sustains lib utterance spoken level) s calls)
    (hbelow : climbed emaRiseAlpha level n < triggerThreshold spoken)
    (henough : triggerThreshold spoken + 0.08 ≤ level ∧ 0 < calls.length ∨
      triggerThreshold spoken ≤ climbed emaRiseAlpha level (n + calls.length)) :
    ∃ w ∈ (s.wakeLog lib (calls.map .hypothesis)).head?,
      w.phrase = spoken ∧ w.generationId = utterance := by
  induction calls generalizing s n with
  | nil =>
      rcases henough with ⟨-, hpos⟩ | hreach
      · exact absurd hpos (lt_irrefl 0)
      · exact absurd hreach (not_le.mpr hbelow)
  | cons c calls ih =>
      obtain ⟨hc, hrest⟩ := hsustained
      rw [wakeLog_hypothesis]
      rcases h.step hspoken hlevel hnonneg hc with ⟨w, hwake, hphrase, hgeneration⟩ |
        ⟨hnone, hhatch, hstill, hnext⟩
      · rw [hwake]
        exact ⟨w, rfl, hphrase, hgeneration⟩
      · have hreach := henough.resolve_left fun hescape => not_le.mpr hhatch hescape.1
        rw [List.length_cons, ← Nat.add_assoc, Nat.add_right_comm] at hreach
        rw [hnone, Option.toList_none, List.nil_append]
        exact ih hnext (smoothConf_nonneg_onHypothesis hnonneg) (hrest hnone) hstill (.inr hreach)

theorem climbing_zero (hfresh : s.lastTriggerGeneration ≠ utterance) (hnonneg : 0 ≤ s.smoothConf) :
    Climbing utterance spoken level 0 s :=
  ⟨hfresh, by rwa [climbed_zero], .inl rfl⟩

/-- From the first call on. -/
theorem wakes_of_sustained (hspoken : spoken ≠ []) (hlevel : 0 ≤ level)
    (hfresh : s.lastTriggerGeneration ≠ utterance) (hnonneg : 0 ≤ s.smoothConf)
    {calls : List Call} (hsustained : UntilWake lib (Sustains lib utterance spoken level) s calls)
    (henough : Enough spoken level calls.length) :
    ∃ w ∈ (s.wakeLog lib (calls.map .hypothesis)).head?,
      w.phrase = spoken ∧ w.generationId = utterance := by
  refine (climbing_zero hfresh hnonneg).wakes hspoken hlevel hnonneg hsustained ?_ ?_
  · rw [climbed_zero]
    exact triggerThreshold_pos spoken
  · rwa [Nat.zero_add]

/-- A level below nothing is never enough. -/
theorem Enough.nonneg (h : Enough spoken level n) : 0 ≤ level := by
  have hpos := triggerThreshold_pos spoken
  rcases h with ⟨hescape, -⟩ | hreach
  · linarith
  · by_contra hneg
    have hle : climbed emaRiseAlpha level n ≤ 0 :=
      climbed_nonpos (by norm_num [emaRiseAlpha]) (by norm_num [emaRiseAlpha])
        (not_le.mp hneg).le n
    linarith

/-- **Sustained evidence wakes.**  Whatever the engine has gone through before, the calls of
an utterance that has not woken wake with the phrase they report, if its raw confidence keeps
to a level at which so many calls are enough. -/
theorem sustained_wakes (lib : TextLib) (m : MatcherState) (before : List EngineInput)
    {calls : List Call} (hspoken : spoken ≠ [])
    (hfresh : (finalState (WakeEngine.step lib) (init m) before).lastTriggerGeneration ≠ utterance)
    (hsustained : UntilWake lib (Sustains lib utterance spoken level)
      (finalState (WakeEngine.step lib) (init m) before) calls)
    (henough : Enough spoken level calls.length) :
    ∃ w ∈ ((finalState (WakeEngine.step lib) (init m) before).wakeLog lib
        (calls.map .hypothesis)).head?, w.phrase = spoken ∧ w.generationId = utterance :=
  wakes_of_sustained hspoken henough.nonneg hfresh (smoothConf_nonneg lib m before) hsustained
    henough

/-- The same partial four times, a tenth of a second apart. -/
def fourPartials : List Call :=
  [.still "hey assist".toList 3 1 10, .still "hey assist".toList 3 1 10.1,
    .still "hey assist".toList 3 1 10.2, .still "hey assist".toList 3 1 10.3]

theorem fourPartials_wake :
    ∃ w ∈ ((finalState (WakeEngine.step AsciiText.lib) (init .empty)
        [.loadProfile AsciiText.customWakePhrases]).wakeLog AsciiText.lib
          (fourPartials.map .hypothesis)).head?,
      w.phrase = "hey assistant".toList ∧ w.generationId = 1 := by
  have hsustained : UntilWake AsciiText.lib (Sustains AsciiText.lib 1 "hey assistant".toList 0.79)
      (finalState (WakeEngine.step AsciiText.lib) (init .empty)
        [.loadProfile AsciiText.customWakePhrases]) fourPartials := by
    decide +kernel
  exact sustained_wakes AsciiText.lib .empty [.loadProfile AsciiText.customWakePhrases] (by decide)
    (by decide +kernel) hsustained (by decide +kernel)

/-! ## The match score alone -/

variable (lib) in
/-- The call reports the phrase with at least the match score, from a window of at most `W`
entries. -/
structure Scores (utterance : ℕ) (spoken : Text) (low : ℚ) (W : ℕ) (s : WakeEngine) (c : Call) :
    Prop where
  listens : s.detectionPaused = false
  generation : c.generationId = utterance
  phrase : (s.observe lib c).result.phrase = spoken
  score : low ≤ (s.observe lib c).result.score
  window : max (s.observe lib c).buffer.window.length 3 ≤ W
  cooled : s.cooldown.canTrigger c.clock.cooldownCheck = true

instance (utterance : ℕ) (spoken : Text) (low : ℚ) (W : ℕ) (s : WakeEngine) (c : Call) :
    Decidable (Scores lib utterance spoken low W s c) :=
  decidable_of_iff (s.detectionPaused = false ∧ c.generationId = utterance ∧
      (s.observe lib c).result.phrase = spoken ∧ low ≤ (s.observe lib c).result.score ∧
      max (s.observe lib c).buffer.window.length 3 ≤ W ∧
      s.cooldown.canTrigger c.clock.cooldownCheck = true)
    ⟨fun ⟨h₁, h₂, h₃, h₄, h₅, h₆⟩ => ⟨h₁, h₂, h₃, h₄, h₅, h₆⟩,
      fun h => ⟨h.listens, h.generation, h.phrase, h.score, h.window, h.cooled⟩⟩

/-- The hits of `k` such calls; those of the first do not count, when it begins the
utterance. -/
structure Counted (utterance k : ℕ) (s : WakeEngine) : Prop where
  fresh : s.lastTriggerGeneration ≠ utterance
  seen : k = 0 ∨ s.lastSeenGeneration = utterance
  hits : k - 1 ≤ s.hitCount

/-- The raw confidence of a score after so many hits. -/
def hitLevel (low : ℚ) (W k : ℕ) : ℚ := min (low * 0.80 + min ((k : ℚ) / W) 1 * 0.20) 1

variable {k W : ℕ} {low : ℚ}

/-- All hits have been counted. -/
theorem hitLevel_full (hW : 0 < W) (hk : W ≤ k) : hitLevel low W k = min (low * 0.80 + 0.20) 1 := by
  have hrate : (1 : ℚ) ≤ (k : ℚ) / W := by
    rw [le_div_iff₀ (by exact_mod_cast hW), one_mul]
    exact_mod_cast hk
  rw [hitLevel, min_eq_right hrate, one_mul]

/-- A call that is not paused wakes exactly if it triggers. -/
theorem wakeOf_eq_none_iff (hlistens : s.detectionPaused = false) :
    wakeOf (s.onHypothesis lib c).2 = none ↔ ¬ s.Triggers lib c := by
  constructor
  · intro hnone htriggers
    rw [onHypothesis_fired lib s c hlistens htriggers] at hnone
    cases hnone
  · intro hquiet
    rw [onHypothesis_quiet lib s c hlistens hquiet]
    rfl

theorem observe_hitCount (hlow : 0.50 < low) (hc : Scores lib utterance spoken low W s c) :
    (s.observe lib c).hitCount = s.hitCount + 1 := by
  have hscore : 0.50 < (s.observe lib c).result.score := hlow.trans_le hc.score
  exact if_pos hscore

theorem Counted.sustains (h : Counted utterance k s) (hlow : 0.50 < low)
    (hc : Scores lib utterance spoken low W s c) :
    Sustains lib utterance spoken (hitLevel low W k) s c where
  listens := hc.listens
  generation := hc.generation
  phrase := hc.phrase
  raw := by
    have hhits : k ≤ (s.observe lib c).hitCount := by
      have hcounted := h.hits
      rw [observe_hitCount hlow hc]
      omega
    exact le_computeConfidence hc.score hhits hc.window
  cooled := hc.cooled

/-- One call more is counted, if it does not wake. -/
theorem Counted.step (h : Counted utterance k s) (hlow : 0.50 < low)
    (hc : Scores lib utterance spoken low W s c) (hnone : wakeOf (s.onHypothesis lib c).2 = none) :
    Counted utterance (k + 1) (s.onHypothesis lib c).1 := by
  have hquiet := (wakeOf_eq_none_iff hc.listens).mp hnone
  rw [onHypothesis_quiet lib s c hc.listens hquiet]
  refine ⟨?_, .inr ?_, ?_⟩
  · rw [scored_lastTriggerGeneration]
    exact h.fresh
  · rw [scored_lastSeenGeneration, hc.generation]
  · rw [scored_hitCount, observe_hitCount hlow hc, Nat.add_sub_cancel]
    rcases h.seen with rfl | hseen
    · exact Nat.zero_le _
    · have hnew : s.newGeneration c = false := by simp [newGeneration, hseen, hc.generation]
      have hcounted := h.hits
      rw [hnew, if_neg Bool.false_ne_true]
      omega

/-- Once all hits are counted, the score sustains the full level. -/
theorem Counted.sustained (h : Counted utterance k s) (hlow : 0.50 < low) (hW : 0 < W)
    (hk : W ≤ k) {calls : List Call}
    (hsteady : UntilWake lib (Scores lib utterance spoken low W) s calls) :
    UntilWake lib (Sustains lib utterance spoken (min (low * 0.80 + 0.20) 1)) s calls := by
  induction calls generalizing s k with
  | nil => exact trivial
  | cons c calls ih =>
      obtain ⟨hc, hrest⟩ := hsteady
      refine ⟨hitLevel_full hW hk ▸ h.sustains hlow hc, fun hnone => ?_⟩
      exact ih (h.step hlow hc hnone) (hk.trans (Nat.le_succ k)) (hrest hnone)

theorem Counted.wakes (h : Counted utterance k s) (hspoken : spoken ≠ []) (hlow : 0.50 < low)
    (hW : 0 < W) (hk : k ≤ W) (hnonneg : 0 ≤ s.smoothConf) {calls : List Call}
    (hsteady : UntilWake lib (Scores lib utterance spoken low W) s calls)
    (hlength : W + n = k + calls.length)
    (henough : Enough spoken (min (low * 0.80 + 0.20) 1) n) :
    ∃ w ∈ (s.wakeLog lib (calls.map .hypothesis)).head?,
      w.phrase = spoken ∧ w.generationId = utterance := by
  induction calls generalizing s k with
  | nil =>
      obtain rfl : n = 0 := by
        rw [List.length_nil] at hlength
        omega
      rcases henough with ⟨-, hpos⟩ | hreach
      · exact absurd hpos (lt_irrefl 0)
      · rw [climbed_zero] at hreach
        exact absurd hreach (not_le.mpr (triggerThreshold_pos spoken))
  | cons c calls ih =>
      rcases Nat.lt_or_eq_of_le hk with hless | rfl
      · obtain ⟨hc, hrest⟩ := hsteady
        have hcount : W + n = k + 1 + calls.length := by
          rw [hlength, List.length_cons, Nat.add_assoc, Nat.add_comm 1]
        rw [wakeLog_hypothesis]
        by_cases htriggers : s.Triggers lib c
        · rw [onHypothesis_fired lib s c hc.listens htriggers]
          exact ⟨_, rfl, hc.phrase, hc.generation⟩
        · have hnone := (wakeOf_eq_none_iff hc.listens).mpr htriggers
          rw [hnone, Option.toList_none, List.nil_append]
          exact ih (h.step hlow hc hnone) hless (smoothConf_nonneg_onHypothesis hnonneg)
            (hrest hnone) hcount
      · have hn : n = (c :: calls).length := Nat.add_left_cancel hlength
        exact wakes_of_sustained hspoken henough.nonneg h.fresh hnonneg
          (h.sustained hlow hW le_rfl hsteady) (hn ▸ henough)

end WakeEngine

end Kernel
end AvaListener
