import AvaListener.Kernel.WakeLog
import AvaListener.Matcher.BestMatch

/-!
# Every wake has evidence

A wake for a phrase in a generation is preceded, since the last wake, by a call
of that generation that reported that phrase with a raw confidence of at least
`DEFAULT_THRESHOLD`; it may be the firing call itself.

The invariant links the EMA to the past of the run: whenever the EMA stands at
the threshold, the past holds such a call for the last matched phrase and the
last seen generation.  A call without a phrase cannot reach the threshold, since
its raw confidence is the repeat bonus alone and one decay step from at most one
ends at `0.76`.
-/

namespace AvaListener
namespace Kernel

open Library Config Matcher

namespace WakeEngine

variable (lib : TextLib)

/-! ## One call -/

@[simp] theorem triggerThreshold_eq (phrase : Text) :
    triggerThreshold phrase = defaultThreshold := by
  unfold triggerThreshold getThreshold
  split
  · rfl
  · rfl

theorem confident_iff (phrase : Text) (rawConf smoothConf : ℚ) :
    confident phrase rawConf smoothConf = true ↔
      defaultThreshold + 0.08 ≤ rawConf ∨ defaultThreshold ≤ smoothConf := by
  simp [confident]

variable (s : WakeEngine) (c : Call)

theorem observe_rawConf_le_one : (s.observe lib c).rawConf ≤ 1 :=
  computeConfidence_le_one _ _ _

/-- Without a phrase the raw confidence is the repeat bonus alone. -/
theorem observe_rawConf_le_of_phrase_nil (h : (s.observe lib c).result.phrase = []) :
    (s.observe lib c).rawConf ≤ 0.20 := by
  have hscore : (s.observe lib c).result.score = 0 := bestMatch_score_eq_zero lib h
  show computeConfidence (s.observe lib c).result.score _ _ ≤ 0.20
  rw [hscore]
  exact computeConfidence_zero_le _ _

/-- A raw confidence above the repeat bonus comes with a phrase. -/
theorem phrase_ne_nil_of_lt_rawConf (h : 0.20 < (s.observe lib c).rawConf) :
    (s.observe lib c).result.phrase ≠ [] := fun hnil =>
  absurd (observe_rawConf_le_of_phrase_nil lib s c hnil) (not_le.mpr h)

theorem rise_decay_weights :
    (0 : ℚ) ≤ emaRiseAlpha ∧ emaRiseAlpha ≤ 1 ∧ (0 : ℚ) ≤ emaDecayAlpha ∧ emaDecayAlpha ≤ 1 := by
  norm_num [emaRiseAlpha, emaDecayAlpha]

theorem smoothedConf_le_one (hle : s.smoothConf ≤ 1) :
    s.smoothedConf c (s.observe lib c) ≤ 1 := by
  obtain ⟨hr0, hr1, hd0, hd1⟩ := rise_decay_weights
  refine (smoothAsym_le_max hr0 hr1 hd0 hd1 _ _).trans (max_le (observe_rawConf_le_one lib s c) ?_)
  split
  · norm_num
  · exact hle

/-- **The decay margin.**  An EMA at the threshold means that the call reported
a phrase. -/
theorem phrase_ne_nil_of_threshold_le_smoothed (hle : s.smoothConf ≤ 1)
    (h : defaultThreshold ≤ s.smoothedConf c (s.observe lib c)) :
    (s.observe lib c).result.phrase ≠ [] := by
  intro hnil
  obtain ⟨hr0, hr1, hd0, hd1⟩ := rise_decay_weights
  have hraw := observe_rawConf_le_of_phrase_nil lib s c hnil
  have hmargin : s.smoothedConf c (s.observe lib c) ≤ max 0.20 (smooth emaDecayAlpha 0.20 1) := by
    refine smoothAsym_le_of_le hr0 hr1 hd0 hd1 hraw ?_
    split
    · norm_num
    · exact hle
  have hbelow : max (0.20 : ℚ) (smooth emaDecayAlpha 0.20 1) < defaultThreshold := by
    norm_num [smooth, emaDecayAlpha, defaultThreshold]
  exact absurd h (not_le.mpr (hmargin.trans_lt hbelow))

/-- A firing call reports a phrase. -/
theorem phrase_ne_nil_of_triggers (hle : s.smoothConf ≤ 1) (h : s.Triggers lib c) :
    (s.observe lib c).result.phrase ≠ [] := by
  rcases (confident_iff _ _ _).mp h.1 with hescape | hema
  · refine phrase_ne_nil_of_lt_rawConf lib s c (lt_of_lt_of_le ?_ hescape)
    norm_num [defaultThreshold]
  · exact phrase_ne_nil_of_threshold_le_smoothed lib s c hle hema

/-- An EMA at the threshold was reached by the raw confidence of this call, or
it was there before and nothing reset it. -/
theorem raw_or_carried_of_threshold_le_smoothed
    (h : defaultThreshold ≤ s.smoothedConf c (s.observe lib c)) :
    defaultThreshold ≤ (s.observe lib c).rawConf ∨
      defaultThreshold ≤ s.smoothConf ∧ s.newGeneration c = false ∧
        s.phraseChanged (s.observe lib c).result.phrase = false := by
  obtain ⟨hr0, hr1, hd0, hd1⟩ := rise_decay_weights
  rcases le_or_le_of_le_smoothAsym hr0 hr1 hd0 hd1 h with hraw | hcarried
  · exact Or.inl hraw
  · right
    have hpos : ¬ defaultThreshold ≤ (0 : ℚ) := by norm_num [defaultThreshold]
    cases hgen : s.newGeneration c with
    | true => simp [hgen, hpos] at hcarried
    | false =>
        cases hphrase : s.phraseChanged (s.observe lib c).result.phrase with
        | true => simp [hgen, hphrase, hpos] at hcarried
        | false =>
            refine ⟨?_, rfl, rfl⟩
            simpa [hgen, hphrase] using hcarried

/-! ## The past of a run -/

/-- In `answered` there is, after the last wake, a call of generation `g` that
reported `p` with a raw confidence of at least the threshold. -/
def EvidenceSince (answered : List (EngineInput × Option CallReport)) (g : ℕ) (p : Text) : Prop :=
  ∃ before d r after, answered = before ++ (.hypothesis d, some r) :: after ∧
    d.generationId = g ∧ r.phrase = p ∧ defaultThreshold ≤ r.rawConf ∧
    ∀ a ∈ (EngineInput.hypothesis d, some r) :: after, wakeOf a.2 = none

/-- The same for a run that has just fired: its last call may itself be the
evidence, and the wake it answered does not count. -/
def EvidenceForLast (answered : List (EngineInput × Option CallReport)) (g : ℕ) (p : Text) : Prop :=
  ∃ before d r after, answered = before ++ (.hypothesis d, some r) :: after ∧
    d.generationId = g ∧ r.phrase = p ∧ defaultThreshold ≤ r.rawConf ∧
    ∀ a ∈ ((EngineInput.hypothesis d, some r) :: after).dropLast, wakeOf a.2 = none

theorem EvidenceSince.snoc {answered : List (EngineInput × Option CallReport)} {g : ℕ} {p : Text}
    (h : EvidenceSince answered g p) {a : EngineInput × Option CallReport}
    (ha : wakeOf a.2 = none) : EvidenceSince (answered ++ [a]) g p := by
  obtain ⟨before, d, r, after, rfl, hgen, hphrase, hraw, hquiet⟩ := h
  refine ⟨before, d, r, after ++ [a], by simp, hgen, hphrase, hraw, ?_⟩
  intro b hb
  rw [← List.cons_append, List.mem_append, List.mem_singleton] at hb
  rcases hb with hb | rfl
  · exact hquiet b hb
  · exact ha

theorem EvidenceSince.forLast {answered : List (EngineInput × Option CallReport)} {g : ℕ}
    {p : Text} (h : EvidenceSince answered g p) (a : EngineInput × Option CallReport) :
    EvidenceForLast (answered ++ [a]) g p := by
  obtain ⟨before, d, r, after, rfl, hgen, hphrase, hraw, hquiet⟩ := h
  refine ⟨before, d, r, after ++ [a], by simp, hgen, hphrase, hraw, ?_⟩
  rw [← List.cons_append, List.dropLast_concat]
  exact hquiet

/-- The EMA is at most one, and at the threshold only with evidence for the last
matched phrase in the last seen generation. -/
structure EmaBacked (answered : List (EngineInput × Option CallReport)) (s : WakeEngine) :
    Prop where
  le_one : s.smoothConf ≤ 1
  evidence : defaultThreshold ≤ s.smoothConf → ∃ g : ℕ, s.lastSeenGeneration = g ∧
    EvidenceSince answered g s.lastMatchedPhrase

variable {lib s c}

/-- The evidence behind an EMA at the threshold after this call: the call itself
or the past. -/
theorem EmaBacked.of_threshold_le_smoothed {answered : List (EngineInput × Option CallReport)}
    (hs : EmaBacked answered s) (h : defaultThreshold ≤ s.smoothedConf c (s.observe lib c)) :
    (s.observe lib c).result.phrase ≠ [] ∧
      (defaultThreshold ≤ (s.observe lib c).rawConf ∨
        EvidenceSince answered c.generationId (s.observe lib c).result.phrase) := by
  have hphrase := phrase_ne_nil_of_threshold_le_smoothed lib s c hs.le_one h
  refine ⟨hphrase, ?_⟩
  rcases raw_or_carried_of_threshold_le_smoothed lib s c h with hraw | ⟨hcarried, hgen, hsame⟩
  · exact Or.inl hraw
  · obtain ⟨g, hseen, hevidence⟩ := hs.evidence hcarried
    have hg : c.generationId = g := by
      have heq : (c.generationId : ℤ) = s.lastSeenGeneration := by
        simpa [newGeneration] using hgen
      rw [hseen] at heq
      exact_mod_cast heq
    have hp : (s.observe lib c).result.phrase = s.lastMatchedPhrase := by
      simpa [phraseChanged, hphrase] using hsame
    right
    rw [hg, hp]
    exact hevidence

/-- **The evidence behind a firing call**, by the escape hatch or by the EMA. -/
theorem EmaBacked.of_triggers {answered : List (EngineInput × Option CallReport)}
    (hs : EmaBacked answered s) (h : s.Triggers lib c) :
    (s.observe lib c).result.phrase ≠ [] ∧
      (defaultThreshold ≤ (s.observe lib c).rawConf ∨
        EvidenceSince answered c.generationId (s.observe lib c).result.phrase) := by
  refine ⟨phrase_ne_nil_of_triggers lib s c hs.le_one h, ?_⟩
  rcases (confident_iff _ _ _).mp h.1 with hescape | hema
  · exact Or.inl (by linarith)
  · exact (hs.of_threshold_le_smoothed hema).2

/-- A call that does not fire keeps the invariant. -/
theorem EmaBacked.scored {answered : List (EngineInput × Option CallReport)}
    (hs : EmaBacked answered s) :
    EmaBacked (answered ++ [(.hypothesis c, some (s.report lib c none))]) (s.scored lib c) := by
  refine ⟨smoothedConf_le_one lib s c hs.le_one, ?_⟩
  intro hreach
  obtain ⟨hphrase, hbacked⟩ := hs.of_threshold_le_smoothed hreach
  refine ⟨c.generationId, rfl, ?_⟩
  rw [lastMatchedPhrase_scored lib s c, if_neg hphrase]
  rcases hbacked with hraw | hevidence
  · refine ⟨answered, c, s.report lib c none, [], rfl, rfl, rfl, hraw, ?_⟩
    intro a ha
    obtain rfl := List.mem_singleton.mp ha
    rfl
  · exact hevidence.snoc rfl

/-- One more input keeps the invariant. -/
theorem EmaBacked.step {answered : List (EngineInput × Option CallReport)}
    (hs : EmaBacked answered s) (input : EngineInput) :
    EmaBacked (answered ++ [(input, (s.step lib input).2)]) (s.step lib input).1 := by
  have hkeep (m : MatcherState) (a : EngineInput × Option CallReport) (ha : wakeOf a.2 = none) :
      EmaBacked (answered ++ [a]) { s with matcher := m } := by
    refine ⟨hs.le_one, ?_⟩
    intro hreach
    obtain ⟨g, hseen, hevidence⟩ := hs.evidence hreach
    exact ⟨g, hseen, hevidence.snoc ha⟩
  by_cases hcall : ∃ c, input = .hypothesis c
  · obtain ⟨c, rfl⟩ := hcall
    show EmaBacked (answered ++ [(.hypothesis c, (s.onHypothesis lib c).2)]) (s.onHypothesis lib c).1
    cases hpaused : s.detectionPaused with
    | true =>
        rw [onHypothesis_paused lib s c hpaused]
        exact hkeep s.matcher _ rfl
    | false =>
        by_cases htriggers : s.Triggers lib c
        · rw [onHypothesis_fired lib s c hpaused htriggers]
          -- FIRE resets the EMA, so nothing has to be shown about the past.
          refine ⟨by simp, ?_⟩
          intro hreach
          rw [fire_smoothConf] at hreach
          exact absurd hreach (by norm_num [defaultThreshold])
        · rw [onHypothesis_quiet lib s c hpaused htriggers]
          exact hs.scored
  · obtain ⟨m, hm⟩ := step_reconfigures lib s input (fun c h => hcall ⟨c, h⟩)
    rw [hm]
    exact hkeep m _ rfl

variable (lib)

theorem emaBacked_run (m : MatcherState) (past : List EngineInput) :
    EmaBacked (trace (WakeEngine.step lib) (init m) past)
      (finalState (WakeEngine.step lib) (init m) past) := by
  refine history_invariant (WakeEngine.step lib)
    (fun past s => EmaBacked (trace (WakeEngine.step lib) (init m) past) s) ?_ ?_ past
  · refine ⟨by simp [init], ?_⟩
    intro hreach
    exact absurd hreach (by norm_num [init, defaultThreshold])
  · intro past input hpast
    rw [trace_append]
    exact hpast.step input

/-- **No wake without evidence.**  In every run, whatever the generations,
registries and profile loads, a wake names a non-empty phrase and the generation
of the firing call, and since the last wake a call of that generation reported
that phrase with a raw confidence of at least `DEFAULT_THRESHOLD`. -/
theorem wake_has_evidence (m : MatcherState) (past : List EngineInput) (c : Call) (w : WakeEvent)
    (hwake : wakeOf ((finalState (WakeEngine.step lib) (init m) past).onHypothesis lib c).2 =
      some w) :
    w.phrase ≠ [] ∧ w.generationId = c.generationId ∧
      EvidenceForLast (trace (WakeEngine.step lib) (init m) (past ++ [.hypothesis c]))
        w.generationId w.phrase := by
  have hbacked := emaBacked_run lib m past
  rw [trace_append]
  generalize finalState (WakeEngine.step lib) (init m) past = s at hwake hbacked ⊢
  generalize trace (WakeEngine.step lib) (init m) past = answered at hbacked ⊢
  obtain ⟨hpaused, htriggers, rfl⟩ := (wakeOf_onHypothesis_eq_some_iff lib s c).mp hwake
  have hanswer : trace (WakeEngine.step lib) s [.hypothesis c] =
      [(.hypothesis c, some (s.report lib c (some (s.wakeEvent lib c))))] := by
    rw [trace_cons, trace_nil]
    show [(EngineInput.hypothesis c, (s.onHypothesis lib c).2)] = _
    rw [onHypothesis_fired lib s c hpaused htriggers]
  rw [hanswer]
  show (s.observe lib c).result.phrase ≠ [] ∧ c.generationId = c.generationId ∧
    EvidenceForLast _ c.generationId (s.observe lib c).result.phrase
  obtain ⟨hphrase, hraw | hevidence⟩ := hbacked.of_triggers htriggers
  · exact ⟨hphrase, rfl, answered, c, _, [], rfl, rfl, rfl, hraw, by simp⟩
  · exact ⟨hphrase, rfl, hevidence.forLast _⟩

theorem first_call_has_evidence :
    "hey assistant".toList ≠ [] ∧ (1 : ℕ) = 1 ∧
      EvidenceForLast (trace (WakeEngine.step AsciiText.lib) (init .empty)
        ([.loadProfile AsciiText.customWakePhrases] ++
          [.hypothesis (.still "hey assistant".toList 2 1 10)])) 1 "hey assistant".toList :=
  wake_has_evidence AsciiText.lib .empty [.loadProfile AsciiText.customWakePhrases]
    (.still "hey assistant".toList 2 1 10)
    ⟨"hey assistant".toList, 13 / 15, 91 / 150, 0, 1, 10⟩ (by decide +kernel)

end WakeEngine

end Kernel
end AvaListener
