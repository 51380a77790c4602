import AvaListener.Kernel.EngineSteps
import AvaListener.Telemetry.SessionLog

/-!
# The two candidate life cycles

The engine and its telemetry collector each hold a candidate.  `Mirrored` says
that the engine's is the open one of the collector's log and that the false wakes
are the dropped ones; `lifecycle_log` says what one call does to the log.  Over a
run no candidate is lost and none is counted twice.
-/

namespace AvaListener
namespace Kernel

open Library Config Matcher Audio Telemetry

namespace WakeEngine

variable (lib : TextLib)

/-! ## The decisions of one call -/

/-- The call reaches `_start_candidate`: a phrase with enough raw confidence that
is not the candidate's. -/
def startsCandidate (s : WakeEngine) (c : Call) : Prop :=
  s.detectionPaused = false ∧ (s.observe lib c).result.phrase ≠ [] ∧
    0.50 ≤ (s.observe lib c).rawConf ∧
    s.candidate.all (·.phrase ≠ (s.observe lib c).result.phrase) = true

instance (s : WakeEngine) (c : Call) : Decidable (s.startsCandidate lib c) :=
  inferInstanceAs (Decidable (_ ∧ _ ∧ _ ∧ _))

/-- An input starts a candidate. -/
def inputStarts (v : WakeEngine × EngineInput) : Bool :=
  match v.2 with
  | .hypothesis c => v.1.startsCandidate lib c
  | .reconfigure _ => false
  | .loadProfile _ => false

/-- The candidates started by a run. -/
def candidatesStarted (m : MatcherState) (inputs : List EngineInput) : ℕ :=
  (visits (WakeEngine.step lib) (init m) inputs).countP (inputStarts lib)

/-- The call has no phrase with enough raw confidence, and the candidate was last
updated over a second ago. -/
def dropsCandidate (s : WakeEngine) (c : Call) : Prop :=
  ¬ ((s.observe lib c).result.phrase ≠ [] ∧ 0.50 ≤ (s.observe lib c).rawConf) ∧
    s.candidate.any (fun session => 1 < c.clock.now - session.lastUpdate) = true

instance (s : WakeEngine) (c : Call) : Decidable (s.dropsCandidate lib c) :=
  inferInstanceAs (Decidable (_ ∧ _))

/-! ## The log under one call -/

/-- Engine and collector hold the same candidate, and the collector's false wakes
are its dropped candidates. -/
structure Mirrored (s : WakeEngine) : Prop where
  candidate : s.candidate.map (·.phrase) = s.telemetry.candidateLog.active
  tallied : s.telemetry.Tallied

/-- The log after the candidate stage of a call. -/
def lifecycleLog (s : WakeEngine) (c : Call) : CandidateLog :=
  if s.startsCandidate lib c then
    s.telemetry.candidateLog.start (s.observe lib c).result.phrase
  else if s.dropsCandidate lib c then s.telemetry.candidateLog.close .dropped
  else s.telemetry.candidateLog

variable {s : WakeEngine}

/-- Closing the candidate on both sides, where there is one. -/
theorem Mirrored.close (h : s.Mirrored) {t : WakeEngine} {state : CandidateState}
    (hidle : s.candidate = none → t = s)
    (hcloses : s.candidate ≠ none → t.candidate = none ∧ t.telemetry.Tallied ∧
      t.telemetry.candidateLog = s.telemetry.candidateLog.close state) :
    t.Mirrored ∧ t.telemetry.candidateLog = s.telemetry.candidateLog.close state := by
  by_cases hcandidate : s.candidate = none
  · have hnone : s.telemetry.candidateLog.active = none := by
      rw [← h.candidate, hcandidate, Option.map_none]
    rw [hidle hcandidate]
    exact ⟨h, (CandidateLog.close_of_none _ _ hnone).symm⟩
  · obtain ⟨hnone, htallied, hlog⟩ := hcloses hcandidate
    refine ⟨⟨?_, htallied⟩, hlog⟩
    rw [hlog, hnone, CandidateLog.close_active, Option.map_none]

theorem Mirrored.confirmCandidate (h : s.Mirrored) :
    s.confirmCandidate.Mirrored ∧
      s.confirmCandidate.telemetry.candidateLog = s.telemetry.candidateLog.close .confirmed := by
  refine h.close (fun hnone => by simp [WakeEngine.confirmCandidate, hnone]) fun hsome => ?_
  obtain ⟨session, hsession⟩ := Option.ne_none_iff_exists'.mp hsome
  simp only [WakeEngine.confirmCandidate, hsession]
  exact ⟨trivial, h.tallied.confirmCandidate, by simp⟩

theorem Mirrored.dropCandidate (h : s.Mirrored) :
    s.dropCandidate.Mirrored ∧
      s.dropCandidate.telemetry.candidateLog = s.telemetry.candidateLog.close .dropped := by
  refine h.close (fun hnone => by simp [WakeEngine.dropCandidate, hnone]) fun hsome => ?_
  obtain ⟨session, hsession⟩ := Option.ne_none_iff_exists'.mp hsome
  simp only [WakeEngine.dropCandidate, hsession]
  exact ⟨trivial, h.tallied.dropCandidate, by simp⟩

/-- A start opens the candidate on both sides; the collector closes the one it
replaces. -/
theorem Mirrored.startCandidate (h : s.Mirrored) (c : Call) (o : Observation) (canonical : Text) :
    (s.startCandidate c o canonical).Mirrored ∧
      (s.startCandidate c o canonical).telemetry.candidateLog =
        s.telemetry.candidateLog.start o.result.phrase := by
  have hlog : (s.startCandidate c o canonical).telemetry.candidateLog =
      s.telemetry.candidateLog.start o.result.phrase :=
    TelemetryCollector.candidateLog_startCandidate _ _
  refine ⟨⟨?_, h.tallied.startCandidate _⟩, hlog⟩
  rw [hlog]
  rfl

theorem Mirrored.updateCandidate (h : s.Mirrored) (c : Call) (o : Observation) :
    (s.updateCandidate c o).Mirrored ∧
      (s.updateCandidate c o).telemetry.candidateLog = s.telemetry.candidateLog := by
  cases hcandidate : s.candidate with
  | none =>
      have hself : s.updateCandidate c o = s := by simp [WakeEngine.updateCandidate, hcandidate]
      rw [hself]
      exact ⟨h, rfl⟩
  | some session =>
      have hphrase : some session.phrase = s.telemetry.candidateLog.active := by
        rw [← h.candidate, hcandidate, Option.map_some]
      unfold WakeEngine.updateCandidate
      rw [hcandidate]
      exact ⟨⟨by simpa [CandidateSession.update] using hphrase, h.tallied.updateCandidate _ _ _ _ _⟩,
        by simp⟩

/-- **The candidate stage** keeps the two life cycles together and moves the log as
its decisions say. -/
theorem Mirrored.trackCandidate (h : s.Mirrored) (hpaused : s.detectionPaused = false) (c : Call) :
    (s.trackCandidate lib c (s.observe lib c)).Mirrored ∧
      (s.trackCandidate lib c (s.observe lib c)).telemetry.candidateLog =
        s.lifecycleLog lib c := by
  -- Recording the latency touches neither candidate.
  have htimed (latencyMs : ℚ) :
      ({ s with telemetry := s.telemetry.registerAsrLatency latencyMs } : WakeEngine).Mirrored :=
    ⟨h.candidate, h.tallied⟩
  unfold WakeEngine.trackCandidate lifecycleLog
  by_cases hphrase : (s.observe lib c).result.phrase ≠ [] ∧ 0.50 ≤ (s.observe lib c).rawConf
  · rw [if_pos hphrase]
    by_cases hother : s.candidate.all (·.phrase ≠ (s.observe lib c).result.phrase) = true
    · have hstarts : s.startsCandidate lib c := ⟨hpaused, hphrase.1, hphrase.2, hother⟩
      rw [if_pos hother, if_pos hstarts]
      exact (htimed _).startCandidate c _ _
    · have hstarts : ¬ s.startsCandidate lib c := fun hstarts => hother hstarts.2.2.2
      have hdrops : ¬ s.dropsCandidate lib c := fun hdrops => hdrops.1 hphrase
      rw [if_neg hother, if_neg hstarts, if_neg hdrops]
      exact (htimed _).updateCandidate c _
  · have hstarts : ¬ s.startsCandidate lib c := fun hstarts =>
      hphrase ⟨hstarts.2.1, hstarts.2.2.1⟩
    rw [if_neg hphrase, if_neg hstarts]
    by_cases hstale : s.candidate.any (fun session => 1 < c.clock.now - session.lastUpdate) = true
    · rw [if_pos hstale, if_pos (show s.dropsCandidate lib c from ⟨hphrase, hstale⟩)]
      exact (htimed _).dropCandidate
    · have hdrops : ¬ s.dropsCandidate lib c := fun hdrops => hstale hdrops.2
      rw [if_neg hstale, if_neg hdrops]
      exact ⟨htimed _, rfl⟩

/-- FIRE closes the open candidate as confirmed. -/
theorem Mirrored.fire (h : s.Mirrored) (c : Call) (w : WakeEvent) :
    (s.fire c w).Mirrored ∧
      (s.fire c w).telemetry.candidateLog = s.telemetry.candidateLog.close .confirmed := by
  have hfiring : ({ s with
      lastTriggerGeneration := c.generationId
      cooldown := s.cooldown.markTriggered c.clock.marked
      buffer := s.buffer.clear
      hitCount := 0
      wakeCount := s.wakeCount + 1
      latencySum := s.latencySum + w.latencyMs
      rawSum := s.rawSum + w.rawConfidence
      smoothSum := s.smoothSum + w.smoothConfidence
      telemetry := s.telemetry.registerWake w.latencyMs } : WakeEngine).Mirrored :=
    ⟨h.candidate, h.tallied⟩
  obtain ⟨hmirrored, hlog⟩ := hfiring.confirmCandidate
  exact ⟨⟨hmirrored.candidate, hmirrored.tallied⟩, hlog⟩

/-- The log after a whole call. -/
def callLog (s : WakeEngine) (c : Call) : CandidateLog :=
  if s.detectionPaused then s.telemetry.candidateLog
  else if s.Triggers lib c then (s.lifecycleLog lib c).close .confirmed
  else s.lifecycleLog lib c

/-- **One call** keeps the two life cycles together. -/
theorem Mirrored.onHypothesis (h : s.Mirrored) (c : Call) :
    (s.onHypothesis lib c).1.Mirrored ∧
      (s.onHypothesis lib c).1.telemetry.candidateLog = s.callLog lib c := by
  unfold callLog
  cases hpaused : s.detectionPaused with
  | true =>
      rw [onHypothesis_paused lib s c hpaused]
      exact ⟨h, rfl⟩
  | false =>
      obtain ⟨htrack, hlog⟩ := h.trackCandidate lib hpaused c
      have hscored : (s.scored lib c).Mirrored := ⟨htrack.candidate, htrack.tallied⟩
      by_cases htriggers : s.Triggers lib c
      · obtain ⟨hfired, hclosed⟩ := hscored.fire c (s.wakeEvent lib c)
        rw [onHypothesis_fired lib s c hpaused htriggers, if_pos htriggers]
        refine ⟨hfired, hclosed.trans ?_⟩
        exact congrArg (CandidateLog.close · .confirmed) hlog
      · rw [onHypothesis_quiet lib s c hpaused htriggers, if_neg htriggers]
        exact ⟨hscored, hlog⟩

/-- One call adds a candidate exactly when it starts one. -/
theorem size_callLog (s : WakeEngine) (c : Call) :
    (s.callLog lib c).size =
      s.telemetry.candidateLog.size + if s.startsCandidate lib c then 1 else 0 := by
  have hlifecycle : (s.lifecycleLog lib c).size =
      s.telemetry.candidateLog.size + if s.startsCandidate lib c then 1 else 0 := by
    unfold lifecycleLog
    by_cases hstarts : s.startsCandidate lib c
    · rw [if_pos hstarts, if_pos hstarts, CandidateLog.size_start]
    · rw [if_neg hstarts, if_neg hstarts]
      split
      · exact CandidateLog.size_close _ _
      · rfl
  unfold callLog
  cases hpaused : s.detectionPaused with
  | true =>
      have hstarts : ¬ s.startsCandidate lib c := by
        intro hstarts
        rw [hstarts.1] at hpaused
        cases hpaused
      rw [if_neg hstarts]
      rfl
  | false =>
      by_cases htriggers : s.Triggers lib c
      · simpa [htriggers] using hlifecycle
      · simpa [htriggers] using hlifecycle

/-! ## Runs -/

/-- An input that is no call leaves the candidates alone. -/
theorem Mirrored.step (h : s.Mirrored) (input : EngineInput) :
    (s.step lib input).1.Mirrored ∧
      (s.step lib input).1.telemetry.candidateLog.size =
        s.telemetry.candidateLog.size + if inputStarts lib (s, input) then 1 else 0 := by
  by_cases hcall : ∃ c, input = .hypothesis c
  · obtain ⟨c, rfl⟩ := hcall
    obtain ⟨hmirrored, hlog⟩ := h.onHypothesis lib c
    refine ⟨hmirrored, ?_⟩
    calc
      (s.onHypothesis lib c).1.telemetry.candidateLog.size = (s.callLog lib c).size := by rw [hlog]
      _ = s.telemetry.candidateLog.size + if s.startsCandidate lib c then 1 else 0 :=
        size_callLog lib s c
      _ = _ := by simp [inputStarts]
  · obtain ⟨m, hm⟩ := step_reconfigures lib s input (fun c heq => hcall ⟨c, heq⟩)
    have hstarts : inputStarts lib (s, input) = false := by
      cases input with
      | hypothesis c => exact absurd ⟨c, rfl⟩ hcall
      | reconfigure m => rfl
      | loadProfile wakePhrases => rfl
    rw [hm, hstarts]
    exact ⟨⟨h.candidate, h.tallied⟩, rfl⟩

/-- Engine and collector agree on the candidate, `started` candidates are all
archived or open, and the false wakes are the dropped ones. -/
structure SessionsAccounted (s : WakeEngine) (started : ℕ) : Prop where
  same_presence : s.candidate = none ↔ s.telemetry.activeCandidate = none
  same_phrase : s.candidate.map (·.phrase) = s.telemetry.activeCandidate.map (·.phrase)
  all_archived : (s.telemetry.candidateSessions.length +
    if s.telemetry.activeCandidate.isSome then 1 else 0) = started
  false_wakes : s.telemetry.falseWakeCount =
    s.telemetry.candidateSessions.countP (·.state = .dropped)

theorem Mirrored.accounted (h : s.Mirrored) :
    s.SessionsAccounted s.telemetry.candidateLog.size := by
  have hsame : s.candidate.map (·.phrase) = s.telemetry.activeCandidate.map (·.phrase) :=
    h.candidate
  refine ⟨?_, hsame, ?_, ?_⟩
  · rw [← Option.map_eq_none_iff (f := (·.phrase)), hsame, Option.map_eq_none_iff]
  · simp [CandidateLog.size, TelemetryCollector.candidateLog]
  · simpa [TelemetryCollector.Tallied, CandidateLog.closedAs, TelemetryCollector.candidateLog,
      List.countP_map, Function.comp_def] using h.tallied

theorem mirrored_init (m : MatcherState) : (init m).Mirrored :=
  ⟨rfl, rfl⟩

theorem mirrored_run (m : MatcherState) (past : List EngineInput) :
    (finalState (WakeEngine.step lib) (init m) past).Mirrored ∧
      (finalState (WakeEngine.step lib) (init m) past).telemetry.candidateLog.size =
        candidatesStarted lib m past := by
  refine history_invariant (WakeEngine.step lib)
    (fun past s => s.Mirrored ∧ s.telemetry.candidateLog.size = candidatesStarted lib m past)
    ⟨mirrored_init m, rfl⟩ ?_ past
  rintro past input ⟨hmirrored, hsize⟩
  obtain ⟨hnext, hcount⟩ := hmirrored.step lib input
  refine ⟨hnext, ?_⟩
  rw [hcount, hsize]
  simp [candidatesStarted, visits_append, List.countP_append, List.countP_singleton]

/-- **Parallel life cycles.**  At every point between calls of every run, the
candidates of engine and collector agree, and every candidate ever started is
open or archived once. -/
theorem candidate_sessions_accounted (m : MatcherState) (past : List EngineInput) :
    (finalState (WakeEngine.step lib) (init m) past).SessionsAccounted
      (candidatesStarted lib m past) := by
  obtain ⟨hmirrored, hsize⟩ := mirrored_run lib m past
  rw [← hsize]
  exact hmirrored.accounted

end WakeEngine

end Kernel
end AvaListener
