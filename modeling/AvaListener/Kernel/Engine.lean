import AvaListener.Audio.HypothesisBuffer
import AvaListener.Library.Runs
import AvaListener.Library.Smoothing
import AvaListener.Matcher.Confidence
import AvaListener.Telemetry.Collector

/-!
# The wake engine

`WakeEngine._on_hypothesis` of `runtime/kernel/orchestrator.py`, stage by stage:
buffer, match, hit counter, raw confidence, candidate tracking, EMA resets, EMA,
trigger gate, generation gate, cooldown gate, fire.

A call carries the clock readings it makes, in the order in which the code makes
them.  Between calls the registry and the index may be changed by anyone, so an
engine run interleaves calls with reconfigurations and profile loads.

The fields that only feed log lines (`_last_metrics_time`,
`_last_logged_suppressed_gen`) and the correlation id are left out.
-/

namespace AvaListener
namespace Kernel

open Library Config Matcher Audio Telemetry

/-! ## Runtime states -/

/-- The states of `RuntimeStateMachine` that a hypothesis can lead to. -/
inductive RuntimeState where
  | idle
  | listening
  | candidateTracking
  | wakeConfirmed
  | cooldown
  deriving DecidableEq, Repr

inductive RuntimeEvent where
  | start
  | candidateStarted
  | candidateUpdated
  | candidateConfirmed
  | candidateDropped
  | cooldown
  deriving DecidableEq, Repr

/-- `RuntimeStateMachine.transition`: the event alone decides the next state. -/
def RuntimeEvent.target : RuntimeEvent → RuntimeState
  | .start => .listening
  | .candidateStarted => .candidateTracking
  | .candidateUpdated => .candidateTracking
  | .candidateConfirmed => .wakeConfirmed
  | .candidateDropped => .listening
  | .cooldown => .cooldown

/-! ## Calls -/

/-- The clock readings of one call, in program order.  Readings that a given
path skips are present and unused. -/
structure CallClock where
  t0 : ℚ
  now : ℚ
  pushStamp : ℚ
  pushPurge : ℚ
  peakStamp : ℚ
  peakPurge : ℚ
  windowPurge : ℚ
  matched : ℚ
  candidateStart : ℚ
  candidateLast : ℚ
  sessionStart : ℚ
  sessionLast : ℚ
  cooldownCheck : ℚ
  fired : ℚ
  marked : ℚ
  ordered : [t0, now, pushStamp, pushPurge, peakStamp, peakPurge, windowPurge, matched,
    candidateStart, candidateLast, sessionStart, sessionLast, cooldownCheck, fired,
    marked].Pairwise (· ≤ ·)

/-- A clock that stands still during the call. -/
def CallClock.still (t : ℚ) : CallClock :=
  ⟨t, t, t, t, t, t, t, t, t, t, t, t, t, t, t, by simp⟩

theorem CallClock.cooldownCheck_le_marked (k : CallClock) : k.cooldownCheck ≤ k.marked := by
  have h := k.ordered
  simp only [List.pairwise_cons, List.mem_cons] at h
  obtain ⟨-, -, -, -, -, -, -, -, -, -, -, -, hcheck, -⟩ := h
  exact hcheck k.marked (Or.inr (Or.inl rfl))

/-- The arguments of one `_on_hypothesis` call. -/
structure Call where
  text : Text
  stability : ℕ
  peak : Text
  generationId : ℕ
  clock : CallClock

/-- A call without a longer peak, at a clock that stands still. -/
def Call.still (text : Text) (stability generationId : ℕ) (t : ℚ) : Call :=
  ⟨text, stability, [], generationId, .still t⟩

/-- The arguments of one `emit_wake` call, with the generation and the
`mark_triggered` reading of the firing call. -/
structure WakeEvent where
  phrase : Text
  rawConfidence : ℚ
  smoothConfidence : ℚ
  latencyMs : ℚ
  generationId : ℕ
  markedAt : ℚ
  deriving DecidableEq

/-- What one scored call computed and did. -/
structure CallReport where
  window : List Hypothesis
  phrase : Text
  rawConf : ℚ
  smoothConf : ℚ
  wake : Option WakeEvent
  deriving DecidableEq

/-! ## The engine -/

/-- `_get_threshold`. -/
def getThreshold (_phrase : Text) : ℚ :=
  defaultThreshold

/-- The fields of `WakeEngine`, with the module-level registry and index. -/
structure WakeEngine where
  matcher : MatcherState
  buffer : HypothesisBuffer
  cooldown : CooldownGate
  hitCount : ℕ
  lastTriggerGeneration : ℤ
  lastSeenGeneration : ℤ
  smoothConf : ℚ
  lastMatchedPhrase : Text
  wakeCount : ℕ
  latencySum : ℚ
  rawSum : ℚ
  smoothSum : ℚ
  telemetry : TelemetryCollector
  stateMachine : RuntimeState
  candidate : Option CandidateSession
  detectionPaused : Bool

/-- `WakeEngine.__init__` over a given registry and index. -/
def WakeEngine.init (m : MatcherState) : WakeEngine where
  matcher := m
  buffer := .empty
  cooldown := .init
  hitCount := 0
  lastTriggerGeneration := -1
  lastSeenGeneration := -1
  smoothConf := 0
  lastMatchedPhrase := []
  wakeCount := 0
  latencySum := 0
  rawSum := 0
  smoothSum := 0
  telemetry := .init
  stateMachine := .idle
  candidate := none
  detectionPaused := false

/-- The outcome of the buffering and matching stages. -/
structure Observation where
  effStab : ℕ
  buffer : HypothesisBuffer
  result : MatchResult
  hitCount : ℕ
  rawConf : ℚ

namespace WakeEngine

variable (lib : TextLib)

/-- Buffer, matching, hit counter and raw confidence. -/
def observe (s : WakeEngine) (c : Call) : Observation :=
  let effStab := min c.stability stabilityCap
  let pushed := s.buffer.push c.clock.pushStamp c.clock.pushPurge c.text effStab
  let withPeak :=
    if c.peak ≠ [] ∧ c.peak ≠ c.text ∧ c.text.length < c.peak.length then
      pushed.push c.clock.peakStamp c.clock.peakPurge c.peak (effStab + 2)
    else pushed
  let buffer := withPeak.purge c.clock.windowPurge
  let result := bestMatch lib s.matcher buffer.window
  let hitCount := if 0.50 < result.score then s.hitCount + 1 else s.hitCount - 1
  { effStab := effStab
    buffer := buffer
    result := result
    hitCount := hitCount
    rawConf := computeConfidence result.score buffer.window.length hitCount }

def startCandidate (s : WakeEngine) (c : Call) (o : Observation) (canonical : Text) : WakeEngine :=
  let session start last := CandidateSession.begin o.result.phrase o.result.matchedVariant
    canonical c.text o.rawConf s.smoothConf o.effStab start last
  { s with
    candidate := some (session c.clock.candidateStart c.clock.candidateLast)
    telemetry := s.telemetry.startCandidate (session c.clock.sessionStart c.clock.sessionLast)
    stateMachine := RuntimeEvent.candidateStarted.target }

def updateCandidate (s : WakeEngine) (c : Call) (o : Observation) : WakeEngine :=
  match s.candidate with
  | none => s
  | some session =>
      { s with
        candidate := some
          (session.update c.text o.rawConf s.smoothConf o.effStab c.clock.candidateStart)
        telemetry :=
          s.telemetry.updateCandidate c.text o.rawConf s.smoothConf o.effStab c.clock.sessionStart
        stateMachine := RuntimeEvent.candidateUpdated.target }

def confirmCandidate (s : WakeEngine) : WakeEngine :=
  match s.candidate with
  | none => s
  | some _ =>
      { s with
        candidate := none
        telemetry := s.telemetry.confirmCandidate
        stateMachine := RuntimeEvent.candidateConfirmed.target }

def dropCandidate (s : WakeEngine) : WakeEngine :=
  match s.candidate with
  | none => s
  | some _ =>
      { s with
        candidate := none
        telemetry := s.telemetry.dropCandidate
        stateMachine := RuntimeEvent.candidateDropped.target }

/-- The candidate life cycle of one call, after the ASR latency is recorded. -/
def trackCandidate (s : WakeEngine) (c : Call) (o : Observation) : WakeEngine :=
  let s := { s with
    telemetry := s.telemetry.registerAsrLatency ((c.clock.matched - c.clock.t0) * 1000) }
  if o.result.phrase ≠ [] ∧ 0.50 ≤ o.rawConf then
    if s.candidate.all (·.phrase ≠ o.result.phrase) then
      let canonicalFromVariant :=
        if o.result.matchedVariant = [] then []
        else (s.matcher.getCanonical lib o.result.matchedVariant).getD []
      s.startCandidate c o
        (if canonicalFromVariant = [] then o.result.phrase else canonicalFromVariant)
    else s.updateCandidate c o
  else if s.candidate.any fun session => 1 < c.clock.now - session.lastUpdate then
    s.dropCandidate
  else s

/-- A generation the EMA has not seen yet. -/
def newGeneration (s : WakeEngine) (c : Call) : Bool :=
  (c.generationId : ℤ) ≠ s.lastSeenGeneration

/-- The matcher reports a phrase other than the last one. -/
def phraseChanged (s : WakeEngine) (phrase : Text) : Bool :=
  phrase ≠ [] ∧ phrase ≠ s.lastMatchedPhrase

/-- `_smooth_conf` after the two resets and the EMA step. -/
def smoothedConf (s : WakeEngine) (c : Call) (o : Observation) : ℚ :=
  let carried := if s.newGeneration c ∨ s.phraseChanged o.result.phrase then 0 else s.smoothConf
  smoothAsym emaRiseAlpha emaDecayAlpha o.rawConf carried

/-- The engine after the EMA stage, before the gates. -/
def scored (s : WakeEngine) (c : Call) : WakeEngine :=
  let o := s.observe lib c
  { s.trackCandidate lib c o with
    buffer := o.buffer
    -- A new generation clears the counter only after it entered the raw score.
    hitCount := if s.newGeneration c then 0 else o.hitCount
    lastSeenGeneration := c.generationId
    smoothConf := s.smoothedConf c o
    lastMatchedPhrase :=
      if s.phraseChanged o.result.phrase then o.result.phrase else s.lastMatchedPhrase }

/-- The trigger threshold of a reported phrase. -/
def triggerThreshold (phrase : Text) : ℚ :=
  if phrase = [] then defaultThreshold else getThreshold phrase

/-- The trigger gate: escape hatch or EMA. -/
def confident (phrase : Text) (rawConf smoothConf : ℚ) : Bool :=
  triggerThreshold phrase + 0.08 ≤ rawConf ∨ triggerThreshold phrase ≤ smoothConf

def wakeEvent (s : WakeEngine) (c : Call) : WakeEvent :=
  let o := s.observe lib c
  { phrase := o.result.phrase
    rawConfidence := o.rawConf
    smoothConfidence := s.smoothedConf c o
    latencyMs := (c.clock.fired - c.clock.t0) * 1000
    generationId := c.generationId
    markedAt := c.clock.marked }

def report (s : WakeEngine) (c : Call) (wake : Option WakeEvent) : CallReport :=
  let o := s.observe lib c
  { window := o.buffer.window
    phrase := o.result.phrase
    rawConf := o.rawConf
    smoothConf := s.smoothedConf c o
    wake := wake }

/-- The FIRE block, on an engine that went through the EMA stage.  The stream
reset it ends with concerns the streamer. -/
def fire (s : WakeEngine) (c : Call) (w : WakeEvent) : WakeEngine :=
  let s := { s with
    lastTriggerGeneration := c.generationId
    cooldown := s.cooldown.markTriggered c.clock.marked
    buffer := s.buffer.clear
    hitCount := 0
    wakeCount := s.wakeCount + 1
    latencySum := s.latencySum + w.latencyMs
    rawSum := s.rawSum + w.rawConfidence
    smoothSum := s.smoothSum + w.smoothConfidence
    telemetry := s.telemetry.registerWake w.latencyMs }
  { s.confirmCandidate with
    stateMachine := RuntimeEvent.cooldown.target
    smoothConf := 0 }

/-- `_on_hypothesis`.  A paused call answers nothing. -/
def onHypothesis (s : WakeEngine) (c : Call) : WakeEngine × Option CallReport :=
  if s.detectionPaused then (s, none)
  else
    let quiet := (s.scored lib c, some (s.report lib c none))
    let w := s.wakeEvent lib c
    if ¬ confident w.phrase w.rawConfidence w.smoothConfidence then quiet
    else if (c.generationId : ℤ) = s.lastTriggerGeneration then quiet
    else if ¬ s.cooldown.canTrigger c.clock.cooldownCheck then quiet
    else ((s.scored lib c).fire c w, some (s.report lib c (some w)))

end WakeEngine

/-! ## Engine runs -/

/-- What can happen to an engine between and at hypotheses. -/
inductive EngineInput where
  /-- One `_on_hypothesis` call. -/
  | hypothesis (c : Call)
  /-- Any change of the registry or the index. -/
  | reconfigure (m : MatcherState)
  /-- `load_profile` of a profile with these effective `wakePhrases`. -/
  | loadProfile (wakePhrases : List PhraseEntry)

def WakeEngine.step (lib : TextLib) (s : WakeEngine) : EngineInput → WakeEngine × Option CallReport
  | .hypothesis c => s.onHypothesis lib c
  | .reconfigure m => ({ s with matcher := m }, none)
  | .loadProfile wakePhrases =>
      match s.matcher.loadPhrases lib wakePhrases with
      | .ok m => ({ s with matcher := m }, none)
      | .error _ => (s, none)

end Kernel
end AvaListener
