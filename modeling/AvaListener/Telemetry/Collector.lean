import Mathlib.Algebra.Order.Floor.Defs
import Mathlib.Data.Rat.Floor
import AvaListener.Library.PyText

/-!
# Telemetry of candidate sessions

`runtime/telemetry/collector.py`, the part the engine drives: wake and latency
counters and the life cycle of a candidate session.  The engine keeps a
`CandidateSession` of its own with the same fields.
-/

namespace AvaListener
namespace Telemetry

open Library

/-- Nearest integer, ties to even. -/
def roundHalfEven (x : ℚ) : ℤ :=
  if x - ⌊x⌋ < 1 / 2 then ⌊x⌋
  else if 1 / 2 < x - ⌊x⌋ then ⌊x⌋ + 1
  else if ⌊x⌋ % 2 = 0 then ⌊x⌋ else ⌊x⌋ + 1

/-- `round(x, digits)`. -/
def roundTo (digits : ℕ) (x : ℚ) : ℚ :=
  roundHalfEven (x * 10 ^ digits) / 10 ^ digits

inductive CandidateState where
  | started
  | updated
  | confirmed
  | dropped
  deriving DecidableEq, Repr

structure CandidateSession where
  phrase : Text
  variant : Text
  canonical : Text
  startTime : ℚ
  lastUpdate : ℚ
  peakRaw : ℚ
  peakSmooth : ℚ
  transcriptEvolution : List Text
  stabilizationFrames : ℕ
  state : CandidateState
  deriving DecidableEq

namespace CandidateSession

/-- A session as both the engine and the collector create it; `start` and
`last` are the two clock readings of the constructor call. -/
def begin (phrase variant canonical text : Text) (rawConf smoothConf : ℚ) (frames : ℕ)
    (start last : ℚ) : CandidateSession :=
  ⟨phrase, variant, canonical, start, last, rawConf, smoothConf, [text], frames, .started⟩

def update (c : CandidateSession) (text : Text) (rawConf smoothConf : ℚ) (frames : ℕ)
    (now : ℚ) : CandidateSession :=
  { c with
    lastUpdate := now
    transcriptEvolution := c.transcriptEvolution ++ [text]
    peakRaw := max c.peakRaw rawConf
    peakSmooth := max c.peakSmooth smoothConf
    stabilizationFrames := max c.stabilizationFrames frames
    state := .updated }

def durationMs (c : CandidateSession) : ℚ :=
  (c.lastUpdate - c.startTime) * 1000

end CandidateSession

/-- An archived session. -/
structure CandidateSnapshot where
  phrase : Text
  variant : Text
  canonical : Text
  state : CandidateState
  durationMs : ℚ
  peakRaw : ℚ
  peakSmooth : ℚ
  stabilizationFrames : ℕ
  transcriptEvolution : List Text
  lastUpdate : ℚ
  /-- `archived_reason == "replaced"`. -/
  replaced : Bool
  deriving DecidableEq

structure TelemetryCollector where
  wakeCount : ℕ
  falseWakeCount : ℕ
  triggerLatencyMs : List ℚ
  asrLatenciesMs : List ℚ
  candidateSessions : List CandidateSnapshot
  activeCandidate : Option CandidateSession
  deriving DecidableEq

namespace TelemetryCollector

/-- `reset`. -/
def init : TelemetryCollector := ⟨0, 0, [], [], [], none⟩

def registerWake (t : TelemetryCollector) (latencyMs : ℚ) : TelemetryCollector :=
  { t with wakeCount := t.wakeCount + 1, triggerLatencyMs := t.triggerLatencyMs ++ [latencyMs] }

def registerFalseWake (t : TelemetryCollector) : TelemetryCollector :=
  { t with falseWakeCount := t.falseWakeCount + 1 }

def registerAsrLatency (t : TelemetryCollector) (latencyMs : ℚ) : TelemetryCollector :=
  { t with asrLatenciesMs := t.asrLatenciesMs ++ [latencyMs] }

/-- `_candidate_snapshot` of a session moved to `state`. -/
def snapshot (c : CandidateSession) (state : CandidateState) (replaced : Bool) :
    CandidateSnapshot :=
  ⟨c.phrase, c.variant, c.canonical, state, roundTo 1 c.durationMs, roundTo 3 c.peakRaw,
    roundTo 3 c.peakSmooth, c.stabilizationFrames, c.transcriptEvolution,
    roundTo 3 c.lastUpdate, replaced⟩

/-- Append the active session, closed in `state`, to the archive. -/
def archive (t : TelemetryCollector) (state : CandidateState) (replaced : Bool) :
    TelemetryCollector :=
  match t.activeCandidate with
  | none => t
  | some c =>
      { t with
        candidateSessions := t.candidateSessions ++ [snapshot c state replaced]
        activeCandidate := none }

def confirmCandidate (t : TelemetryCollector) : TelemetryCollector :=
  t.archive .confirmed false

def dropCandidate (t : TelemetryCollector) : TelemetryCollector :=
  if t.activeCandidate.isNone then t else (t.archive .dropped false).registerFalseWake

/-- `_archive_candidate("replaced")`. -/
def replaceCandidate (t : TelemetryCollector) : TelemetryCollector :=
  if t.activeCandidate.isNone then t else (t.archive .dropped true).registerFalseWake

def startCandidate (t : TelemetryCollector) (session : CandidateSession) : TelemetryCollector :=
  { t.replaceCandidate with activeCandidate := some session }

def updateCandidate (t : TelemetryCollector) (text : Text) (rawConf smoothConf : ℚ) (frames : ℕ)
    (now : ℚ) : TelemetryCollector :=
  { t with activeCandidate := t.activeCandidate.map (·.update text rawConf smoothConf frames now) }

end TelemetryCollector

end Telemetry
end AvaListener
