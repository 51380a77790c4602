import AvaListener.Telemetry.Collector

/-!
# The log of candidate sessions

What the candidate methods of the collector are for: at most one candidate is
open, every other one ever started has been closed once, as confirmed or as
dropped, and a drop is a false wake.  `CandidateLog` says this with phrases and
closing states only; the collector refines it.
-/

namespace AvaListener
namespace Telemetry

open Library

/-- The open candidate and the closed ones, oldest first. -/
structure CandidateLog where
  active : Option Text
  closed : List (Text × CandidateState)
  deriving DecidableEq

namespace CandidateLog

/-- Close the open candidate, if there is one. -/
def close (l : CandidateLog) (state : CandidateState) : CandidateLog :=
  match l.active with
  | none => l
  | some phrase => ⟨none, l.closed ++ [(phrase, state)]⟩

/-- Open a candidate; one that is still open counts as dropped. -/
def start (l : CandidateLog) (phrase : Text) : CandidateLog :=
  ⟨some phrase, (l.close .dropped).closed⟩

/-- All candidates of the log, open or closed. -/
def size (l : CandidateLog) : ℕ :=
  l.closed.length + if l.active.isSome then 1 else 0

/-- How many candidates were closed in `state`. -/
def closedAs (l : CandidateLog) (state : CandidateState) : ℕ :=
  l.closed.countP (·.2 = state)

variable (l : CandidateLog) (state : CandidateState) (phrase : Text)

@[simp] theorem close_active : (l.close state).active = none := by
  unfold close
  split
  · assumption
  · rfl

theorem close_of_none (h : l.active = none) : l.close state = l := by
  simp [close, h]

theorem close_of_some (h : l.active = some phrase) :
    l.close state = ⟨none, l.closed ++ [(phrase, state)]⟩ := by
  simp [close, h]

@[simp] theorem start_active : (l.start phrase).active = some phrase := rfl

theorem close_closed :
    (l.close state).closed = l.closed ++ l.active.toList.map fun p => (p, state) := by
  cases h : l.active with
  | none => simp [close_of_none l state h]
  | some p => simp [close_of_some l state p h]

theorem start_closed :
    (l.start phrase).closed = l.closed ++ l.active.toList.map fun p => (p, .dropped) :=
  close_closed l .dropped

/-- Closing a candidate loses none. -/
@[simp] theorem size_close : (l.close state).size = l.size := by
  cases h : l.active with
  | none => rw [close_of_none l state h]
  | some p => simp [close_of_some l state p h, size, h]

/-- Opening a candidate adds one. -/
@[simp] theorem size_start : (l.start phrase).size = l.size + 1 := by
  have hclose := size_close l .dropped
  simp only [size, close_active, Option.isSome_none, Bool.false_eq_true, if_false] at hclose
  simp [size, start] at hclose ⊢
  omega

theorem closedAs_close_of_some (other : CandidateState) (h : l.active = some phrase) :
    (l.close state).closedAs other = l.closedAs other + if state = other then 1 else 0 := by
  simp [close_of_some l state phrase h, closedAs, List.countP_singleton]

theorem closedAs_close_of_ne {other : CandidateState} (h : state ≠ other) :
    (l.close state).closedAs other = l.closedAs other := by
  cases hactive : l.active with
  | none => rw [close_of_none l state hactive]
  | some p => rw [closedAs_close_of_some l state p other hactive, if_neg h, Nat.add_zero]

@[simp] theorem closedAs_start (other : CandidateState) :
    (l.start phrase).closedAs other = (l.close .dropped).closedAs other := rfl

/-- Every closed candidate is confirmed or dropped. -/
def Settled (l : CandidateLog) : Prop :=
  ∀ x ∈ l.closed, x.2 = .confirmed ∨ x.2 = .dropped

variable {l}

theorem Settled.close (h : l.Settled) {state : CandidateState}
    (hstate : state = .confirmed ∨ state = .dropped) : (l.close state).Settled := by
  intro x hx
  rw [close_closed, List.mem_append, List.mem_map] at hx
  rcases hx with hold | ⟨p, -, rfl⟩
  · exact h x hold
  · exact hstate

theorem Settled.start (h : l.Settled) (phrase : Text) : (l.start phrase).Settled :=
  h.close (Or.inr rfl)

/-- The confirmed and the dropped candidates are all that were closed. -/
theorem Settled.length_closed (h : l.Settled) :
    l.closed.length = l.closedAs .confirmed + l.closedAs .dropped := by
  have hrest : l.closed.countP (fun x => ¬ x.2 = .confirmed) = l.closedAs .dropped := by
    refine List.countP_congr fun x hx => ?_
    rcases h x hx with hstate | hstate
    · simp [hstate]
    · simp [hstate]
  rw [List.length_eq_countP_add_countP (fun x => decide (x.2 = .confirmed)), closedAs, ← hrest]
  simp

end CandidateLog

namespace TelemetryCollector

/-- The log a collector keeps. -/
def candidateLog (t : TelemetryCollector) : CandidateLog :=
  ⟨t.activeCandidate.map (·.phrase), t.candidateSessions.map fun x => (x.phrase, x.state)⟩

variable (t : TelemetryCollector)

@[simp] theorem candidateLog_registerWake (latencyMs : ℚ) :
    (t.registerWake latencyMs).candidateLog = t.candidateLog := rfl

@[simp] theorem candidateLog_registerAsrLatency (latencyMs : ℚ) :
    (t.registerAsrLatency latencyMs).candidateLog = t.candidateLog := rfl

@[simp] theorem candidateLog_registerFalseWake :
    t.registerFalseWake.candidateLog = t.candidateLog := rfl

theorem candidateLog_archive (state : CandidateState) (replaced : Bool) :
    (t.archive state replaced).candidateLog = t.candidateLog.close state := by
  cases h : t.activeCandidate with
  | none => simp [archive, candidateLog, CandidateLog.close, h]
  | some c => simp [archive, candidateLog, CandidateLog.close, snapshot, h]

@[simp] theorem candidateLog_confirmCandidate :
    t.confirmCandidate.candidateLog = t.candidateLog.close .confirmed :=
  candidateLog_archive t .confirmed false

theorem candidateLog_active_isNone (h : t.activeCandidate.isNone = true) :
    t.candidateLog.active = none := by
  simpa [candidateLog] using h

@[simp] theorem candidateLog_dropCandidate :
    t.dropCandidate.candidateLog = t.candidateLog.close .dropped := by
  unfold dropCandidate
  split
  · next hnone => exact (CandidateLog.close_of_none _ _ (candidateLog_active_isNone t hnone)).symm
  · exact candidateLog_archive t .dropped false

theorem candidateLog_replaceCandidate :
    t.replaceCandidate.candidateLog = t.candidateLog.close .dropped := by
  unfold replaceCandidate
  split
  · next hnone => exact (CandidateLog.close_of_none _ _ (candidateLog_active_isNone t hnone)).symm
  · exact candidateLog_archive t .dropped true

@[simp] theorem candidateLog_startCandidate (session : CandidateSession) :
    (t.startCandidate session).candidateLog = t.candidateLog.start session.phrase := by
  have hclosed := congrArg CandidateLog.closed (candidateLog_replaceCandidate t)
  exact congrArg (CandidateLog.mk (some session.phrase)) hclosed

/-- An update changes neither the phrase nor the archive. -/
@[simp] theorem candidateLog_updateCandidate (text : Text) (rawConf smoothConf : ℚ)
    (frames : ℕ) (now : ℚ) :
    (t.updateCandidate text rawConf smoothConf frames now).candidateLog = t.candidateLog := by
  simp [updateCandidate, candidateLog, Function.comp_def, CandidateSession.update]

/-! ## Wakes -/

theorem wakeCount_archive (state : CandidateState) (replaced : Bool) :
    (t.archive state replaced).wakeCount = t.wakeCount := by
  unfold archive
  split
  · rfl
  · rfl

@[simp] theorem wakeCount_confirmCandidate : t.confirmCandidate.wakeCount = t.wakeCount :=
  wakeCount_archive t .confirmed false

@[simp] theorem wakeCount_dropCandidate : t.dropCandidate.wakeCount = t.wakeCount := by
  unfold dropCandidate
  split
  · rfl
  · exact wakeCount_archive t .dropped false

@[simp] theorem wakeCount_startCandidate (session : CandidateSession) :
    (t.startCandidate session).wakeCount = t.wakeCount := by
  show t.replaceCandidate.wakeCount = t.wakeCount
  unfold replaceCandidate
  split
  · rfl
  · exact wakeCount_archive t .dropped true

/-! ## False wakes -/

/-- The false wakes are the candidates closed as dropped. -/
def Tallied (t : TelemetryCollector) : Prop :=
  t.falseWakeCount = t.candidateLog.closedAs .dropped

variable {t}

theorem Tallied.confirmCandidate (h : t.Tallied) : t.confirmCandidate.Tallied := by
  have hcount : t.confirmCandidate.falseWakeCount = t.falseWakeCount := by
    unfold TelemetryCollector.confirmCandidate archive
    split
    · rfl
    · rfl
  rw [Tallied, candidateLog_confirmCandidate, hcount,
    CandidateLog.closedAs_close_of_ne _ _ (by decide)]
  exact h

/-- Closing an open candidate as dropped comes with a false wake, whatever the
recorded reason. -/
theorem Tallied.archive_dropped (h : t.Tallied) (hsome : ¬ t.activeCandidate.isNone = true)
    (replaced : Bool) : ((t.archive .dropped replaced).registerFalseWake).Tallied := by
  cases hactive : t.activeCandidate with
  | none => exact absurd (by simp [hactive]) hsome
  | some c =>
      have hlog : t.candidateLog.active = some c.phrase := by simp [candidateLog, hactive]
      have hcount : ((t.archive .dropped replaced).registerFalseWake).falseWakeCount =
          t.falseWakeCount + 1 := by
        simp [registerFalseWake, archive, hactive]
      rw [Tallied, candidateLog_registerFalseWake, candidateLog_archive, hcount,
        CandidateLog.closedAs_close_of_some _ _ _ _ hlog, if_pos rfl]
      exact congrArg (· + 1) h

theorem Tallied.dropCandidate (h : t.Tallied) : t.dropCandidate.Tallied := by
  unfold TelemetryCollector.dropCandidate
  split
  · exact h
  · next hsome => exact h.archive_dropped hsome false

theorem Tallied.startCandidate (h : t.Tallied) (session : CandidateSession) :
    (t.startCandidate session).Tallied := by
  have hreplace : t.replaceCandidate.Tallied := by
    unfold TelemetryCollector.replaceCandidate
    split
    · exact h
    · next hsome => exact h.archive_dropped hsome true
  exact hreplace

theorem Tallied.updateCandidate (h : t.Tallied) (text : Text) (rawConf smoothConf : ℚ)
    (frames : ℕ) (now : ℚ) :
    (t.updateCandidate text rawConf smoothConf frames now).Tallied := by
  rw [Tallied, candidateLog_updateCandidate]
  exact h

end TelemetryCollector

end Telemetry
end AvaListener
