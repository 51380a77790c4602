import AvaListener.Kernel.SubsystemLifecycle

/-!
# The threads of the streamer

`SherpaStreamer` of `runtime/asr/streaming.py` shares the life cycles of its ASR, audio
and VAD subsystems between the thread that runs `start`, the worker threads, the
threads that reset the stream (`_reset_stream`, and `_do_stream_reset` of the worker)
and those that call `stop`.  A reset for silence touches no life cycle and is left out.

The life cycles are the cells of a shared system.  A thread is the operation it performs
next; the work between two operations concerns other state.  An exception ends its thread
and is kept in `raised`.  `HybridVAD.__init__` takes the VAD to ACTIVE before anybody else
sees it.
-/

namespace AvaListener
namespace Audio

open Library Kernel

inductive Subsystem where
  | asr
  | audio
  | vad
  deriving DecidableEq, Repr

/-- The life cycle operations of `start`. -/
inductive StartOp where
  | initAsr
  | readyAsr
  | initAudio
  | readyAudio
  | activateAudio
  deriving DecidableEq, Repr

/-- Where `start` is. -/
inductive MainStage where
  | moving (op : StartOp)
  /-- Opening the microphone. -/
  | opening
  /-- The loop until the stop event. -/
  | listening
  deriving DecidableEq, Repr

/-- The operations of a stream reset. -/
inductive ResetOp where
  | faultAsr
  | recoverAsr
  | faultVad
  | recoverVad
  | resumeAsr
  | resumeVad
  deriving DecidableEq, Repr

/-- The operations of `stop`. -/
inductive StopOp where
  | testAsr
  | releaseAsr
  | offlineAsr
  | testAudio
  | releaseAudio
  | offlineAudio
  deriving DecidableEq, Repr

inductive Operation where
  | start (op : StartOp)
  /-- A worker thread enters its loop. -/
  | worker
  | reset (op : ResetOp)
  | stop (op : StopOp)
  deriving DecidableEq, Repr

/-- The threads an exception can end. -/
inductive Caller where
  | main
  | worker
  | reset
  | stop
  deriving DecidableEq, Repr

structure Streamer where
  asr : SubsystemState
  audio : SubsystemState
  vad : SubsystemState
  stopEvent : Bool
  /-- The call of `start`, if one is running. -/
  main : Option MainStage
  /-- Worker threads that have not entered their loop yet. -/
  entering : ℕ
  resets : List ResetOp
  stops : List StopOp
  raised : List Caller
  deriving DecidableEq

inductive StreamerEvent where
  | start
  | micOpens
  /-- Opening the microphone raises. -/
  | micFails
  | loopEnds
  | newReset
  | newStop
  deriving DecidableEq, Repr

/-- The transition that `start` asks for. -/
def StartOp.target : StartOp → SubsystemState
  | initAsr | initAudio => .initializing
  | readyAsr | readyAudio => .ready
  | activateAudio => .active

def StartOp.next : StartOp → MainStage
  | initAsr => .moving readyAsr
  | readyAsr => .moving initAudio
  | initAudio => .moving readyAudio
  | readyAudio => .opening
  | activateAudio => .listening

/-- The next operation of a reset. -/
def ResetOp.next : ResetOp → Option ResetOp
  | faultAsr => some recoverAsr
  | recoverAsr => some faultVad
  | faultVad => some recoverVad
  | recoverVad => some resumeAsr
  | resumeAsr => some resumeVad
  | resumeVad => none

/-- The next operation of a stop; `shutdown` returns at once where it finds OFFLINE. -/
def StopOp.next (found : SubsystemState) : StopOp → Option StopOp
  | testAsr => if found = .offline then some testAudio else some releaseAsr
  | releaseAsr => some offlineAsr
  | offlineAsr => some testAudio
  | testAudio => if found = .offline then none else some releaseAudio
  | releaseAudio => some offlineAudio
  | offlineAudio => none

namespace Operation

/-- The life cycle that an operation moves. -/
def subsystem : Operation → Subsystem
  | start .initAsr | start .readyAsr | worker => .asr
  | start .initAudio | start .readyAudio | start .activateAudio => .audio
  | reset .faultAsr | reset .recoverAsr | reset .resumeAsr => .asr
  | reset .faultVad | reset .recoverVad | reset .resumeVad => .vad
  | stop .testAsr | stop .releaseAsr | stop .offlineAsr => .asr
  | stop .testAudio | stop .releaseAudio | stop .offlineAudio => .audio

def program : Operation → Access SubsystemState
  | start op => SubsystemState.transition op.target
  | worker => SubsystemState.enterRun
  | reset .faultAsr | reset .faultVad => SubsystemState.fault
  | reset .recoverAsr | reset .recoverVad => SubsystemState.beginRecovery
  | reset .resumeAsr | reset .resumeVad => SubsystemState.resume
  | stop .testAsr | stop .testAudio => SubsystemState.testOffline
  | stop .releaseAsr | stop .releaseAudio => SubsystemState.release
  | stop .offlineAsr | stop .offlineAudio => SubsystemState.goOffline

end Operation

namespace Streamer

def init : Streamer := ⟨.offline, .offline, .active, false, none, 0, [], [], []⟩

def view (s : Streamer) : Subsystem → SubsystemState
  | .asr => s.asr
  | .audio => s.audio
  | .vad => s.vad

def put (s : Streamer) (state : SubsystemState) : Subsystem → Streamer
  | .asr => { s with asr := state }
  | .audio => { s with audio := state }
  | .vad => { s with vad := state }

/-- How many threads are at an operation. -/
def waiting (s : Streamer) : Operation → ℕ
  | .start op => if s.main = some (.moving op) then 1 else 0
  | .worker => s.entering
  | .reset op => s.resets.count op
  | .stop op => s.stops.count op

/-- The thread goes on, having left the life cycle in `state`. -/
def proceed (s : Streamer) (state : SubsystemState) : Operation → Streamer
  | .start op =>
      -- The worker thread is started once the ASR is READY.
      { s with
        main := some op.next
        entering := if op = .readyAsr then s.entering + 1 else s.entering }
  | .worker => { s with entering := s.entering - 1 }
  | .reset op => { s with resets := s.resets.erase op ++ op.next.toList }
  | .stop op => { s with stops := s.stops.erase op ++ (op.next state).toList }

/-- The exception ends the thread. -/
def fail (s : Streamer) : Operation → Streamer
  | .start _ => { s with main := none, raised := s.raised ++ [.main] }
  | .worker => { s with entering := s.entering - 1, raised := s.raised ++ [.worker] }
  | .reset op => { s with resets := s.resets.erase op, raised := s.raised ++ [.reset] }
  | .stop op => { s with stops := s.stops.erase op, raised := s.raised ++ [.stop] }

def finish (s : Streamer) (op : Operation) : Option SubsystemState → Streamer
  | some state => (s.put state op.subsystem).proceed state op
  | none => s.fail op

/-- What the threads do beside their operations; `none` where it cannot happen. -/
def event (s : Streamer) : StreamerEvent → Option Streamer
  | .start =>
      if s.main = none then
        some { s with stopEvent := false, main := some (.moving .initAsr) }
      else none
  | .micOpens =>
      if s.main = some .opening then some { s with main := some (.moving .activateAudio) }
      else none
  | .micFails =>
      if s.main = some .opening then
        some { s with main := none, raised := s.raised ++ [.main] }
      else none
  | .loopEnds =>
      if s.main = some .listening ∧ s.stopEvent = true then
        some { s with stopEvent := true, main := none }
      else none
  | .newReset => some { s with resets := s.resets ++ [.faultAsr] }
  | .newStop => some { s with stopEvent := true, stops := s.stops ++ [.testAsr] }

/-- The streamer as a system of threads that share the three life cycles. -/
def threads : SharedSystem Streamer StreamerEvent Operation Subsystem SubsystemState where
  view := view
  cell := Operation.subsystem
  program := Operation.program
  waiting := waiting
  finish := finish
  event := event

/-! ## The threads are those of a shared system -/

variable (s : Streamer)

theorem view_put_self (state : SubsystemState) (c : Subsystem) :
    (s.put state c).view c = state := by
  cases c with
  | _ => rfl

theorem view_put_of_ne (state : SubsystemState) {c d : Subsystem} (h : d ≠ c) :
    (s.put state c).view d = s.view d := by
  cases c with
  | _ =>
    cases d with
    | _ => first | rfl | exact absurd rfl h

@[simp] theorem view_proceed (state : SubsystemState) (op : Operation) (c : Subsystem) :
    (s.proceed state op).view c = s.view c := by
  cases op with
  | _ => cases c <;> rfl

@[simp] theorem view_fail (op : Operation) (c : Subsystem) : (s.fail op).view c = s.view c := by
  cases op with
  | _ => cases c <;> rfl

@[simp] theorem waiting_put (state : SubsystemState) (c : Subsystem) (op : Operation) :
    (s.put state c).waiting op = s.waiting op := by
  cases c with
  | _ => cases op <;> rfl

/-- A thread that leaves an operation leaves the others where they are. -/
theorem count_le_advance {α : Type} [DecidableEq α] (l rest : List α) {q op : α} (h : q ≠ op) :
    l.count q ≤ (l.erase op ++ rest).count q := by
  rw [List.count_append, List.count_erase_of_ne h]
  exact Nat.le_add_right ..

theorem count_le_advance_self {α : Type} [DecidableEq α] (l rest : List α) (op : α) :
    l.count op ≤ (l.erase op ++ rest).count op + 1 := by
  rw [List.count_append, List.count_erase_self]
  omega

variable {s}

/-- `start` is where its thread is. -/
theorem main_of_waiting {op : StartOp} (h : 0 < s.waiting (.start op)) :
    s.main = some (.moving op) := by
  by_contra hmain
  simp [waiting, hmain] at h

theorem waiting_proceed_of_ne (state : SubsystemState) {op q : Operation}
    (hat : 0 < s.waiting op) (h : q ≠ op) : s.waiting q ≤ (s.proceed state op).waiting q := by
  cases op with
  | start op =>
      have hmain := main_of_waiting hat
      cases q with
      | start q =>
          have hq : op ≠ q := fun heq => h (by rw [heq])
          simp [waiting, hmain, hq]
      | worker =>
          show s.entering ≤ if op = .readyAsr then s.entering + 1 else s.entering
          split
          · omega
          · exact Nat.le_refl _
      | reset q => exact Nat.le_refl _
      | stop q => exact Nat.le_refl _
  | worker =>
      cases q with
      | worker => exact absurd rfl h
      | _ => exact Nat.le_refl _
  | reset op =>
      cases q with
      | reset q => exact count_le_advance _ _ fun heq => h (by rw [heq])
      | _ => exact Nat.le_refl _
  | stop op =>
      cases q with
      | stop q => exact count_le_advance _ _ fun heq => h (by rw [heq])
      | _ => exact Nat.le_refl _

theorem waiting_fail_of_ne {op q : Operation} (hat : 0 < s.waiting op) (h : q ≠ op) :
    s.waiting q ≤ (s.fail op).waiting q := by
  cases op with
  | start op =>
      have hmain := main_of_waiting hat
      cases q with
      | start q =>
          have hq : op ≠ q := fun heq => h (by rw [heq])
          simp [waiting, hmain, hq]
      | _ => exact Nat.le_refl _
  | worker =>
      cases q with
      | worker => exact absurd rfl h
      | _ => exact Nat.le_refl _
  | reset op =>
      cases q with
      | reset q =>
          have hq : q ≠ op := fun heq => h (by rw [heq])
          exact Nat.le_of_eq (List.count_erase_of_ne hq).symm
      | _ => exact Nat.le_refl _
  | stop op =>
      cases q with
      | stop q =>
          have hq : q ≠ op := fun heq => h (by rw [heq])
          exact Nat.le_of_eq (List.count_erase_of_ne hq).symm
      | _ => exact Nat.le_refl _

/-- No event takes a thread from an operation. -/
theorem waiting_le_of_event {e : StreamerEvent} {t : Streamer} (h : s.event e = some t)
    (q : Operation) : s.waiting q ≤ t.waiting q := by
  cases e with
  | newReset =>
      cases h
      cases q with
      | reset q => simp [waiting, List.count_append]
      | _ => exact Nat.le_refl _
  | newStop =>
      cases h
      cases q with
      | stop q => simp [waiting, List.count_append]
      | _ => exact Nat.le_refl _
  | loopEnds =>
      obtain ⟨⟨hmain, -⟩, ht⟩ := Option.ite_none_right_eq_some.mp h
      cases ht
      cases q with
      | start q => simp [waiting, hmain]
      | _ => exact Nat.le_refl _
  | _ =>
      obtain ⟨hmain, ht⟩ := Option.ite_none_right_eq_some.mp h
      cases ht
      cases q with
      | start q => simp [waiting, hmain]
      | _ => exact Nat.le_refl _

variable (s)

theorem waiting_proceed_self (state : SubsystemState) (op : Operation) :
    s.waiting op ≤ (s.proceed state op).waiting op + 1 := by
  cases op with
  | start op =>
      simp only [waiting]
      split <;> omega
  | worker =>
      show s.entering ≤ s.entering - 1 + 1
      omega
  | reset op => exact count_le_advance_self ..
  | stop op => exact count_le_advance_self ..

theorem waiting_fail_self (op : Operation) : s.waiting op ≤ (s.fail op).waiting op + 1 := by
  cases op with
  | start op =>
      simp only [waiting]
      split <;> omega
  | worker =>
      show s.entering ≤ s.entering - 1 + 1
      omega
  | reset op =>
      show s.resets.count op ≤ (s.resets.erase op).count op + 1
      rw [List.count_erase_self]
      omega
  | stop op =>
      show s.stops.count op ≤ (s.stops.erase op).count op + 1
      rw [List.count_erase_self]
      omega

theorem threads_lawful : threads.Lawful where
  view_finish_some s op state := (view_proceed ..).trans (view_put_self ..)
  view_finish_none s op c := view_fail ..
  view_finish_of_ne s op result c h := by
    cases result with
    | none => exact view_fail ..
    | some state => exact (view_proceed ..).trans (view_put_of_ne _ _ h)
  waiting_finish_self s op result := by
    cases result with
    | none => exact waiting_fail_self ..
    | some state =>
        have hle := waiting_proceed_self (s.put state op.subsystem) state op
        rw [waiting_put] at hle
        exact hle
  waiting_finish_of_ne s op result q hat h := by
    cases result with
    | none => exact waiting_fail_of_ne hat h
    | some state =>
        have hput : 0 < (s.put state op.subsystem).waiting op := by
          rw [waiting_put]
          exact hat
        have hle := waiting_proceed_of_ne state hput h
        rw [waiting_put] at hle
        exact hle
  view_event s e t h c := by
    cases e with
    | newReset => cases h; cases c <;> rfl
    | newStop => cases h; cases c <;> rfl
    | _ =>
      obtain ⟨-, ht⟩ := Option.ite_none_right_eq_some.mp h
      cases ht
      cases c <;> rfl
  waiting_event s e t h q := waiting_le_of_event h q
  program_reads op := by
    cases op with
    | worker => rfl
    | _ op => cases op <;> rfl

end Streamer

end Audio
end AvaListener
