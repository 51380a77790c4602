import AvaListener.Sdk.StateMachine
import AvaListener.Transport.Envelope

/-!
# The SDK's life cycle

`node/lifecycle.js` as far as it changes the state machine or writes to the
transport: the stages of `start`, `pause`, `resume`, `stop`, the commands, and the
transport events.  One step is one stretch of code without an `await`; a call that
throws changes nothing and sends nothing.
-/

namespace AvaListener
namespace Sdk

open Library Transport

/-- The fields of `Lifecycle` and of its transport. -/
structure Lifecycle where
  fsm : SdkState
  /-- There is a transport and its socket is open. -/
  isConnected : Bool
  previousState : Option SdkState
  /-- The option of the last `start`. -/
  startPaused : Bool
  deriving DecidableEq

inductive SdkStep where
  /-- `start`, up to the first `await`. -/
  | start (startPaused : Bool)
  | install
  /-- The supervisor has been spawned and a transport created. -/
  | connect
  /-- The socket opened. -/
  | opened
  /-- The worker's `ready` status arrived: the end of `start`. -/
  | ready
  /-- `start` failed at some stage. -/
  | startFailed
  | pause
  | resume
  | loadProfile (path : Text)
  /-- Any of the other commands that need an active state, by its name. -/
  | command (name : Text)
  /-- The socket closed and the transport schedules an attempt. -/
  | recovering
  | reconnected
  /-- The last attempt's socket closed. -/
  | reconnectFailed
  | stop
  | stopped
  deriving DecidableEq

namespace Lifecycle

def init : Lifecycle := ⟨.uninitialized, false, none, false⟩

def configure (payload : Payload) : Envelope := ⟨"configure".toList, payload⟩

/-- `_sendDetectionGate`. -/
def sendDetectionGate (s : Lifecycle) (paused : Bool) : List Envelope :=
  if s.isConnected then [configure { Payload.empty with detectionPaused := some paused }] else []

/-- `fsm.transition`, on the life cycle. -/
def enter (s : Lifecycle) (new : SdkState) : Option Lifecycle :=
  (s.fsm.transition new).map fun fsm => { s with fsm := fsm }

/-- `transport.send` of a `configure` envelope, which is dropped while there is no
connection. -/
def sendConfigure (s : Lifecycle) (payload : Payload) : List Envelope :=
  if s.isConnected then [configure payload] else []

/-- The state after a step and the envelopes it sends; `none` where the call
throws. -/
def step (s : Lifecycle) : SdkStep → Option (Lifecycle × List Envelope)
  | .start startPaused =>
      ({ s with startPaused := startPaused }.enter .starting).map (·, [])
  | .install => (s.enter .installing).map (·, [])
  | .connect => ({ s with isConnected := false, previousState := none }.enter .connecting).map (·, [])
  | .opened => some ({ s with isConnected := true }, [])
  | .ready =>
      (s.enter .ready).bind fun s =>
        if s.startPaused then some (s, s.sendDetectionGate true)
        else (s.enter .running).map (·, s.sendDetectionGate false)
  | .startFailed => (s.enter .failed).map (·, [])
  | .pause =>
      if s.fsm = .running then (s.enter .paused).map (·, s.sendDetectionGate true) else none
  | .resume =>
      if s.fsm = .ready ∨ s.fsm = .paused then
        (s.enter .running).map (·, s.sendDetectionGate false)
      else none
  | .loadProfile path =>
      if s.fsm.isActive then
        some (s, s.sendConfigure ⟨some "load_profile".toList, some path, none⟩)
      else none
  | .command name =>
      if s.fsm.isActive then some (s, s.sendConfigure ⟨some name, none, none⟩) else none
  | .recovering =>
      let s := { s with isConnected := false, previousState := some s.fsm }
      if s.fsm.isActive then (s.enter .recovering).map (·, []) else some (s, [])
  | .reconnected =>
      let s := { s with isConnected := true }
      if s.fsm = .recovering then
        (s.enter .ready).bind fun t =>
          if s.startPaused = false ∧ s.previousState = some .running then
            (t.enter .running).map (·, [])
          else some (t, [])
      else some (s, [])
  | .reconnectFailed => ({ s with isConnected := false }.enter .failed).map (·, [])
  | .stop =>
      if s.fsm = .stopped ∨ s.fsm = .destroyed then some (s, [])
      else
        ({ s with isConnected := false }.enter .stopping).map
          (·, if s.isConnected then [⟨"shutdown".toList, Payload.empty⟩] else [])
  | .stopped => (s.enter .stopped).map (·, [])

end Lifecycle

end Sdk
end AvaListener
