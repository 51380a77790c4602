import AvaListener.Library.Runs
import AvaListener.Sdk.StateMachine
import AvaListener.Sdk.Transport

/-!
# Calls of the SDK that overlap

`node/lifecycle.js` with its asynchronous calls: a call runs up to its first `await`
and is then pending, and it goes on when what it waits for has settled, whatever else
was called and whatever the transports reported in between.

A transport that `start` made lives on when `start` fails.  Its listeners work on the
life cycle's present transport (`this.transport`), which may be another one, or none.
`processManager` holds at most one process.

An exception in a listener ends the handler that emitted the event, and nothing else.
The options of `start` other than `startPaused` are left out, and so are the messages
and the listeners of the application.
-/

namespace AvaListener
namespace Sdk

open Library

/-! ## The state -/

/-- A transport with what `start` keeps for it. -/
structure OwnedTransport where
  conn : SdkTransport
  previousState : Option SdkState
  /-- The option of the `start` that made it, which its listener closes over. -/
  startPaused : Bool
  /-- How the promise of the first `connect` settled. -/
  settled : Option Bool
  deriving DecidableEq

/-- What a pending `start` waits for.  From the spawn on, with its process and, from
`connect` on, its transport. -/
inductive Awaited where
  | validation
  | models
  /-- `spawnSupervisor` has refused: 'Supervisor is already running.' -/
  | refusal
  | spawn (proc : ℕ)
  | connect (proc transport : ℕ)
  | handshake (proc transport : ℕ)
  | ready (proc transport : ℕ)
  deriving DecidableEq

inductive PendingCall where
  | start (awaited : Awaited) (startPaused : Bool)
  /-- At `await this.processManager.stop()`, inside `restart` or not. -/
  | stop (restarts : Bool)
  /-- A `restart` whose `stop` is over. -/
  | restart
  deriving DecidableEq

structure Listener where
  fsm : SdkState
  /-- All transports made so far. -/
  transports : List OwnedTransport
  /-- `this.transport`. -/
  transport : Option ℕ
  /-- `processManager.proc`. -/
  proc : Option ℕ
  /-- The processes spawned so far, and those that have exited. -/
  spawned : ℕ
  exited : List ℕ
  pending : List PendingCall
  /-- The transport of every reconnect attempt made, and of every event whose listener
  changed the state. -/
  activity : List ℕ
  destroyCalled : Bool
  destroyThrew : Bool
  deriving DecidableEq

inductive CallLabel where
  /-- `start`; the bootstrap up to the first `await` may fail. -/
  | start (startPaused bootstraps : Bool)
  | pause
  | resume
  | stop
  | restart
  | destroy
  /-- What a pending call waits for is there, or has failed.  The flag is for the
  bootstrap of a `start` that begins. -/
  | resolve (i : ℕ) (bootstraps : Bool)
  | reject (i : ℕ)
  /-- An event of a transport's socket or timer. -/
  | transport (k : ℕ) (l : TransportLabel)
  /-- A process exits. -/
  | exit (proc : ℕ)
  deriving DecidableEq

/-- A transport right after `connect`. -/
def SdkTransport.connecting : SdkTransport :=
  { SdkTransport.init with socket := some (.connecting false) }

/-- `close`. -/
def SdkTransport.close (t : SdkTransport) : SdkTransport :=
  { t with stopped := true, reconnectTimer := none, isConnected := false }

theorem SdkTransport.step_close (t : SdkTransport) : t.step .close = some (t.close, []) := rfl

/-- A new transport, right after its first `connect`. -/
def OwnedTransport.dialled (startPaused : Bool) : OwnedTransport :=
  ⟨.connecting, none, startPaused, none⟩

/-- The promise of the first `connect`, after an event of its socket. -/
def OwnedTransport.settles (o : OwnedTransport) (l : TransportLabel) : Option Bool :=
  match o.settled, o.conn.socket, l with
  | none, some (.connecting false), .opened => some true
  | none, some (.connecting false), .errored => some false
  | settled, _, _ => settled

def TransportEvent.isRecovering : TransportEvent → Bool
  | .recovering _ _ => true
  | _ => false

/-- The reconnect timer makes an attempt. -/
def TransportLabel.isAttempt : TransportLabel → Bool
  | .fire _ => true
  | _ => false

namespace Listener

def init : Listener := ⟨.uninitialized, [], none, none, 0, [], [], [], false, false⟩

/-! ## Parts of the calls -/

/-- `fsm.transition`; `none` where it throws. -/
def enter (s : Listener) (new : SdkState) : Option Listener :=
  (s.fsm.transition new).map fun fsm => { s with fsm := fsm }

/-- A transition whose exception goes no further. -/
def tryEnter (s : Listener) (new : SdkState) : Listener :=
  { s with fsm := (s.fsm.transition new).getD s.fsm }

def suspend (s : Listener) (c : PendingCall) : Listener :=
  { s with pending := s.pending ++ [c] }

/-- The pending call waits for something else. -/
def await (s : Listener) (i : ℕ) (c : PendingCall) : Listener :=
  { s with pending := s.pending.set i c }

/-- The pending call is over. -/
def settle (s : Listener) (i : ℕ) : Listener :=
  { s with pending := s.pending.eraseIdx i }

/-- `start` up to its first `await`. -/
def beginStart (s : Listener) (startPaused bootstraps : Bool) : Listener :=
  match s.enter .starting with
  | none => s
  | some s =>
      if bootstraps then s.suspend (.start .validation startPaused) else s.tryEnter .failed

/-- The `catch` of `start`. -/
def failStart (s : Listener) (i : ℕ) : Listener :=
  (s.tryEnter .failed).settle i

/-- `this.transport = new Transport(...)` with its first `connect`. -/
def addTransport (s : Listener) (startPaused : Bool) : Listener :=
  { s with
    transports := s.transports ++ [.dialled startPaused]
    transport := some s.transports.length }

/-- `this.transport.close()` and `this.transport = null`. -/
def closeTransport (s : Listener) : Listener :=
  match s.transport with
  | none => s
  | some k =>
      { s with
        transports := s.transports.modify k fun o => { o with conn := o.conn.close }
        transport := none }

/-- `stop` up to its `await`. -/
def beginStop (s : Listener) (restarts : Bool) : Listener :=
  if s.fsm = .stopped ∨ s.fsm = .destroyed then if restarts then s.suspend .restart else s
  else
    match s.enter .stopping with
    | none => s
    | some s => { s.closeTransport with proc := none }.suspend (.stop restarts)

/-- `destroy`. -/
def destroy (s : Listener) : Listener :=
  let s := { s.beginStop false with destroyCalled := true }
  match s.enter .destroyed with
  | none => { s with destroyThrew := true }
  | some s => s

/-- `start` goes on.  A wait for the `ready` status only ends while there is a transport:
both its listener and its timer throw at `this.transport.removeListener` otherwise. -/
def resolveStart (s : Listener) (i : ℕ) (startPaused : Bool) : Awaited → Option Listener
  | .validation =>
      match s.enter .installing with
      | none => some (s.failStart i)
      | some s => some (s.await i (.start .models startPaused))
  | .models =>
      match s.proc with
      | some _ => some (s.await i (.start .refusal startPaused))
      | none =>
          some ({ s with proc := some s.spawned, spawned := s.spawned + 1 }.await i
            (.start (.spawn s.spawned) startPaused))
  | .refusal => none
  | .spawn p =>
      if p ∈ s.exited then none
      else
        match s.enter .connecting with
        | none => some (s.failStart i)
        | some s =>
            some ((s.addTransport startPaused).await i
              (.start (.connect p s.transports.length) startPaused))
  | .connect p k =>
      if (s.transports[k]?).bind OwnedTransport.settled = some true then
        if s.transport = none then some (s.failStart i)
        else some (s.await i (.start (.handshake p k) startPaused))
      else none
  | .handshake p k =>
      if s.transport = none then some (s.failStart i)
      else some (s.await i (.start (.ready p k) startPaused))
  | .ready _ _ =>
      if s.transport = none then none
      else
        match s.enter .ready with
        | none => some (s.failStart i)
        | some s => some ((if startPaused then s else s.tryEnter .running).settle i)

/-- What `start` waits for fails. -/
def rejectStart (s : Listener) (i : ℕ) : Awaited → Option Listener
  | .validation | .models | .refusal | .handshake _ _ => some (s.failStart i)
  | .spawn p => if p ∈ s.exited then some (s.failStart i) else none
  | .connect _ k =>
      if (s.transports[k]?).bind OwnedTransport.settled = some false then some (s.failStart i)
      else none
  | .ready _ _ => if s.transport = none then none else some (s.failStart i)

def resolve (s : Listener) (i : ℕ) (bootstraps : Bool) : Option Listener :=
  match s.pending[i]? with
  | none => none
  | some (.start awaited startPaused) => s.resolveStart i startPaused awaited
  | some (.stop restarts) =>
      match (s.settle i).enter .stopped with
      | none => some (s.settle i)
      | some s => some (if restarts then s.suspend .restart else s)
  | some .restart => some ((s.settle i).beginStart false bootstraps)

def reject (s : Listener) (i : ℕ) : Option Listener :=
  match s.pending[i]? with
  | some (.start awaited _) => s.rejectStart i awaited
  | _ => none

/-! ## The transports -/

/-- The listeners of an event of a transport, of which `startPaused` is closed over. -/
def hear (startPaused : Bool) (s : Listener) : TransportEvent → Listener
  | .recovering _ _ =>
      match s.transport with
      | none => s
      | some j =>
          let s := { s with
            transports := s.transports.modify j fun o => { o with previousState := some s.fsm } }
          if s.fsm.isActive then s.tryEnter .recovering else s
  | .reconnected _ =>
      match s.transport with
      | none => s
      | some j =>
          if s.fsm = .recovering then
            let restored := s.tryEnter .ready
            if (s.transports[j]?).bind OwnedTransport.previousState = some .running ∧
                startPaused = false then
              restored.tryEnter .running
            else restored
          else s
  | .failed => s.tryEnter .failed
  | _ => s

/-- After a callback of transport `k` that left it as `conn` and emitted `events`.  Without
a transport the listener of `recovering` throws before the timer is set. -/
def received (s : Listener) (k : ℕ) (o : OwnedTransport) (l : TransportLabel)
    (conn : SdkTransport) (events : List TransportEvent) : Listener :=
  let conn := if s.transport = none ∧ events.any TransportEvent.isRecovering then
    { conn with reconnectTimer := o.conn.reconnectTimer } else conn
  { s with transports := s.transports.set k { o with conn := conn, settled := o.settles l } }

/-- The listeners hear the events. -/
def emit (s : Listener) (k : ℕ) (o : OwnedTransport) (l : TransportLabel)
    (conn : SdkTransport) (events : List TransportEvent) : Listener :=
  let t := events.foldl (hear o.startPaused) (s.received k o l conn events)
  { t with
    activity := t.activity ++ if l.isAttempt = true ∨ t.fsm ≠ s.fsm then [k] else [] }

def transportStep (s : Listener) (k : ℕ) (l : TransportLabel) : Option Listener :=
  match s.transports[k]?, l with
  | none, _ | _, .connect | _, .close => none
  | some o, l => (o.conn.step l).map fun r => s.emit k o l r.1 r.2

def step (s : Listener) : CallLabel → Option Listener
  | .start startPaused bootstraps => some (s.beginStart startPaused bootstraps)
  | .pause => some (if s.fsm = .running then s.tryEnter .paused else s)
  | .resume => some (if s.fsm = .ready ∨ s.fsm = .paused then s.tryEnter .running else s)
  | .stop => some (s.beginStop false)
  | .restart => some (if s.fsm = .destroyed then s else s.beginStop true)
  | .destroy => some s.destroy
  | .resolve i bootstraps => s.resolve i bootstraps
  | .reject i => s.reject i
  | .transport k l => s.transportStep k l
  | .exit p =>
      if p < s.spawned ∧ p ∉ s.exited then
        -- The handler clears the field whatever process it holds by now.
        some { s with proc := none, exited := s.exited ++ [p] }
      else none

end Listener

end Sdk
end AvaListener
