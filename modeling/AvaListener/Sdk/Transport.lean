import Mathlib.Data.List.Basic

/-!
# The SDK's transport

`node/transport.js` as far as it manages its connection: the events of the current
WebSocket, the reconnect timer and `close`.  A new socket is only made by the first
`connect` and by the timer, which runs only after the previous socket has closed, so
there is one socket at a time.

A `ws` socket that is closed while connecting does not open any more.
-/

namespace AvaListener
namespace Sdk

/-- `RECONNECT_DELAYS`. -/
def reconnectDelays : List ℕ := [200, 400, 800, 1600, 3200]

inductive Socket where
  /-- Made by the reconnect timer, or by the first `connect`. -/
  | connecting (reconnect : Bool)
  | opened
  deriving DecidableEq, Repr

inductive TransportEvent where
  | connected
  | disconnected
  | recovering (attempt delay : ℕ)
  | reconnected (attempts : ℕ)
  | failed
  | error
  deriving DecidableEq, Repr

inductive TransportLabel where
  /-- The first `connect`. -/
  | connect
  /-- The events of the socket. -/
  | opened
  | errored
  | closed (now : ℕ)
  /-- The reconnect timer fires. -/
  | fire (now : ℕ)
  /-- `close`. -/
  | close
  deriving DecidableEq, Repr

structure SdkTransport where
  /-- The socket that has not emitted `close` yet. -/
  socket : Option Socket
  isConnected : Bool
  reconnectAttempts : ℕ
  /-- When the timer is due, if it runs. -/
  reconnectTimer : Option ℕ
  stopped : Bool
  deriving DecidableEq, Repr

namespace SdkTransport

def init : SdkTransport := ⟨none, false, 0, none, false⟩

/-- `_scheduleReconnect` of a transport that is not stopped. -/
def scheduleReconnect (t : SdkTransport) (now : ℕ) : SdkTransport × List TransportEvent :=
  match reconnectDelays[t.reconnectAttempts]? with
  | none => (t, [.failed])
  | some delay =>
      ({ t with reconnectTimer := some (now + delay) },
        [.recovering (t.reconnectAttempts + 1) delay])

/-- The transport after a callback and the events it emits. -/
def step (t : SdkTransport) : TransportLabel → Option (SdkTransport × List TransportEvent)
  | .connect =>
      if t.socket = none ∧ t.reconnectTimer = none ∧ t.stopped = false then
        some ({ t with socket := some (.connecting false) }, [])
      else none
  | .opened =>
      match t.socket with
      | some (.connecting reconnect) =>
          if t.stopped then none
          else
            -- The continuation of a reconnect runs right after the handler, which has
            -- already set the counter to zero.
            some ({ t with socket := some .opened, isConnected := true, reconnectAttempts := 0 },
              .connected :: if reconnect then [.reconnected 0] else [])
      | _ => none
  | .errored => if t.socket = none then none else some (t, [.error])
  | .closed now =>
      if t.socket = none then none
      else
        let t := { t with socket := none, isConnected := false }
        if t.stopped then some (t, [])
        else
          let scheduled := t.scheduleReconnect now
          some (scheduled.1, .disconnected :: scheduled.2)
  | .fire now =>
      match t.reconnectTimer with
      | none => none
      | some due =>
          if due ≤ now then
            some ({ t with
              reconnectTimer := none
              reconnectAttempts := t.reconnectAttempts + 1
              socket := some (.connecting true) }, [])
          else none
  | .close => some ({ t with stopped := true, reconnectTimer := none, isConnected := false }, [])

end SdkTransport

end Sdk
end AvaListener
