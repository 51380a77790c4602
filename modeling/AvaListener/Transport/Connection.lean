import AvaListener.Transport.SendSteps

/-!
# One connection from the server to the transport

The server of `runtime/transport/websocket_server.py` and the transport of
`node/transport.js` at the two ends of one connection: what the server puts on it, the
acks under way back, and the `'message'` events the transport emits.

The transport acks a message of the two kept classes and emits it, and remembers no
ids.  Beside what its send loops put on the connection, the server replies to a
malformed message with an error of its own, which has no id and gets no ack.
-/

namespace AvaListener
namespace Transport

open Library

variable {π : Type}

def batchType : Text := "batch".toList

/-- What `_handleMessage` emits; `unbatch` gives the events in the payload of a message
whose own type is that of a batch. -/
def Outgoing.emits (unbatch : π → List (OutMsg π)) : Outgoing π → List (OutMsg π)
  | .single m => if m.type = batchType then unbatch m.payload else [m]
  | .batch _ _ events => events

/-- The id that `_handleMessage` acks. -/
def Outgoing.acked : Outgoing π → Option Text
  | .single m =>
      if m.correlationId ≠ [] ∧ ackClass m.type ≠ none then some m.correlationId else none
  | .batch _ _ _ => none

/-- The reply of `_handler` to a malformed message.  Its payload is the dictionary of the
error's text and the code `PROTOCOL_ERROR`. -/
def errorReply (timestamp : ℚ) (payload : π) : OutMsg π where
  type := "error".toList
  schemaVersion := 1
  timestamp := timestamp
  sessionId := []
  correlationId := []
  payload := payload

/-- The server and one connection to a transport. -/
structure Connection (π : Type) where
  server : WSServer π
  isOpen : Bool
  /-- On the way to the transport. -/
  wire : List (Outgoing π)
  /-- The ids of the acks on the way to the server. -/
  acks : List Text
  /-- The `'message'` events, oldest first. -/
  emitted : List (OutMsg π)
  deriving DecidableEq

inductive ConnectionLabel (π : Type) where
  /-- A step of the server, other than the receipt of an ack or of a malformed message on
  this connection. -/
  | server (l : Label π)
  /-- The server receives a malformed message on this connection and replies to it. -/
  | malformed (timestamp : ℚ) (payload : π)
  /-- The transport handles the next message. -/
  | handle
  /-- The next ack reaches the server. -/
  | ackArrives
  /-- The connection breaks; of what was on the way so many messages and so many acks
  get through. -/
  | broken (messages acks : ℕ)

/-- The label is an ack or a malformed message on this connection. -/
def Label.answers (ws : ℕ) : Label π → Bool
  | .receive w (.ack _) => w = ws
  | .receive w .malformed => w = ws
  | _ => false

/-- The label opens this connection. -/
def Label.opens (ws : ℕ) : Label π → Bool
  | .connect w _ => w = ws
  | _ => false

namespace Connection

def init : Connection π := ⟨WSServer.init, false, [], [], []⟩

/-- What a send loop puts on the connection at its `await`. -/
def put (ws : ℕ) (isOpen : Bool) (f : SendLoop π) : List (Outgoing π) :=
  if f.ws = ws ∧ isOpen then [f.msg] else []

/-- What the send loops put on the connection in the server's step. -/
def puts (ws : ℕ) (s : WSServer π) (isOpen : Bool) (l : Label π) : List (Outgoing π) :=
  (s.started l).toList.flatMap (put ws isOpen)

/-- What the handler puts on the connection when it replies to a malformed message. -/
def replies (isOpen : Bool) (timestamp : ℚ) (payload : π) : List (Outgoing π) :=
  if isOpen then [.single (errorReply timestamp payload)] else []

def step (unbatch : π → List (OutMsg π)) (ws : ℕ) (s : Connection π) :
    ConnectionLabel π → Option (Connection π)
  | .server l =>
      if l.answers ws then none
      else
        (s.server.step l).map fun server =>
          { s with
            server := server
            isOpen := s.isOpen || l.opens ws
            wire := s.wire ++ puts ws s.server (s.isOpen || l.opens ws) l }
  | .malformed timestamp payload =>
      (s.server.step (.receive ws .malformed)).map fun server =>
        { s with
          server := server
          wire := s.wire ++ replies s.isOpen timestamp payload }
  | .handle =>
      match s.wire with
      | [] => none
      | o :: rest =>
          some { s with
            wire := rest
            acks := if s.isOpen then s.acks ++ o.acked.toList else s.acks
            emitted := s.emitted ++ o.emits unbatch }
  | .ackArrives =>
      match s.acks with
      | [] => none
      | id :: rest =>
          (s.server.step (.receive ws (.ack (some id)))).map fun server =>
            { s with server := server, acks := rest }
  | .broken messages acks =>
      if s.isOpen then
        some { s with isOpen := false, wire := s.wire.take messages, acks := s.acks.take acks }
      else none

/-- A payload in which no events are nested. -/
def noEvents (_ : Unit) : List (OutMsg Unit) := []

end Connection

end Transport
end AvaListener
