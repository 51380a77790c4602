import Mathlib.Data.Rat.Defs
import AvaListener.Library.OrderedDict
import AvaListener.Library.PyText

/-!
# Reliability state of the WebSocket server

The message classes of `runtime/transport/websocket_server.py` and the state
under its heading "Reliability State": the offline queue, the pending acks and
the best-effort batch, with every operation of the server on them.

Payloads are a parameter.  Every operation here runs between two await points, so
that the coroutines see it as one step.  The times of the retries are sums in exact
arithmetic, where the server adds doubles.
-/

namespace AvaListener
namespace Transport

open Library

variable {π : Type}

/-! ## Messages -/

/-- The object given to `broadcast`; `whole` is the object itself, the default of
its payload. -/
structure MessageObj (π : Type) where
  type : Option Text
  schemaVersion : Option ℕ
  timestamp : Option ℚ
  sessionId : Option Text
  correlationId : Option Text
  payload : Option π
  whole : π

structure OutMsg (π : Type) where
  type : Text
  schemaVersion : ℕ
  timestamp : ℚ
  sessionId : Text
  correlationId : Text
  payload : π
  deriving DecidableEq

/-- `out_msg` as `broadcast` builds it at time `now`.  The loop behind the
literal copies present keys, which the literal already took. -/
def outMsg (obj : MessageObj π) (now : ℚ) (uuid : Text) : OutMsg π where
  type := obj.type.getD "unknown".toList
  schemaVersion := obj.schemaVersion.getD 1
  timestamp := obj.timestamp.getD now
  sessionId := obj.sessionId.getD "server".toList
  correlationId := obj.correlationId.getD uuid
  payload := obj.payload.getD obj.whole

def wakeType : Text := "wake".toList

/-- `GUARANTEED`. -/
def guaranteed : List Text :=
  [wakeType, "fatal_error".toList]

/-- `RETRY`. -/
def retry : List Text :=
  ["speech_start".toList,
    "speech_end".toList, "error".toList]

/-- `BEST_EFFORT`. -/
def bestEffort : List Text :=
  ["partial_transcript".toList,
    "hypothesis_update".toList]

/-- The `"class"` of a pending ack. -/
inductive AckClass where
  | guaranteed
  | retry
  deriving DecidableEq

/-- The class under which `_handle_send` keeps a message, if it keeps it. -/
def ackClass (type : Text) : Option AckClass :=
  if type ∈ guaranteed then some .guaranteed
  else if type ∈ retry then some .retry
  else none

/-- Seconds before the first retransmission. -/
def AckClass.firstRetry : AckClass → ℚ
  | .guaranteed => 0.5
  | .retry => 0.1

theorem ackClass_of_guaranteed {type : Text} (h : type ∈ guaranteed) :
    ackClass type = some .guaranteed := if_pos h

/-- No guaranteed message is batched. -/
theorem not_bestEffort_of_guaranteed {type : Text} (h : type ∈ guaranteed) :
    type ∉ bestEffort := by
  revert type
  decide

/-- Nor is any message that is kept until its ack. -/
theorem not_bestEffort_of_held {type : Text} (h : ackClass type ≠ none) : type ∉ bestEffort := by
  intro hmem
  have hnone : ∀ type ∈ bestEffort, ackClass type = none := by decide
  exact h (hnone type hmem)

/-! ## Pending acks -/

/-- An entry of `pending_acks`. -/
structure PendingAck (π : Type) where
  msg : OutMsg π
  cls : AckClass
  retries : ℕ
  nextRetry : ℚ
  deriving DecidableEq

namespace PendingAck

/-- The entry is due and a retry message has had its three retries. -/
def drops (now : ℚ) (p : PendingAck π) : Bool :=
  p.nextRetry ≤ now ∧ p.cls = .retry ∧ 3 < p.retries + 1

def resends (now : ℚ) (p : PendingAck π) : Bool :=
  p.nextRetry ≤ now ∧ ¬ p.drops now

/-- The entry after a tick of the retry loop: back-off 100, 200, 400 ms for retry
messages, 500 ms for guaranteed ones. -/
def tick (now : ℚ) (p : PendingAck π) : PendingAck π :=
  if p.nextRetry ≤ now then
    match p.cls with
    | .retry =>
        if 3 < p.retries + 1 then { p with retries := p.retries + 1 }
        else { p with retries := p.retries + 1, nextRetry := now + 0.1 * 2 ^ p.retries }
    | .guaranteed => { p with nextRetry := now + 0.5 }
  else p

@[simp] theorem tick_msg (now : ℚ) (p : PendingAck π) : (p.tick now).msg = p.msg := by
  unfold tick
  repeat' split
  all_goals rfl

@[simp] theorem tick_cls (now : ℚ) (p : PendingAck π) : (p.tick now).cls = p.cls := by
  unfold tick
  repeat' split
  all_goals rfl

theorem drops_eq_false_of_guaranteed {now : ℚ} {p : PendingAck π} (h : p.cls = .guaranteed) :
    p.drops now = false := by
  simp [drops, h]

end PendingAck

/-! ## The state and its operations -/

structure Reliability (π : Type) where
  offlineQueue : List (OutMsg π)
  pendingAcks : Dict Text (PendingAck π)
  bestEffortBatch : List (OutMsg π)
  deriving DecidableEq

namespace Reliability

def init : Reliability π := ⟨[], Dict.empty, []⟩

/-- `offline_queue.append`. -/
def enqueue (r : Reliability π) (m : OutMsg π) : Reliability π :=
  { r with offlineQueue := r.offlineQueue ++ [m] }

/-- `pending_acks[corr_id] = …` in `_handle_send`. -/
def track (r : Reliability π) (m : OutMsg π) (cls : AckClass) (now : ℚ) : Reliability π :=
  { r with pendingAcks := r.pendingAcks.set m.correlationId ⟨m, cls, 0, now + cls.firstRetry⟩ }

/-- What `_handle_send` keeps of a message. -/
def keep (r : Reliability π) (offline : Bool) (m : OutMsg π) (now : ℚ) : Reliability π :=
  match ackClass m.type with
  | none => r
  | some cls => if offline then r.enqueue m else r.track m cls now

/-- An incoming ack; an id that is not a string is in no dictionary. -/
def ack (r : Reliability π) (id : Option Text) : Reliability π :=
  match id with
  | none => r
  | some id => { r with pendingAcks := r.pendingAcks.erase id }

/-- `to_retry`, in the order of the dictionary. -/
def toRetry (r : Reliability π) (now : ℚ) : List (OutMsg π) :=
  (r.pendingAcks.values.filter fun p => p.resends now).map PendingAck.msg

/-- `to_drop`. -/
def toDrop (r : Reliability π) (now : ℚ) : List Text :=
  (r.pendingAcks.entries.filter fun e => e.2.drops now).map Prod.fst

/-- The entries rewritten and the exhausted ones deleted. -/
def tick (r : Reliability π) (now : ℚ) : Reliability π :=
  { r with
    pendingAcks :=
      (r.toDrop now).foldl Dict.erase (r.pendingAcks.mapValues fun _ p => p.tick now) }

/-- One message goes from the pending acks to the offline queue. -/
def moveOffline (r : Reliability π) (m : OutMsg π) : Reliability π :=
  { r with
    pendingAcks := r.pendingAcks.erase m.correlationId
    offlineQueue := r.offlineQueue ++ [m] }

/-- A tick of the retry loop, up to its sends. -/
def collect (r : Reliability π) (offline : Bool) (now : ℚ) : Reliability π :=
  if offline then (r.toRetry now).foldl moveOffline (r.tick now) else r.tick now

/-- `offline_queue.clear()`. -/
def cleared (r : Reliability π) : Reliability π :=
  { r with offlineQueue := [] }

/-- `_add_to_batch` up to the send: the batch, and the events of the message that
takes it away when it is full. -/
def addToBatch (r : Reliability π) (m : OutMsg π) : Reliability π × Option (List (OutMsg π)) :=
  if 10 ≤ (r.bestEffortBatch ++ [m]).length then
    ({ r with bestEffortBatch := [] }, some (r.bestEffortBatch ++ [m]))
  else ({ r with bestEffortBatch := r.bestEffortBatch ++ [m] }, none)

/-- The batch taken by the batch loop. -/
def takeBatch (r : Reliability π) : Reliability π :=
  { r with bestEffortBatch := [] }

end Reliability

end Transport
end AvaListener
