import AvaListener.Library.PyText

/-!
# Envelopes and what the supervisor does with them

The envelope of `node/protocol/messages.js`, the type check of
`runtime/transport/protocol/validator.py`, and the dispatch of
`Supervisor._on_ws_receive`.

The remaining envelope fields are always filled in by `createEnvelope`, as the
schema asks, and no modelled function reads them.  Of a payload the modelled
functions read `command` and `path`, and the SDK writes `detection_paused`.
-/

namespace AvaListener
namespace Transport

open Library

structure Payload where
  command : Option Text
  path : Option Text
  detectionPaused : Option Bool
  deriving DecidableEq

def Payload.empty : Payload := ⟨none, none, none⟩

structure Envelope where
  type : Text
  payload : Payload
  deriving DecidableEq

/-- A message between supervisor and worker. -/
structure IpcMessage where
  type : Text
  payload : Payload
  deriving DecidableEq

/-- `CONTROL_TYPES`. -/
def controlTypes : List Text :=
  ["start", "stop", "configure", "diagnostics_request", "diagnostics_response",
    "validate_profile", "health", "shutdown", "crash_worker", "ack", "batch", "handshake",
    "handshake_ack", "handshake_rejected", "status"].map String.toList

/-- `STREAM_TYPES`. -/
def streamTypes : List Text :=
  ["wake", "speech_start", "speech_end", "partial_transcript", "hypothesis_update",
    "telemetry", "error", "heartbeat"].map String.toList

/-- `validate_message` on an envelope that meets the schema; `none` is the
`ProtocolError`. -/
def validateMessage (e : Envelope) : Option Envelope :=
  if e.type ∈ controlTypes ∨ e.type ∈ streamTypes then some e else none

/-- What `_on_ws_receive` does with a message. -/
inductive SupervisorAction where
  /-- A message is broadcast in reply, or nothing is done. -/
  | reply
  | crashWorker
  /-- `_ipc_server.send`. -/
  | forward (m : IpcMessage)
  | shutdown
  deriving DecidableEq

/-- `_on_ws_receive`. -/
def onWsReceive (e : Envelope) : SupervisorAction :=
  if e.type = "handshake".toList then .reply
  else if e.type = "diagnostics_request".toList then .reply
  else if e.type = "validate_profile".toList then .reply
  else if e.type = "crash_worker".toList then .crashWorker
  else if e.type ∈ ["start".toList, "stop".toList, "configure".toList] then
    .forward ⟨e.type.map Char.toUpper, e.payload⟩
  else if e.type = "shutdown".toList then .shutdown
  else .reply

/-- A `configure` message reaches the worker with its payload. -/
theorem onWsReceive_configure (payload : Payload) :
    validateMessage ⟨"configure".toList, payload⟩ = some ⟨"configure".toList, payload⟩ ∧
      onWsReceive ⟨"configure".toList, payload⟩ = .forward ⟨"CONFIGURE".toList, payload⟩ := by
  have hallowed : "configure".toList ∈ controlTypes := by decide
  constructor
  · exact if_pos (.inl hallowed)
  · simp [onWsReceive]

end Transport
end AvaListener
