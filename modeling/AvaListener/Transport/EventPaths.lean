import AvaListener.Library.Fallible
import AvaListener.Library.PyValue
import AvaListener.Transport.Reliability

/-!
# The two paths from the worker to the clients

`_emit` of `runtime/transport/stream/handler.py` sends an event over IPC or, where
that fails, prints it; the supervisor broadcasts what arrives, in
`_on_ipc_receive` and in `_reader_loop_stdout`.  The IPC path turns the event's
name into an upper-case message type and back, the other one hands the printed
object to `broadcast` as it is.

A payload is a dictionary of JSON values, which both wires carry unchanged.

What is compared is the message that `broadcast` builds.  What becomes of it is not: a
`correlationId` that is a list or an object cannot be a key of the pending acks, and
`_handle_send` raises.
-/

namespace AvaListener
namespace Transport

open Library

/-- `str.upper`; on ASCII it goes letter by letter. -/
structure UpperCase where
  upper : Text → Text
  ascii : ∀ t : Text, (∀ c ∈ t, c.toNat < 128) → upper t = t.map Char.toUpper

def UpperCase.letterwise : UpperCase :=
  ⟨fun t => t.map Char.toUpper, fun _ _ => rfl⟩

/-- The members of a JSON object. -/
abbrev Event := Dict Text PyValue

/-! ## The worker -/

/-- A worker's IPC message. -/
structure WorkerMessage where
  type : Text
  payload : Event

/-- What leaves the worker. -/
inductive Emission where
  | ipc (m : WorkerMessage)
  | stdout (payload : Event)

/-- The message `_emit` sends: `t.upper()` fails on a name that is not a string. -/
def ipcMessage (U : UpperCase) (payload : Event) : Except PyError WorkerMessage :=
  let obj := payload.erase "event".toList
  match payload.get? "event".toList with
  | some t =>
      if t.truthy then t.text.map fun t => ⟨U.upper t, obj⟩
      else .ok ⟨"DIAGNOSTICS".toList, obj⟩
  | none => .ok ⟨"DIAGNOSTICS".toList, obj⟩

/-- `_emit`; `sent` tells whether there is a client and its `send` succeeds. -/
def emit (U : UpperCase) (sent : Bool) (payload : Event) : Emission :=
  match ipcMessage U payload with
  | .ok m => if sent then .ipc m else .stdout payload
  | .error _ => .stdout payload

/-! ## The supervisor -/

/-- A message to the clients. -/
structure WsMessage where
  type : PyValue
  schemaVersion : PyValue
  timestamp : PyValue
  sessionId : PyValue
  correlationId : PyValue
  payload : PyValue

/-- The clock reading and the id that a broadcast draws. -/
structure Stamp where
  now : ℚ
  uuid : Text

/-- `out_msg` as `broadcast` builds it. -/
def outMessage (obj : Event) (stamp : Stamp) : WsMessage where
  type := (obj.get? "type".toList).getD (.str "unknown".toList)
  schemaVersion := (obj.get? "schemaVersion".toList).getD (.int 1)
  timestamp := (obj.get? "timestamp".toList).getD (.float (.finite stamp.now))
  sessionId := (obj.get? "sessionId".toList).getD (.str "server".toList)
  correlationId := (obj.get? "correlationId".toList).getD (.str stamp.uuid)
  payload := (obj.get? "payload".toList).getD (.dict obj.entries)

/-- `broadcast` of an object, up to the queues: looking up the class of the type
fails on a type that cannot be hashed. -/
def broadcast (obj : Event) (stamp : Stamp) : Except PyError WsMessage :=
  (outMessage obj stamp).type.hash.map fun _ => outMessage obj stamp

/-- `{"event": event, **payload}`. -/
def named (event : Text) (payload : Event) : Event :=
  (Dict.empty.set "event".toList (.str event)).setAll payload.entries

/-- What an unknown message type is wrapped in. -/
def wrapped (m : WorkerMessage) (stamp : Stamp) : Event :=
  Dict.empty.setAll
    [("event".toList, .str "ipc".toList), ("type".toList, .str m.type),
      ("payload".toList, .dict m.payload.entries), ("ts".toList, .float (.finite stamp.now))]

/-- `out_obj` of `_on_ipc_receive`. -/
def outObj (m : WorkerMessage) (stamp : Stamp) : Event :=
  if m.type = "HEARTBEAT".toList then named "heartbeat".toList m.payload
  else if m.type = "STATUS".toList then named "status".toList m.payload
  else if m.type = "WAKE".toList then named "wake".toList m.payload
  else if m.type = "ERROR".toList then named "error".toList m.payload
  else if m.type = "DIAGNOSTICS".toList then named "diagnostics".toList m.payload
  else wrapped m stamp

/-- `ws_msg`. -/
def wsMsg (out : Event) : Event :=
  Dict.empty.setAll
    [("type".toList, (out.get? "event".toList).getD .none), ("payload".toList, .dict out.entries)]

/-- What is broadcast for a line that could not be forwarded. -/
def workerOutput (line : Text) (stamp : Stamp) : Event :=
  Dict.empty.setAll
    [("event".toList, .str "worker_output".toList), ("line".toList, .str line),
      ("ts".toList, .float (.finite stamp.now))]

/-- The message that the supervisor broadcasts for an emission; `dumps` prints the
line of the stdout path. -/
def relay (dumps : Event → Text) (stamp : Stamp) : Emission → Except PyError WsMessage
  | .ipc m => broadcast (wsMsg (outObj m stamp)) stamp
  | .stdout payload =>
      match broadcast payload stamp with
      | .ok msg => .ok msg
      | .error _ => broadcast (workerOutput (dumps payload) stamp) stamp

/-! ## Typed messages -/

/-- The object has the fields of a typed message. -/
structure TypedAs (m : MessageObj PyValue) (obj : Event) : Prop where
  type : obj.get? "type".toList = m.type.map .str
  schemaVersion : obj.get? "schemaVersion".toList = m.schemaVersion.map fun n => .int n
  timestamp : obj.get? "timestamp".toList = m.timestamp.map fun t => .float (.finite t)
  sessionId : obj.get? "sessionId".toList = m.sessionId.map .str
  correlationId : obj.get? "correlationId".toList = m.correlationId.map .str
  payload : obj.get? "payload".toList = m.payload
  whole : m.whole = .dict obj.entries

def OutMsg.toWs (m : OutMsg PyValue) : WsMessage where
  type := .str m.type
  schemaVersion := .int m.schemaVersion
  timestamp := .float (.finite m.timestamp)
  sessionId := .str m.sessionId
  correlationId := .str m.correlationId
  payload := m.payload

/-- On the objects of typed messages `broadcast` builds the message that the
reliability state handles. -/
theorem broadcast_typed {m : MessageObj PyValue} {obj : Event} (h : TypedAs m obj)
    (stamp : Stamp) : broadcast obj stamp = .ok (outMsg m stamp.now stamp.uuid).toWs := by
  have hmessage : outMessage obj stamp = (outMsg m stamp.now stamp.uuid).toWs := by
    unfold outMessage
    rw [h.type, h.schemaVersion, h.timestamp, h.sessionId, h.correlationId, h.payload, ← h.whole]
    simp only [OutMsg.toWs, outMsg, WsMessage.mk.injEq]
    refine ⟨?_, ?_, ?_, ?_, ?_, trivial⟩
    · exact Option.getD_map PyValue.str _ m.type
    · exact Option.getD_map (fun n : ℕ => PyValue.int n) _ m.schemaVersion
    · exact Option.getD_map (fun t => PyValue.float (.finite t)) _ m.timestamp
    · exact Option.getD_map PyValue.str _ m.sessionId
    · exact Option.getD_map PyValue.str _ m.correlationId
  rw [broadcast, hmessage]
  rfl

/-! ## Agreement -/

/-- Equal as JSON objects: the same members in any order. -/
def SameFields (a b : PyValue) : Prop :=
  ∃ xs ys, a = .dict xs ∧ b = .dict ys ∧ ∀ key, PyValue.item? xs key = PyValue.item? ys key

/-- The clients get the same type, and so the same reliability class, and the same
event fields, by both paths. -/
def PathsAgree (U : UpperCase) (dumps : Event → Text) (stamp : Stamp) (payload : Event) : Prop :=
  ∃ a b, relay dumps stamp (emit U true payload) = .ok a ∧
    relay dumps stamp (emit U false payload) = .ok b ∧
      a.type = b.type ∧ (a.payload = b.payload ∨ SameFields a.payload b.payload)

/-- The events that have a message type of their own. -/
def eventNames : List Text :=
  ["heartbeat", "status", "wake", "error", "diagnostics"].map String.toList

/-- The payload takes the stdout path in any case, or it names one of the five
events, repeats the name as its type, and has no member `payload`. -/
def PathNeutral (payload : Event) : Prop :=
  (∃ t e, payload.get? "event".toList = some t ∧ t.truthy = true ∧ t.text = .error e) ∨
    ∃ name ∈ eventNames, payload.get? "event".toList = some (.str name) ∧
      payload.get? "type".toList = some (.str name) ∧ payload.get? "payload".toList = none

/-! ## The IPC path -/

/-- A member is smaller than the object it is in. -/
theorem sizeOf_item {items : List (Text × PyValue)} {key : Text} {v : PyValue}
    (h : PyValue.item? items key = some v) : sizeOf v < sizeOf (PyValue.dict items) := by
  obtain ⟨e, hfind, rfl⟩ := Option.map_eq_some_iff.mp h
  have hmem := List.sizeOf_lt_of_mem (List.mem_of_find?_eq_some hfind)
  have hpair : sizeOf e = 1 + sizeOf e.1 + sizeOf e.2 := rfl
  have hdict : sizeOf (PyValue.dict items) = 1 + sizeOf items := by simp
  omega

theorem get?_named (event : Text) (payload : Event) (key : Text) :
    (named event payload).get? key =
      (payload.get? key).or (if key = "event".toList then some (.str event) else none) := by
  rw [named, Dict.get?_setAll]
  congr 1
  split
  next hkey =>
    rw [hkey]
    exact Dict.get?_set_self _ _ _
  next hkey => exact Dict.get?_set_of_ne _ _ hkey

/-- The message types that `_on_ipc_receive` knows are the five names in upper
case. -/
theorem outObj_cases (m : WorkerMessage) (stamp : Stamp) :
    (∃ name ∈ eventNames, m.type = name.map Char.toUpper ∧
        outObj m stamp = named name m.payload) ∨
      outObj m stamp = wrapped m stamp := by
  unfold outObj
  split
  next h => exact Or.inl ⟨"heartbeat".toList, by decide, h, rfl⟩
  split
  next h => exact Or.inl ⟨"status".toList, by decide, h, rfl⟩
  split
  next h => exact Or.inl ⟨"wake".toList, by decide, h, rfl⟩
  split
  next h => exact Or.inl ⟨"error".toList, by decide, h, rfl⟩
  split
  next h => exact Or.inl ⟨"diagnostics".toList, by decide, h, rfl⟩
  exact Or.inr rfl

theorem outObj_named {name : Text} (h : name ∈ eventNames) (payload : Event) (stamp : Stamp) :
    outObj ⟨name.map Char.toUpper, payload⟩ stamp = named name payload := by
  simp only [eventNames, List.map_cons, List.map_nil, List.mem_cons, List.not_mem_nil,
    or_false] at h
  rcases h with rfl | rfl | rfl | rfl | rfl
  · rfl
  · rfl
  · rfl
  · rfl
  · rfl

/-- An object with an event is broadcast under its name. -/
theorem broadcast_wsMsg {out : Event} {event : Text} (stamp : Stamp)
    (h : out.get? "event".toList = some (.str event)) :
    ∃ a, broadcast (wsMsg out) stamp = .ok a ∧ a.type = .str event ∧
      a.payload = .dict out.entries := by
  have htype : (wsMsg out).get? "type".toList = some (.str event) := by
    rw [wsMsg, h]
    rfl
  have hout : (outMessage (wsMsg out) stamp).type = .str event := by
    rw [outMessage, htype]
    rfl
  refine ⟨outMessage (wsMsg out) stamp, ?_, hout, rfl⟩
  rw [broadcast, hout]
  rfl

/-! ## The stdout path -/

theorem relay_stdout (dumps : Event → Text) (stamp : Stamp) (payload : Event) :
    ∃ b, relay dumps stamp (.stdout payload) = .ok b ∧
      (b.type = .str "unknown".toList ∨
        payload.get? "type".toList = some b.type ∧
          b.payload = (payload.get? "payload".toList).getD (.dict payload.entries)) := by
  cases h : broadcast payload stamp with
  | error e =>
      obtain ⟨b, hb⟩ : ∃ b, broadcast (workerOutput (dumps payload) stamp) stamp = .ok b :=
        ⟨_, rfl⟩
      refine ⟨b, by simp [relay, h, hb], Or.inl ?_⟩
      obtain rfl := Except.ok.inj hb
      rfl
  | ok b =>
      refine ⟨b, by simp [relay, h], ?_⟩
      obtain ⟨key, -, rfl⟩ := map_eq_ok_iff.mp h
      cases htype : payload.get? "type".toList with
      | none =>
          left
          rw [outMessage, htype]
          rfl
      | some t =>
          right
          refine ⟨?_, rfl⟩
          rw [outMessage, htype]
          rfl

/-! ## Agreement of the paths -/

/-- What the clients get by the stdout path is the event by the IPC path: then the
event named itself and its type, and had no member `payload`. -/
theorem names_of_agree {payload out : Event} {event : Text} {b : PyValue}
    (hpayload : b = (payload.get? "payload".toList).getD (.dict payload.entries))
    (hsame : PyValue.dict out.entries = b ∨ SameFields (.dict out.entries) b)
    (hevent : out.get? "event".toList = some (.str event))
    (hown : out.get? "payload".toList = payload.get? "payload".toList ∨
      out.get? "payload".toList = some (.dict (payload.erase "event".toList).entries)) :
    payload.get? "event".toList = some (.str event) ∧
      payload.get? "payload".toList = none ∧ out.get? "payload".toList = none := by
  obtain ⟨ys, hb, hfields⟩ : ∃ ys, b = .dict ys ∧
      ∀ key, out.get? key = PyValue.item? ys key := by
    rcases hsame with rfl | ⟨xs, ys, hxs, hys, hfields⟩
    · exact ⟨out.entries, rfl, fun _ => rfl⟩
    · obtain rfl := PyValue.dict.inj hxs
      exact ⟨ys, hys, hfields⟩
  cases hmember : payload.get? "payload".toList with
  | none =>
      rw [hmember, Option.getD_none] at hpayload
      obtain rfl := PyValue.dict.inj (hb.symm.trans hpayload)
      exact ⟨(hfields _).symm.trans hevent, rfl, (hfields _).trans hmember⟩
  | some p =>
      -- The broadcast payload would contain itself.
      rw [hmember, Option.getD_some] at hpayload
      have hp : p = .dict ys := hpayload.symm.trans hb
      rcases hown with hkept | hwrapped
      · have hself : PyValue.item? ys "payload".toList = some (.dict ys) := by
          rw [← hfields, hkept, hmember, hp]
        exact absurd (sizeOf_item hself) (lt_irrefl _)
      · have hinner : PyValue.item? ys "payload".toList =
            some (.dict (payload.erase "event".toList).entries) := by
          rw [← hfields, hwrapped]
        have houter : PyValue.item? (payload.erase "event".toList).entries "payload".toList =
            some (.dict ys) := by
          show (payload.erase "event".toList).get? "payload".toList = some (.dict ys)
          rw [Dict.get?_erase_of_ne payload (by decide), hmember, hp]
        exact absurd ((sizeOf_item hinner).trans (sizeOf_item houter)) (lt_irrefl _)

theorem ipcMessage_payload {U : UpperCase} {payload : Event} {m : WorkerMessage}
    (h : ipcMessage U payload = .ok m) : m.payload = payload.erase "event".toList := by
  unfold ipcMessage at h
  dsimp only at h
  split at h
  · split at h
    · obtain ⟨t, -, rfl⟩ := map_eq_ok_iff.mp h
      rfl
    · obtain rfl := Except.ok.inj h
      rfl
  · obtain rfl := Except.ok.inj h
    rfl

/-- A payload that cannot be sent names itself by something else than a string. -/
theorem ipcMessage_error {U : UpperCase} {payload : Event} {e : PyError} :
    ipcMessage U payload = .error e ↔
      ∃ t, payload.get? "event".toList = some t ∧ t.truthy = true ∧ t.text = .error e := by
  unfold ipcMessage
  dsimp only
  cases hevent : payload.get? "event".toList with
  | none => simp
  | some t =>
      cases htruthy : t.truthy with
      | false => simp [htruthy]
      | true =>
          cases htext : t.text with
          | error e' => simp [htruthy, htext, Except.map]
          | ok s => simp [htruthy, htext, Except.map]

section Agreement

variable (U : UpperCase) (dumps : Event → Text) (stamp : Stamp)

theorem emit_sent {payload : Event} {m : WorkerMessage} (hm : ipcMessage U payload = .ok m) :
    emit U true payload = .ipc m ∧ emit U false payload = .stdout payload := by
  simp [emit, hm]

/-- A payload that goes over IPC and reaches the clients as by the stdout path. -/
theorem pathNeutral_of_agree {payload : Event} {m : WorkerMessage}
    (hm : ipcMessage U payload = .ok m) (h : PathsAgree U dumps stamp payload) :
    PathNeutral payload := by
  obtain ⟨a, b, ha, hb, htype, hsame⟩ := h
  -- Both paths answer; the IPC one with a known name, so the other one must have read it.
  obtain ⟨hsent, hprinted⟩ := emit_sent U hm
  rw [hsent] at ha
  rw [hprinted] at hb
  obtain ⟨b', hb', hstdout⟩ := relay_stdout dumps stamp payload
  obtain rfl := Except.ok.inj (hb.symm.trans hb')
  have hrest := ipcMessage_payload hm
  have hreplies : ∀ event, (outObj m stamp).get? "event".toList = some (.str event) →
      event ≠ "unknown".toList →
        a.payload = .dict (outObj m stamp).entries ∧
          payload.get? "type".toList = some (.str event) ∧
          b.payload = (payload.get? "payload".toList).getD (.dict payload.entries) := by
    intro event hevent hknown
    obtain ⟨a', ha', hname, hfields⟩ := broadcast_wsMsg stamp hevent
    obtain rfl := Except.ok.inj (ha.symm.trans ha')
    rcases hstdout with hunknown | ⟨hown, hpayload⟩
    · have hclash := (hname.symm.trans htype).trans hunknown
      exact absurd (PyValue.str.inj hclash) hknown
    · exact ⟨hfields, by rw [hown, ← htype, hname], hpayload⟩
  rcases outObj_cases m stamp with ⟨name, hname, -, hout⟩ | hout
  · have hevent : (outObj m stamp).get? "event".toList = some (.str name) := by
      rw [hout, get?_named, hrest, Dict.get?_erase_self]
      rfl
    have hunknown : "unknown".toList ∉ eventNames := by decide
    obtain ⟨hfields, hown, hpayload⟩ := hreplies name hevent (ne_of_mem_of_not_mem hname hunknown)
    rw [hfields] at hsame
    -- Renaming the event leaves every other member where it was.
    have hkept : (outObj m stamp).get? "payload".toList = payload.get? "payload".toList := by
      rw [hout, get?_named, hrest, Dict.get?_erase_of_ne payload (by decide),
        if_neg (by decide), Option.or_none]
    obtain ⟨hnamed, hnone, -⟩ := names_of_agree hpayload hsame hevent (Or.inl hkept)
    exact Or.inr ⟨name, hname, hnamed, hown, hnone⟩
  -- A wrapped event always has a member `payload`, which the stdout object cannot equal.
  · have hevent : (outObj m stamp).get? "event".toList = some (.str "ipc".toList) := by
      rw [hout]
      rfl
    have hinner : (outObj m stamp).get? "payload".toList =
        some (.dict (payload.erase "event".toList).entries) := by
      rw [hout, ← hrest]
      rfl
    obtain ⟨hfields, -, hpayload⟩ := hreplies "ipc".toList hevent (by decide)
    rw [hfields] at hsame
    obtain ⟨-, -, hnone⟩ := names_of_agree hpayload hsame hevent (Or.inr hinner)
    rw [hinner] at hnone
    exact nomatch hnone

/-- An event that names itself, its type, and no payload of its own. -/
theorem agree_of_named {payload : Event} {name : Text} (hname : name ∈ eventNames)
    (hevent : payload.get? "event".toList = some (.str name))
    (htype : payload.get? "type".toList = some (.str name))
    (hnone : payload.get? "payload".toList = none) : PathsAgree U dumps stamp payload := by
  have hascii : ∀ n ∈ eventNames, n ≠ [] ∧ n.all (·.toNat < 128) = true := by decide
  obtain ⟨hne, hall⟩ := hascii name hname
  have hsmall : ∀ c ∈ name, c.toNat < 128 := by
    simpa only [List.all_eq_true, decide_eq_true_iff] using hall
  have htruthy : (PyValue.str name).truthy = true := by simp [PyValue.truthy, hne]
  have hm : ipcMessage U payload =
      .ok ⟨name.map Char.toUpper, payload.erase "event".toList⟩ := by
    unfold ipcMessage
    rw [hevent]
    dsimp only
    rw [if_pos htruthy, ← U.ascii name hsmall]
    rfl
  obtain ⟨hsent, hprinted⟩ := emit_sent U hm
  have hout := outObj_named hname (payload.erase "event".toList) stamp
  have hfields : ∀ key, (named name (payload.erase "event".toList)).get? key =
      payload.get? key := by
    intro key
    rw [get?_named]
    by_cases hkey : key = "event".toList
    · rw [hkey, Dict.get?_erase_self, hevent, if_pos rfl]
      rfl
    · rw [Dict.get?_erase_of_ne payload hkey, if_neg hkey, Option.or_none]
  obtain ⟨a, ha, hatype, hapayload⟩ := broadcast_wsMsg stamp ((hfields _).trans hevent)
  have hb : broadcast payload stamp = .ok (outMessage payload stamp) := by
    have hout : (outMessage payload stamp).type = .str name := by
      rw [outMessage, htype]
      rfl
    rw [broadcast, hout]
    rfl
  refine ⟨a, outMessage payload stamp, ?_, ?_, ?_, Or.inr ?_⟩
  · rw [hsent, relay, hout]
    exact ha
  · rw [hprinted, relay, hb]
  · rw [hatype, outMessage, htype]
    rfl
  · refine ⟨_, payload.entries, hapayload, ?_, hfields⟩
    rw [outMessage, hnone]
    rfl

/-- **The two paths.**  For every payload, by whatever name and with whatever
fields, the clients get the same type and the same event fields over IPC and over
stdout exactly when the payload is path neutral. -/
theorem paths_agree_iff (payload : Event) :
    PathsAgree U dumps stamp payload ↔ PathNeutral payload := by
  cases hm : ipcMessage U payload with
  | ok m =>
      refine ⟨pathNeutral_of_agree U dumps stamp hm, ?_⟩
      rintro (hunsent | ⟨name, hname, hevent, htype, hnone⟩)
      · obtain ⟨t, e, hunsent⟩ := hunsent
        rw [ipcMessage_error.mpr ⟨t, hunsent⟩] at hm
        exact nomatch hm
      · exact agree_of_named U dumps stamp hname hevent htype hnone
  | error e =>
      have hprinted : ∀ sent, emit U sent payload = .stdout payload := by simp [emit, hm]
      obtain ⟨b, hb, -⟩ := relay_stdout dumps stamp payload
      obtain ⟨t, ht⟩ := ipcMessage_error.mp hm
      refine ⟨fun _ => Or.inl ⟨t, e, ht⟩, fun _ => ⟨b, b, ?_, ?_, rfl, Or.inl rfl⟩⟩
      · rw [hprinted]
        exact hb
      · rw [hprinted]
        exact hb

end Agreement

/-- An event of `emit_wake`. -/
def wakeEvent : Event :=
  Dict.empty.setAll
    [("event".toList, .str "wake".toList), ("phrase".toList, .str "hey ava".toList),
      ("raw_confidence".toList, .float (.finite 1)),
      ("smooth_confidence".toList, .float (.finite 1)),
      ("latency_ms".toList, .float (.finite 12)), ("ts".toList, .float (.finite 100))]

/-- Over IPC a wake is broadcast as `wake`, which is guaranteed; over stdout as
`unknown`, which is not. -/
theorem wakeEvent_paths_differ :
    ¬ PathsAgree .letterwise (fun _ => []) ⟨101, "a".toList⟩ wakeEvent := by
  rintro ⟨a, b, ha, hb, htype, -⟩
  have hipc : (relay (fun _ => []) ⟨101, "a".toList⟩
      (emit .letterwise true wakeEvent)).map (·.type) = .ok (.str "wake".toList) := rfl
  have hstdout : (relay (fun _ => []) ⟨101, "a".toList⟩
      (emit .letterwise false wakeEvent)).map (·.type) = .ok (.str "unknown".toList) := rfl
  rw [ha] at hipc
  rw [hb] at hstdout
  have hclash : PyValue.str "wake".toList = PyValue.str "unknown".toList := by
    rw [← Except.ok.inj hipc, ← Except.ok.inj hstdout]
    exact htype
  revert hclash
  simp

end Transport
end AvaListener
