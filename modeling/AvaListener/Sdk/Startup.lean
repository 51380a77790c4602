import AvaListener.Transport.FireAndForget

/-!
# The start of the SDK

`Lifecycle.start` of `node/lifecycle.js` from its first connection to the worker's
`ready` status, and the way of that status: `WakeEngine.start` emits it once,
`Supervisor._on_ipc_receive` broadcasts it, and the server sends it to the clients it
has at that time.  The three run side by side, and a schedule interleaves them at
will.

The worker's IPC client is connected.  A connection breaks for both ends at once, with
what is on it; the server may notice later, and what it sends until then is lost.  The
replies to malformed messages are left out: no listener of `start` looks at them.
-/

namespace AvaListener
namespace Sdk

open Library Transport

/-! ## Messages -/

/-- What `start` reads of a payload. -/
structure StartPayload where
  status : Option Text
  protocolVersion : Option Text
  schemaVersion : Option ℕ
  deriving DecidableEq

/-- What `_on_ipc_receive` broadcasts for `emit_status("ready")`. -/
def readyStatus : MessageObj StartPayload :=
  ⟨some "status".toList, none, none, none, none, some ⟨some "ready".toList, none, none⟩,
    ⟨none, none, none⟩⟩

/-- What `_on_ws_receive` broadcasts in answer to a handshake; without a payload the
object itself is the payload. -/
def handshakeAck : MessageObj StartPayload :=
  ⟨some "handshake_ack".toList, some 1, none, none, none, none, ⟨none, some "1.0".toList, some 1⟩⟩

/-- The test of `onMsg` in `start`. -/
def isReady (m : OutMsg StartPayload) : Bool :=
  m.type = "status".toList ∧ m.payload.status = some "ready".toList

theorem isReady_fireAndForget : FireAndForget isReady := by
  intro m hm
  have htype : m.type = "status".toList := (of_decide_eq_true hm).1
  rw [htype]
  decide

theorem isReady_readyStatus (created : ℚ) (uuid : Text) :
    isReady (outMsg readyStatus created uuid) = true :=
  rfl

theorem isReady_handshakeAck (created : ℚ) (uuid : Text) :
    isReady (outMsg handshakeAck created uuid) = false :=
  rfl

/-! ## The stages of `start` -/

inductive Stage where
  /-- At `await this.transport.connect()`. -/
  | connecting
  /-- The connection is open, the handshake not yet begun. -/
  | connected
  | handshaking
  /-- The handshake is over, the listener for `ready` not yet attached. -/
  | handshaken
  | waiting
  | ready
  | failed
  deriving DecidableEq

/-- The listener of `performHandshake`.  A schema version below 1 is migrated. -/
def onHandshake (m : OutMsg StartPayload) : Stage :=
  if m.type = "handshake_rejected".toList then .failed
  else if m.type = "handshake_ack".toList then
    if m.payload.protocolVersion ≠ some "1.0".toList then .failed
    else
      match m.payload.schemaVersion with
      | none => .failed
      | some version => if version ≤ 1 then .handshaken else .failed
  else .handshaking

/-- The listener that is attached, if one is. -/
def Stage.onMessage (stage : Stage) (m : OutMsg StartPayload) : Stage :=
  match stage with
  | .handshaking => onHandshake m
  | .waiting => if isReady m then .ready else .waiting
  | stage => stage

/-! ## The system -/

/-- How far the worker's one `ready` status has come. -/
inductive Signal where
  | unsent
  /-- On the worker's IPC connection. -/
  | emitted
  /-- The supervisor has called `broadcast` with it. -/
  | broadcast
  deriving DecidableEq

/-- A call of `broadcast` whose callback has not run. -/
structure Posted where
  obj : MessageObj StartPayload
  created : ℚ
  uuid : Text

def Posted.msg (b : Posted) : OutMsg StartPayload :=
  outMsg b.obj b.created b.uuid

structure Startup where
  signal : Signal
  /-- The callbacks posted to the server's event loop. -/
  posted : List Posted
  server : WSServer StartPayload
  /-- The SDK's connection, until it breaks. -/
  conn : Option ℕ
  /-- The transport has seen the socket open. -/
  isConnected : Bool
  /-- The handshake message is on the connection. -/
  handshakeSent : Bool
  /-- What the server has sent on the connection and the SDK has not received. -/
  wire : List (Outgoing StartPayload)
  stage : Stage

inductive StartLabel where
  /-- `emit_status("ready")`. -/
  | emit
  /-- `_on_ipc_receive` broadcasts the status. -/
  | relay (created : ℚ) (uuid : Text)
  /-- Anything else is broadcast. -/
  | post (obj : MessageObj StartPayload) (created : ℚ) (uuid : Text)
  /-- The oldest callback runs. -/
  | callback (now : ℚ) (batchId : Text)
  /-- Any other step of the server. -/
  | server (l : Label StartPayload)
  /-- The transport makes a socket. -/
  | dial (ws : ℕ)
  | opened
  /-- `performHandshake` sends its message and listens. -/
  | handshake
  /-- The server has received the handshake. -/
  | handshakeReceived (created : ℚ) (uuid : Text)
  /-- The SDK receives the next message. -/
  | deliver
  /-- `transport.on('message', onMsg)`. -/
  | attach
  /-- The connection breaks, or never opens. -/
  | dropped
  /-- The time-out of the handshake or of the wait. -/
  | timeout

/-- The connection that a label finds closed. -/
def findsClosed (s : WSServer StartPayload) : Label StartPayload → Option ℕ
  | .disconnect ws => some ws
  | .replied ws true => some ws
  | .sent i true _ _ => (s.sending[i]?).map SendLoop.ws
  | _ => none

namespace Startup

def init : Startup := ⟨.unsent, [], WSServer.init, none, false, false, [], .connecting⟩

/-- What the label puts on the SDK's connection. -/
def arrivals (s : Startup) (l : Label StartPayload) : List (Outgoing StartPayload) :=
  match s.server.started l with
  | none => []
  | some f => if s.conn = some f.ws then [f.msg] else []

def post (s : Startup) (b : Posted) : Startup :=
  { s with posted := s.posted ++ [b] }

def step (s : Startup) : StartLabel → Option Startup
  | .emit => if s.signal = .unsent then some { s with signal := .emitted } else none
  | .relay created uuid =>
      if s.signal = .emitted then
        some ({ s with signal := .broadcast }.post ⟨readyStatus, created, uuid⟩)
      else none
  | .post obj created uuid =>
      -- The worker signals once.
      if isReady (outMsg obj created uuid) then none else some (s.post ⟨obj, created, uuid⟩)
  | .callback now batchId =>
      match s.posted with
      | [] => none
      | b :: rest =>
          (s.server.step (.broadcast b.obj b.created b.uuid now batchId)).map fun server =>
            { s with posted := rest, server := server }
  | .server l =>
      -- A connection that has not broken is not found closed.
      if l.broadcastId = none ∧ (findsClosed s.server l = none ∨ findsClosed s.server l ≠ s.conn) then
        (s.server.step l).map fun server =>
          { s with server := server, wire := s.wire ++ s.arrivals l }
      else none
  | .dial ws =>
      if s.conn = none ∧ ws ∉ s.server.seen then some { s with conn := some ws } else none
  | .opened =>
      if s.conn ≠ none ∧ s.isConnected = false then
        some { s with
          isConnected := true
          stage := if s.stage = .connecting then .connected else s.stage }
      else none
  | .handshake =>
      -- `transport.send` drops the message while there is no connection.
      if s.stage = .connected then
        some { s with stage := .handshaking, handshakeSent := s.isConnected }
      else none
  | .handshakeReceived created uuid =>
      match s.conn with
      | none => none
      | some ws =>
          if s.handshakeSent then
            (s.server.step (.receive ws .command)).map fun server =>
              { s with server := server, handshakeSent := false }.post ⟨handshakeAck, created, uuid⟩
          else none
  | .deliver =>
      if s.isConnected then
        match s.wire with
        | [] => none
        | o :: rest => some { s with wire := rest, stage := o.events.foldl Stage.onMessage s.stage }
      else none
  | .attach => if s.stage = .handshaken then some { s with stage := .waiting } else none
  | .dropped =>
      if s.conn = none then none
      else
        -- The first `connect` is rejected when its socket fails.
        some { s with
          conn := none
          isConnected := false
          handshakeSent := false
          wire := []
          stage := if s.stage = .connecting then .failed else s.stage }
  | .timeout =>
      if s.stage = .handshaking ∨ s.stage = .waiting then some { s with stage := .failed } else none

/-! ## What a step does -/

/-- Receiving a command leaves the server as it is. -/
theorem eq_of_receive_command {v w : WSServer StartPayload} {ws : ℕ}
    (h : v.step (.receive ws .command) = some w) : w = v := by
  simp only [WSServer.step] at h
  split at h
  · exact (Option.some.inj h).symm
  · cases h

/-- The steps, each with its guard and the state it leads to. -/
inductive StepsTo (s : Startup) : StartLabel → Startup → Prop
  | emit (hsignal : s.signal = .unsent) : StepsTo s .emit { s with signal := .emitted }
  | relay {created : ℚ} {uuid : Text} (hsignal : s.signal = .emitted) :
      StepsTo s (.relay created uuid)
        ({ s with signal := .broadcast }.post ⟨readyStatus, created, uuid⟩)
  | post {obj : MessageObj StartPayload} {created : ℚ} {uuid : Text}
      (hother : isReady (outMsg obj created uuid) = false) :
      StepsTo s (.post obj created uuid) (s.post ⟨obj, created, uuid⟩)
  | callback {now : ℚ} {batchId : Text} {b : Posted} {rest : List Posted}
      {v : WSServer StartPayload} (hposted : s.posted = b :: rest)
      (hserver : s.server.step (.broadcast b.obj b.created b.uuid now batchId) = some v) :
      StepsTo s (.callback now batchId) { s with posted := rest, server := v }
  | server {l : Label StartPayload} {v : WSServer StartPayload} (hlabel : l.broadcastId = none)
      (hserver : s.server.step l = some v) :
      StepsTo s (.server l) { s with server := v, wire := s.wire ++ s.arrivals l }
  | dial {ws : ℕ} (hconn : s.conn = none) (hnew : ws ∉ s.server.seen) :
      StepsTo s (.dial ws) { s with conn := some ws }
  | opened : StepsTo s .opened { s with
      isConnected := true
      stage := if s.stage = .connecting then .connected else s.stage }
  | handshake : StepsTo s .handshake
      { s with stage := .handshaking, handshakeSent := s.isConnected }
  | handshakeReceived {created : ℚ} {uuid : Text} :
      StepsTo s (.handshakeReceived created uuid)
        ({ s with handshakeSent := false }.post ⟨handshakeAck, created, uuid⟩)
  | deliver {o : Outgoing StartPayload} {rest : List (Outgoing StartPayload)}
      (hwire : s.wire = o :: rest) :
      StepsTo s .deliver
        { s with wire := rest, stage := o.events.foldl Stage.onMessage s.stage }
  | attach : StepsTo s .attach { s with stage := .waiting }
  | dropped : StepsTo s .dropped { s with
      conn := none
      isConnected := false
      handshakeSent := false
      wire := []
      stage := if s.stage = .connecting then .failed else s.stage }
  | timeout : StepsTo s .timeout { s with stage := .failed }

/-- **What one step does.** -/
theorem stepsTo_of_step {s t : Startup} {l : StartLabel} (h : s.step l = some t) :
    s.StepsTo l t := by
  cases l with
  | emit =>
      obtain ⟨hsignal, h⟩ := Option.ite_none_right_eq_some.mp h
      obtain rfl := Option.some.inj h
      exact .emit hsignal
  | relay created uuid =>
      obtain ⟨hsignal, h⟩ := Option.ite_none_right_eq_some.mp h
      obtain rfl := Option.some.inj h
      exact .relay hsignal
  | post obj created uuid =>
      obtain ⟨hother, h⟩ := Option.ite_none_left_eq_some.mp h
      obtain rfl := Option.some.inj h
      exact .post (Bool.eq_false_iff.mpr hother)
  | callback now batchId =>
      simp only [step] at h
      split at h
      · cases h
      next b rest hposted =>
        obtain ⟨v, hv, rfl⟩ := Option.map_eq_some_iff.mp h
        exact .callback hposted hv
  | server l =>
      obtain ⟨hlabel, h⟩ := Option.ite_none_right_eq_some.mp h
      obtain ⟨v, hv, rfl⟩ := Option.map_eq_some_iff.mp h
      exact .server hlabel.1 hv
  | dial ws =>
      obtain ⟨⟨hconn, hnew⟩, h⟩ := Option.ite_none_right_eq_some.mp h
      obtain rfl := Option.some.inj h
      exact .dial hconn hnew
  | opened =>
      obtain ⟨-, h⟩ := Option.ite_none_right_eq_some.mp h
      obtain rfl := Option.some.inj h
      exact .opened
  | handshake =>
      obtain ⟨-, h⟩ := Option.ite_none_right_eq_some.mp h
      obtain rfl := Option.some.inj h
      exact .handshake
  | handshakeReceived created uuid =>
      simp only [step] at h
      split at h
      · cases h
      · obtain ⟨-, h⟩ := Option.ite_none_right_eq_some.mp h
        obtain ⟨v, hv, rfl⟩ := Option.map_eq_some_iff.mp h
        obtain rfl := eq_of_receive_command hv
        exact .handshakeReceived
  | deliver =>
      obtain ⟨-, h⟩ := Option.ite_none_right_eq_some.mp h
      split at h
      · cases h
      next o rest hwire =>
        obtain rfl := Option.some.inj h
        exact .deliver hwire
  | attach =>
      obtain ⟨-, h⟩ := Option.ite_none_right_eq_some.mp h
      obtain rfl := Option.some.inj h
      exact .attach
  | dropped =>
      obtain ⟨-, h⟩ := Option.ite_none_left_eq_some.mp h
      obtain rfl := Option.some.inj h
      exact .dropped
  | timeout =>
      obtain ⟨-, h⟩ := Option.ite_none_right_eq_some.mp h
      obtain rfl := Option.some.inj h
      exact .timeout

/-! ## Where the signal is -/

/-- The SDK's connection is still to come in the send loop. -/
def Ahead (s : Startup) (f : SendLoop StartPayload) : Prop :=
  ∀ ws ∈ s.conn, ws ∉ f.visited

instance (s : Startup) (f : SendLoop StartPayload) : Decidable (s.Ahead f) :=
  inferInstanceAs (Decidable (∀ ws ∈ s.conn, _))

/-- How many callbacks will send a `ready` status. -/
def inPosted (s : Startup) : ℕ :=
  s.posted.countP fun b => isReady b.msg

/-- The status is in flight to the SDK or queued by the server: a callback, a task or
a send has it before it, the server has put it by, or it is on the connection. -/
def Carried (s : Startup) : Prop :=
  0 < s.inPosted ∨ 0 < s.server.inTasks isReady ∨
    (∃ f ∈ s.server.sending, f.msg.carries isReady = true ∧ s.Ahead f) ∨
    s.server.Queues isReady ∨ ∃ o ∈ s.wire, o.carries isReady = true

instance (s : Startup) : Decidable s.Carried :=
  inferInstanceAs (Decidable (_ ∨ _ ∨ _ ∨ _ ∨ _))

/-- `start` does not wait for a status that has been broadcast and is gone. -/
def NotLost (s : Startup) : Prop :=
  s.stage = .waiting → s.signal = .broadcast → s.Carried

instance (s : Startup) : Decidable s.NotLost :=
  inferInstanceAs (Decidable (_ → _ → _))

/-! ## Where it can be -/

section Invariant

variable {s t : Startup} {l : StartLabel}

/-- The status is in one place, and nothing keeps it; on the connection it is when its
send has been there. -/
structure Placed (s : Startup) : Prop where
  keepsNone : s.server.KeepsNone isReady
  known : s.server.Known
  offline : s.conn = none → s.wire = []
  unsent : s.signal ≠ .broadcast →
    s.inPosted + (s.server.inTasks isReady + s.server.inSends isReady) = 0 ∧
      ∀ o ∈ s.wire, o.carries isReady = false
  once : s.inPosted + (s.server.inTasks isReady + s.server.inSends isReady) ≤ 1
  onWire : ∀ o ∈ s.wire, o.carries isReady = true →
    s.inPosted + s.server.inTasks isReady = 0 ∧
      ∀ f ∈ s.server.sending, f.msg.carries isReady = true → ¬ s.Ahead f

theorem placed_init : init.Placed where
  keepsNone := WSServer.keepsNone_init
  known := WSServer.known_init
  offline := fun _ => rfl
  unsent := fun _ => ⟨rfl, by simp [init]⟩
  once := by simp [init, inPosted, WSServer.inTasks, WSServer.inSends, WSServer.init]
  onWire := by simp [init]

theorem inPosted_post (s : Startup) (b : Posted) :
    (s.post b).inPosted = s.inPosted + if isReady b.msg = true then 1 else 0 := by
  rw [inPosted, post, List.countP_append, List.countP_singleton]
  rfl

/-- Posting anything else. -/
theorem Placed.post (h : s.Placed) {b : Posted} (hb : isReady b.msg = false) :
    (s.post b).Placed := by
  have hposted : (s.post b).inPosted = s.inPosted := by
    rw [inPosted_post, hb]
    rfl
  refine ⟨h.keepsNone, h.known, h.offline, ?_, ?_, ?_⟩
  · rw [hposted]
    exact h.unsent
  · rw [hposted]
    exact h.once
  · rw [hposted]
    exact h.onWire

theorem mem_arrivals {l : Label StartPayload} {o : Outgoing StartPayload} :
    o ∈ s.arrivals l ↔ ∃ f, s.server.started l = some f ∧ s.conn = some f.ws ∧ f.msg = o := by
  unfold arrivals
  cases hstarted : s.server.started l with
  | none => simp
  | some f =>
      simp only [Option.some.injEq, exists_eq_left']
      split
      next hconn => simp [hconn, eq_comm]
      next hconn => simp [hconn]

theorem visited_of_sends {v : WSServer StartPayload} {l : Label StartPayload}
    {f : SendLoop StartPayload} (h : v.Sends f l) : f.ws ∈ f.visited := by
  cases h with
  | task pick rest htasks hclients hvisited =>
      rw [hvisited]
      exact List.mem_singleton_self _
  | next i closed pick g hg hmsg hsize hvisited =>
      rw [hvisited]
      exact List.mem_cons_self ..

/-- **A step of the server** moves the status on and does not copy it. -/
theorem Placed.server (h : s.Placed) {l : Label StartPayload} {v : WSServer StartPayload}
    (hl : l.broadcastId = none) (hstep : s.server.step l = some v) :
    Placed { s with server := v, wire := s.wire ++ s.arrivals l } := by
  have htasks := WSServer.inTasks_step (p := isReady) hl hstep
  have hcopies := WSServer.copies_step h.keepsNone hl hstep
  have hsending := (WSServer.step_effect hstep).sending
  -- A send that is led to its `await` is among the sends after the step.
  have hstarted {f : SendLoop StartPayload} (hf : s.server.started l = some f) : f ∈ v.sending := by
    rw [hsending, hf]
    exact List.mem_append_right _ (List.mem_singleton_self f)
  refine ⟨WSServer.keepsNone_step isReady_fireAndForget h.keepsNone hstep,
    WSServer.known_step h.known hstep, ?_, ?_, ?_, ?_⟩
  · intro hconn
    have hnone : s.arrivals l = [] := by
      rw [List.eq_nil_iff_forall_not_mem]
      intro o ho
      obtain ⟨f, -, hws, -⟩ := mem_arrivals.mp ho
      cases hconn.symm.trans hws
    show s.wire ++ s.arrivals l = []
    rw [h.offline hconn, hnone]
    rfl
  · intro hsignal
    obtain ⟨hzero, hwire⟩ := h.unsent hsignal
    have hnow : s.inPosted + (v.inTasks isReady + v.inSends isReady) = 0 := by omega
    refine ⟨hnow, ?_⟩
    intro o ho
    rcases List.mem_append.mp ho with hold | hnew
    · exact hwire o hold
    · obtain ⟨f, hf, -, rfl⟩ := mem_arrivals.mp hnew
      exact WSServer.carries_eq_false_of_inSends (by omega) (hstarted hf)
  · show s.inPosted + (v.inTasks isReady + v.inSends isReady) ≤ 1
    have := h.once
    omega
  · intro o ho hcarries
    show s.inPosted + v.inTasks isReady = 0 ∧
      ∀ f ∈ v.sending, f.msg.carries isReady = true → ¬ s.Ahead f
    rcases List.mem_append.mp ho with hold | hnew
    · obtain ⟨hzero, hpassed⟩ := h.onWire o hold hcarries
      refine ⟨by omega, ?_⟩
      intro f hf hready
      rw [hsending] at hf
      rcases List.mem_append.mp hf with hother | hnext
      · exact hpassed f (WSServer.mem_sending_of_otherSends hother) hready
      · -- The loop that goes on has been where it was before.
        cases (WSServer.started_cases h.keepsNone (Option.mem_toList.mp hnext)).2 hready with
        | task pick rest hhead hclients hvisited =>
            have hpos : 0 < s.server.inTasks isReady :=
              WSServer.inTasks_pos (hhead ▸ List.mem_cons_self ..) hready
            omega
        | next i closed pick g hg hmsg hsize hvisited =>
            intro hahead
            refine hpassed g (List.mem_of_getElem? hg) (hmsg ▸ hready) ?_
            intro ws hws hmem
            exact hahead ws hws (hvisited ▸ List.mem_cons_of_mem _ hmem)
    · obtain ⟨f, hf, hconn, rfl⟩ := mem_arrivals.mp hnew
      have hpos : 0 < v.inSends isReady := WSServer.inSends_pos (hstarted hf) hcarries
      have hzero : s.inPosted + v.inTasks isReady = 0 := by
        have := h.once
        omega
      refine ⟨hzero, ?_⟩
      intro g hg hready hahead
      -- There is one send of the status, and it is at the SDK's connection.
      have hothers : ((s.server.otherSends l).countP fun f => f.msg.carries isReady) = 0 := by
        have hcount : v.inSends isReady =
            ((s.server.otherSends l).countP fun f => f.msg.carries isReady) + 1 := by
          rw [WSServer.inSends, hsending, hf, List.countP_append, Option.toList_some,
            List.countP_singleton, if_pos hcarries]
        have := h.once
        omega
      rw [hsending, hf] at hg
      rcases List.mem_append.mp hg with hother | hself
      · exact List.countP_eq_zero.mp hothers g hother hready
      · obtain rfl := List.mem_singleton.mp hself
        have hvisited := visited_of_sends ((WSServer.started_cases h.keepsNone hf).2 hcarries)
        exact hahead g.ws hconn hvisited

theorem inPosted_of_posted {b : Posted} {rest : List Posted} (hposted : s.posted = b :: rest) :
    s.inPosted = (rest.countP fun b => isReady b.msg) + if isReady b.msg = true then 1 else 0 := by
  rw [inPosted, hposted, List.countP_cons]

/-- **The callback** makes a task of the status, or drops it. -/
theorem Placed.callback (h : s.Placed) {b : Posted} {rest : List Posted} {now : ℚ}
    {batchId : Text} {v : WSServer StartPayload} (hposted : s.posted = b :: rest)
    (hstep : s.server.step (.broadcast b.obj b.created b.uuid now batchId) = some v) :
    Placed { s with posted := rest, server := v } := by
  have hbefore := inPosted_of_posted hposted
  obtain ⟨hsending, htasks⟩ :=
    WSServer.copies_broadcast isReady_fireAndForget h.keepsNone hstep
  have hsends : v.inSends isReady = s.server.inSends isReady := by
    rw [WSServer.inSends, hsending]
    rfl
  -- What leaves the callbacks is what the tasks get, at most.
  have hmoved : (rest.countP fun b => isReady b.msg) + v.inTasks isReady ≤
      s.inPosted + s.server.inTasks isReady := by
    rw [hbefore, htasks]
    by_cases hready : isReady b.msg = true
    · rw [if_pos hready]
      split
      · omega
      · omega
    · rw [if_neg hready, if_neg (fun hand => hready hand.1)]
      omega
  have hrest : ({ s with posted := rest, server := v } : Startup).inPosted =
      rest.countP fun b => isReady b.msg := rfl
  refine ⟨WSServer.keepsNone_step isReady_fireAndForget h.keepsNone hstep,
    WSServer.known_step h.known hstep, h.offline, ?_, ?_, ?_⟩
  · intro hsignal
    obtain ⟨hzero, hwire⟩ := h.unsent hsignal
    refine ⟨?_, hwire⟩
    rw [hrest]
    show _ + (v.inTasks isReady + v.inSends isReady) = 0
    omega
  · have := h.once
    rw [hrest]
    show _ + (v.inTasks isReady + v.inSends isReady) ≤ 1
    omega
  · intro o ho hcarries
    obtain ⟨hzero, hpassed⟩ := h.onWire o ho hcarries
    refine ⟨?_, ?_⟩
    · rw [hrest]
      show _ + v.inTasks isReady = 0
      omega
    · intro f hf
      exact hpassed f (hsending ▸ hf)

/-- What the SDK knows of its connection does not move the status. -/
theorem Placed.sdkSide (h : s.Placed) (isConnected handshakeSent : Bool) (stage : Stage) :
    Placed { s with
      isConnected := isConnected
      handshakeSent := handshakeSent
      stage := stage } :=
  ⟨h.keepsNone, h.known, h.offline, h.unsent, h.once, h.onWire⟩

/-- Whatever happens, the status is in one place. -/
theorem placed_step (h : s.Placed) (hstep : s.step l = some t) : t.Placed := by
  cases stepsTo_of_step hstep with
  | emit hsignal =>
      have hunsent : s.signal ≠ .broadcast := by
        rw [hsignal]
        nofun
      exact ⟨h.keepsNone, h.known, h.offline, fun _ => h.unsent hunsent, h.once, h.onWire⟩
  | @relay created uuid hsignal =>
      obtain ⟨hzero, hwire⟩ := h.unsent (by rw [hsignal]; nofun)
      refine ⟨h.keepsNone, h.known, h.offline, fun hno => absurd rfl hno, ?_, ?_⟩
      · have hready : isReady (Posted.msg ⟨readyStatus, created, uuid⟩) = true :=
          isReady_readyStatus created uuid
        rw [inPosted_post, if_pos hready]
        show s.inPosted + 1 + (s.server.inTasks isReady + s.server.inSends isReady) ≤ 1
        omega
      · intro o ho hcarries
        cases hcarries.symm.trans (hwire o ho)
  | post hother => exact h.post hother
  | callback hposted hserver => exact h.callback hposted hserver
  | server hlabel hserver => exact h.server hlabel hserver
  | dial hconn =>
      have hwire := h.offline hconn
      refine ⟨h.keepsNone, h.known, nofun, h.unsent, h.once, ?_⟩
      intro o ho
      rw [show _ = s.wire from rfl, hwire] at ho
      cases ho
  | opened => exact h.sdkSide _ _ _
  | handshake => exact h.sdkSide _ _ _
  | @handshakeReceived created uuid =>
      exact (h.sdkSide s.isConnected false s.stage).post (isReady_handshakeAck created uuid)
  | @deliver o rest hwire =>
      have hmem : ∀ x ∈ rest, x ∈ s.wire := fun x hx => hwire ▸ List.mem_cons_of_mem _ hx
      refine ⟨h.keepsNone, h.known, ?_, ?_, h.once, fun x hx => h.onWire x (hmem x hx)⟩
      · intro hconn
        cases hwire.symm.trans (h.offline hconn)
      · intro hsignal
        obtain ⟨hzero, hnone⟩ := h.unsent hsignal
        exact ⟨hzero, fun x hx => hnone x (hmem x hx)⟩
  | attach => exact h.sdkSide _ _ _
  | dropped =>
      refine ⟨h.keepsNone, h.known, fun _ => rfl, ?_, h.once, nofun⟩
      exact fun hsignal => ⟨(h.unsent hsignal).1, nofun⟩
  | timeout => exact h.sdkSide _ _ _

end Invariant

end Startup

end Sdk
end AvaListener
