import AvaListener.Transport.ClientSet
import AvaListener.Transport.Provenance

/-!
# How often a message is delivered

The transport remembers no ids, and the server sends a message of the two kept classes
again until its ack has arrived, so that an ack that crosses a retransmission makes a
second event (`wake_emitted_twice`).  Nothing between the two multiplies a message: a
step makes at most as many copies of it as sends of it begin (`copies_step`), and the
retry loop begins one only while the ack of the id is awaited (`sends_retryTick_le`).
-/

namespace AvaListener
namespace Transport

open Library

variable {π : Type}

/-- A guaranteed or retry-class message with this id. -/
def keptAs (id : Text) (m : OutMsg π) : Bool :=
  m.correlationId = id ∧ ackClass m.type ≠ none

/-! ## Retry ticks -/

namespace Reliability

/-- The retry loop takes at most one message with an id, and that one from the entry of the
id. -/
theorem countP_toRetry_le {r : Reliability π} (hkeyed : r.Keyed) (now : ℚ) (id : Text) :
    (r.toRetry now).countP (keptAs id) ≤
      if (r.pendingAcks.get? id).isSome then 1 else 0 := by
  have hid {m : OutMsg π} (h : keptAs id m = true) : m.correlationId = id :=
    (of_decide_eq_true h).1
  split
  next =>
    calc (r.toRetry now).countP (keptAs id)
        ≤ r.pendingAcks.values.countP (fun p => keptAs id p.msg) := by
          rw [toRetry, List.countP_map]
          exact List.filter_sublist.countP_le
      _ = r.pendingAcks.entries.countP (fun e => keptAs id e.2.msg) := by
          rw [Dict.values, List.countP_map]
          rfl
      _ ≤ r.pendingAcks.entries.countP (fun e => e.1 == id) := by
          apply List.countP_mono_left
          intro e he hkept
          rw [beq_iff_eq, ← hkeyed e.1 e.2 (Dict.get?_eq_some_iff.mpr he)]
          exact hid hkept
      _ = r.pendingAcks.keys.count id := by
          rw [Dict.keys, List.count, List.countP_map]
          rfl
      _ ≤ 1 := List.nodup_iff_count_le_one.mp r.pendingAcks.nodup id
  next hnone =>
    rw [Nat.le_zero, List.countP_eq_zero]
    intro m hm hkept
    obtain ⟨k, p, hp, -, rfl⟩ := mem_toRetry.mp hm
    obtain rfl : k = id := (hkeyed k p hp).symm.trans (hid hkept)
    exact hnone (by rw [hp]; rfl)

end Reliability

namespace Connection

/-! ## Copies -/

/-- What a send loop has still to put on this connection. -/
def toSend (unbatch : π → List (OutMsg π)) (ws : ℕ) (f : SendLoop π) : List (OutMsg π) :=
  (if ws ∈ f.visited then [] else f.msg.emits unbatch) ++
    f.rest.flatMap fun o => o.emits unbatch

/-- Every copy of a message: in a task, in a send loop, on the wire, emitted. -/
def copies (unbatch : π → List (OutMsg π)) (ws : ℕ) (s : Connection π) : List (OutMsg π) :=
  (s.server.tasks.flatMap fun o => o.emits unbatch) ++
    s.server.sending.flatMap (toSend unbatch ws) ++
    (s.wire.flatMap fun o => o.emits unbatch) ++ s.emitted

/-- The sends that a step of the server begins: the tasks it makes, what a flush or a
background loop sets out to send, and a message that the iterator of a changed set takes
to this connection a second time. -/
def begins (ws : ℕ) (s : WSServer π) (l : Label π) : List (Outgoing π) :=
  match l with
  | .broadcast _ _ _ _ _ => (s.tasksAfter l).drop s.tasks.length
  | .sent _ _ (some _) _ =>
      match s.started l with
      | some f => if f.ws = ws ∧ ws ∈ f.visited.tail then [f.msg] else []
      | none => []
  | .connect _ _ | .retryTick _ _ | .batchTick _ _ _ =>
      match s.started l with
      | some f => f.msg :: f.rest
      | none => []
  | _ => []

section Step

variable (unbatch : π → List (OutMsg π)) (p : OutMsg π → Bool) (ws : ℕ)

/-- How many messages of the kind `p` the transport would emit for these. -/
def emitCount (msgs : List (Outgoing π)) : ℕ :=
  (msgs.flatMap fun o => o.emits unbatch).countP p

@[simp] theorem emitCount_nil : emitCount unbatch p [] = 0 := rfl

theorem emitCount_cons (o : Outgoing π) (msgs : List (Outgoing π)) :
    emitCount unbatch p (o :: msgs) = (o.emits unbatch).countP p + emitCount unbatch p msgs := by
  simp [emitCount]

theorem emitCount_append (xs ys : List (Outgoing π)) :
    emitCount unbatch p (xs ++ ys) = emitCount unbatch p xs + emitCount unbatch p ys := by
  simp [emitCount]

theorem emitCount_take_le (n : ℕ) (msgs : List (Outgoing π)) :
    emitCount unbatch p (msgs.take n) ≤ emitCount unbatch p msgs := by
  have hsplit := emitCount_append unbatch p (msgs.take n) (msgs.drop n)
  rw [List.take_append_drop] at hsplit
  omega

/-- How many such messages the send loops have still to put on this connection. -/
def sendCount (sends : List (SendLoop π)) : ℕ :=
  (sends.flatMap (toSend unbatch ws)).countP p

@[simp] theorem sendCount_nil : sendCount unbatch p ws [] = 0 := rfl

theorem sendCount_singleton (f : SendLoop π) :
    sendCount unbatch p ws [f] =
      (if ws ∈ f.visited then 0 else (f.msg.emits unbatch).countP p) +
        emitCount unbatch p f.rest := by
  by_cases hvisited : ws ∈ f.visited
  · simp [sendCount, toSend, emitCount, hvisited]
  · simp [sendCount, toSend, emitCount, hvisited]

theorem sendCount_append (fs gs : List (SendLoop π)) :
    sendCount unbatch p ws (fs ++ gs) = sendCount unbatch p ws fs + sendCount unbatch p ws gs := by
  simp [sendCount]

theorem sendCount_eq_resumed {s : WSServer π} {f : SendLoop π} {i : ℕ}
    (hf : s.sending[i]? = some f) :
    sendCount unbatch p ws s.sending =
      sendCount unbatch p ws [f] + sendCount unbatch p ws (s.sending.eraseIdx i) := by
  rw [← sendCount_append, List.singleton_append]
  exact (((WSServer.resumed_perm hf).flatMap_right _).countP_eq p).symm

theorem emitCount_put_le (isOpen : Bool) (f : SendLoop π) :
    emitCount unbatch p (put ws isOpen f) ≤
      if f.ws = ws then (f.msg.emits unbatch).countP p else 0 := by
  unfold put
  by_cases hws : f.ws = ws
  · cases isOpen with
    | true => simp [hws, emitCount]
    | false => simp
  · simp [hws]

variable {s t : WSServer π} {f : SendLoop π}

/-- A caller that sets out to send `msgs`. -/
theorem sendCount_firstSend {caller : Caller} {msgs : List (Outgoing π)} {pick : ℕ}
    (isOpen : Bool) (hf : s.firstSend caller msgs pick = some f) :
    sendCount unbatch p ws [f] + emitCount unbatch p (put ws isOpen f) ≤
      emitCount unbatch p msgs := by
  obtain ⟨-, hform, hmsgs⟩ := WSServer.firstSend_eq_some hf
  have hvisited : f.visited = [f.ws] := by rw [hform]
  have hput := emitCount_put_le unbatch p ws isOpen f
  rw [hmsgs, emitCount_cons, sendCount_singleton, hvisited]
  by_cases hws : f.ws = ws
  · rw [if_pos hws] at hput
    rw [if_pos (List.mem_singleton.mpr hws.symm)]
    omega
  · rw [if_neg hws] at hput
    rw [if_neg fun hmem => hws (List.mem_singleton.mp hmem).symm]
    omega

/-- A send loop that goes on to the next client. -/
theorem sendCount_goOn (isOpen : Bool) {g : SendLoop π} (hmsg : f.msg = g.msg)
    (hrest : f.rest = g.rest) (hvisited : f.visited = f.ws :: g.visited) :
    sendCount unbatch p ws [f] + emitCount unbatch p (put ws isOpen f) ≤
      sendCount unbatch p ws [g] +
        emitCount unbatch p (if f.ws = ws ∧ ws ∈ f.visited.tail then [f.msg] else []) := by
  have hput := emitCount_put_le unbatch p ws isOpen f
  rw [sendCount_singleton, sendCount_singleton, hvisited, List.tail_cons, ← hmsg, ← hrest]
  by_cases hws : f.ws = ws
  · rw [if_pos hws] at hput
    rw [if_pos (hws ▸ List.mem_cons_self ..)]
    by_cases hagain : ws ∈ g.visited
    · rw [if_pos hagain, if_pos ⟨hws, hagain⟩, emitCount_cons, emitCount_nil]
      omega
    · rw [if_neg hagain]
      omega
  · rw [if_neg hws] at hput
    have hmem : ws ∈ f.ws :: g.visited ↔ ws ∈ g.visited := by
      simp [Ne.symm hws]
    simp only [hmem]
    omega

/-- The tasks that a broadcast makes come after those there are. -/
theorem tasksAfter_broadcast {obj : MessageObj π} {created now : ℚ} {uuid batchId : Text} :
    s.tasksAfter (.broadcast obj created uuid now batchId) =
      s.tasks ++ begins ws s (.broadcast obj created uuid now batchId) := by
  simp only [begins, WSServer.tasksAfter]
  split
  · rw [List.drop_left]
  · split
    · rw [List.drop_length, List.append_nil]
    · rw [List.drop_left]

/-- How many such messages the server has still to put on this connection. -/
def serverCount (s : WSServer π) : ℕ :=
  emitCount unbatch p s.tasks + sendCount unbatch p ws s.sending

/-- A step that makes no task and resumes no send. -/
theorem serverCount_of_begins {l : Label π} (isOpen : Bool) (hstep : s.step l = some t)
    (htasks : s.tasksAfter l = s.tasks) (hsends : s.otherSends l = s.sending)
    (hbegins : ∀ f, s.started l = some f →
      sendCount unbatch p ws [f] + emitCount unbatch p (put ws isOpen f) ≤
        emitCount unbatch p (begins ws s l)) :
    serverCount unbatch p ws t + emitCount unbatch p (puts ws s isOpen l) ≤
      serverCount unbatch p ws s + emitCount unbatch p (begins ws s l) := by
  have heffect := WSServer.step_effect hstep
  rw [serverCount, serverCount, heffect.tasks, heffect.sending, htasks, hsends, sendCount_append,
    puts]
  cases hstarted : s.started l with
  | none =>
      simp only [Option.toList_none, sendCount_nil, List.flatMap_nil, emitCount_nil]
      omega
  | some f =>
      have hf := hbegins f hstarted
      simp only [Option.toList_some, List.flatMap_cons, List.flatMap_nil, List.append_nil]
      omega

/-- The oldest task becomes a send loop. -/
theorem serverCount_startTask {pick : ℕ} (isOpen : Bool)
    (hstep : s.step (.startTask pick) = some t) :
    serverCount unbatch p ws t + emitCount unbatch p (puts ws s isOpen (.startTask pick)) ≤
      serverCount unbatch p ws s := by
  have heffect := WSServer.step_effect hstep
  rw [serverCount, serverCount, heffect.tasks, heffect.sending, sendCount_append, puts]
  simp only [WSServer.otherSends, WSServer.tasksAfter, WSServer.started]
  cases htasks : s.tasks with
  | nil => simp
  | cons msg rest =>
      simp only [List.tail_cons, emitCount_cons]
      cases hf : s.firstSend .task [msg] pick with
      | none =>
          simp only [Option.toList_none, sendCount_nil, List.flatMap_nil, emitCount_nil]
          omega
      | some f =>
          have hcount := sendCount_firstSend unbatch p ws isOpen hf
          rw [emitCount_cons, emitCount_nil] at hcount
          simp only [Option.toList_some, List.flatMap_cons, List.flatMap_nil, List.append_nil]
          omega

/-- A send loop that is resumed goes on to another client, to the next message of its
caller, or ends. -/
theorem sendCount_started {i pick : ℕ} {closed : Bool} {next : Option ℕ} (isOpen : Bool)
    {g : SendLoop π} (hg : s.sending[i]? = some g)
    (hf : s.started (.sent i closed next pick) = some f) :
    sendCount unbatch p ws [f] + emitCount unbatch p (put ws isOpen f) ≤
      sendCount unbatch p ws [g] +
        emitCount unbatch p (begins ws s (.sent i closed next pick)) := by
  have hstarted := hf
  simp only [WSServer.started, hg] at hf
  split at hf
  · cases hf
  · cases next with
    | some w =>
        obtain rfl := Option.some.inj hf
        simp only [begins, hstarted]
        exact sendCount_goOn unbatch p ws isOpen rfl rfl rfl
    | none =>
        have hcount := sendCount_firstSend unbatch p ws isOpen hf
        have hrest := sendCount_singleton unbatch p ws g
        omega

theorem serverCount_sent {i pick : ℕ} {closed : Bool} {next : Option ℕ} (isOpen : Bool)
    (hstep : s.step (.sent i closed next pick) = some t) :
    serverCount unbatch p ws t +
        emitCount unbatch p (puts ws s isOpen (.sent i closed next pick)) ≤
      serverCount unbatch p ws s +
        emitCount unbatch p (begins ws s (.sent i closed next pick)) := by
  have heffect := WSServer.step_effect hstep
  rw [serverCount, serverCount, heffect.tasks, heffect.sending, sendCount_append, puts]
  simp only [WSServer.otherSends, WSServer.tasksAfter]
  cases hg : s.sending[i]? with
  | none =>
      rw [WSServer.step, hg] at hstep
      cases hstep
  | some g =>
      have hresumed := sendCount_eq_resumed unbatch p ws hg
      cases hf : s.started (.sent i closed next pick) with
      | none =>
          simp only [Option.toList_none, sendCount_nil, List.flatMap_nil, emitCount_nil]
          omega
      | some f =>
          have hcount := sendCount_started unbatch p ws isOpen hg hf
          simp only [Option.toList_some, List.flatMap_cons, List.flatMap_nil, List.append_nil]
          omega

/-- **The server makes no copies**: what it has still to put on the connection and what
it puts there now it had to before, or a send of it begins. -/
theorem serverCount_step {l : Label π} (isOpen : Bool) (hstep : s.step l = some t) :
    serverCount unbatch p ws t + emitCount unbatch p (puts ws s isOpen l) ≤
      serverCount unbatch p ws s + emitCount unbatch p (begins ws s l) := by
  -- A caller whose messages are those that begin.
  have hfirst {f : SendLoop π} {a : WSServer π} {caller : Caller} {msgs : List (Outgoing π)}
      {pick : ℕ} (hf : a.firstSend caller msgs pick = some f)
      (hbegins : begins ws s l = f.msg :: f.rest) :
      sendCount unbatch p ws [f] + emitCount unbatch p (put ws isOpen f) ≤
        emitCount unbatch p (begins ws s l) := by
    have hmsgs := (WSServer.firstSend_eq_some hf).2.2
    rw [hbegins, ← hmsgs]
    exact sendCount_firstSend unbatch p ws isOpen hf
  have hnone (htasks : s.tasksAfter l = s.tasks) (hsends : s.otherSends l = s.sending)
      (hstarted : s.started l = none) :=
    serverCount_of_begins unbatch p ws isOpen hstep htasks hsends
      fun f hf => by cases hstarted.symm.trans hf
  cases l with
  | broadcast obj created uuid now batchId =>
      have heffect := WSServer.step_effect hstep
      have hputs : puts ws s isOpen (.broadcast obj created uuid now batchId) = [] := rfl
      rw [serverCount, serverCount, heffect.tasks, heffect.sending, tasksAfter_broadcast ws,
        emitCount_append, hputs]
      simp only [WSServer.otherSends, WSServer.started, Option.toList_none, List.append_nil,
        emitCount_nil]
      omega
  | connect w pick =>
      refine serverCount_of_begins unbatch p ws isOpen hstep rfl rfl fun f hf => ?_
      apply hfirst hf
      simp only [begins, hf]
  | retryTick now pick =>
      refine serverCount_of_begins unbatch p ws isOpen hstep rfl rfl fun f hf => ?_
      apply hfirst hf
      simp only [begins, hf]
  | batchTick now batchId pick =>
      refine serverCount_of_begins unbatch p ws isOpen hstep rfl rfl fun f hf => ?_
      have hbegins : begins ws s (.batchTick now batchId pick) = f.msg :: f.rest := by
        simp only [begins, hf]
      simp only [WSServer.started] at hf
      split at hf
      · cases hf
      · exact hfirst hf hbegins
  | startTask pick => exact serverCount_startTask unbatch p ws isOpen hstep
  | sent i closed next pick => exact serverCount_sent unbatch p ws isOpen hstep
  | receive w msg => exact hnone rfl rfl rfl
  | replied w closed => exact hnone rfl rfl rfl
  | disconnect w => exact hnone rfl rfl rfl

end Step

/-! ## Runs -/

section Run

variable {unbatch : π → List (OutMsg π)} {ws : ℕ}

/-- The messages whose sending begins in a step. -/
def begun (unbatch : π → List (OutMsg π)) (ws : ℕ) (s : Connection π) :
    ConnectionLabel π → List (OutMsg π)
  | .server l => (begins ws s.server l).flatMap fun o => o.emits unbatch
  | .malformed timestamp payload =>
      (replies s.isOpen timestamp payload).flatMap fun o => o.emits unbatch
  | _ => []

/-- How many sends of a guaranteed or retry-class message with this id begin in a step. -/
def sends (unbatch : π → List (OutMsg π)) (ws : ℕ) (id : Text) (s : Connection π)
    (l : ConnectionLabel π) : ℕ :=
  (s.begun unbatch ws l).countP (keptAs id)

theorem countP_copies (p : OutMsg π → Bool) (s : Connection π) :
    (s.copies unbatch ws).countP p =
      serverCount unbatch p ws s.server + emitCount unbatch p s.wire + s.emitted.countP p := by
  rw [copies, List.countP_append, List.countP_append, List.countP_append]
  rfl

/-- **No step makes a copy**, apart from the sends that begin. -/
theorem copies_step {s t : Connection π} {l : ConnectionLabel π}
    (hstep : step unbatch ws s l = some t) (p : OutMsg π → Bool) :
    (t.copies unbatch ws).countP p ≤
      (s.copies unbatch ws).countP p + (s.begun unbatch ws l).countP p := by
  rw [countP_copies, countP_copies]
  cases l with
  | server l =>
      simp only [step] at hstep
      split at hstep
      · cases hstep
      · obtain ⟨server, hserver, rfl⟩ := Option.map_eq_some_iff.mp hstep
        have hcount := serverCount_step unbatch p ws
          (s.isOpen || l.opens ws) hserver
        have hbegun : (s.begun unbatch ws (.server l)).countP p =
            emitCount unbatch p (begins ws s.server l) := rfl
        simp only [emitCount_append]
        omega
  | malformed timestamp payload =>
      obtain ⟨server, hserver, rfl⟩ := Option.map_eq_some_iff.mp hstep
      have hcount := serverCount_step unbatch p ws s.isOpen hserver
      have hbegun : (s.begun unbatch ws (.malformed timestamp payload)).countP p =
          emitCount unbatch p (replies s.isOpen timestamp payload) := rfl
      simp only [begins, emitCount_nil, emitCount_append] at hcount ⊢
      omega
  | handle =>
      simp only [step] at hstep
      split at hstep
      · cases hstep
      next o rest hwire =>
        obtain rfl := Option.some.inj hstep
        simp only [hwire, emitCount_cons, List.countP_append, begun, List.countP_nil]
        omega
  | ackArrives =>
      simp only [step] at hstep
      split at hstep
      · cases hstep
      next id rest hacks =>
        obtain ⟨server, hserver, rfl⟩ := Option.map_eq_some_iff.mp hstep
        have hcount := serverCount_step unbatch p ws s.isOpen hserver
        simp only [begins, emitCount_nil, begun, List.countP_nil] at hcount ⊢
        omega
  | broken messages acks =>
      simp only [step] at hstep
      split at hstep
      · obtain rfl := Option.some.inj hstep
        have htake := emitCount_take_le unbatch p messages s.wire
        simp only [begun, List.countP_nil]
        omega
      · cases hstep

/-- What a retry tick begins are the messages that the retry loop takes. -/
theorem sends_retryTick_le {s : Connection π} (h : s.server.Stems fun _ => True) (id : Text)
    (now : ℚ) (pick : ℕ) :
    s.sends unbatch ws id (.server (.retryTick now pick)) ≤
      if (s.server.store.pendingAcks.get? id).isSome then 1 else 0 := by
  have hemits : ∀ m ∈ s.server.store.toRetry now,
      (Outgoing.single m).emits unbatch = [m] := by
    intro m hm
    have hheld := (h.store.toRetry m hm).2
    refine if_neg fun htype => hheld ?_
    rw [htype]
    rfl
  have hbegun : (s.begun unbatch ws (.server (.retryTick now pick))).countP (keptAs id) ≤
      (s.server.store.toRetry now).countP (keptAs id) := by
    simp only [begun, begins]
    split
    next f hf =>
      rw [← (WSServer.firstSend_eq_some hf).2.2, List.flatMap_map,
        List.flatMap_congr hemits, List.flatMap_singleton']
    · exact Nat.zero_le _
  exact hbegun.trans (Reliability.countP_toRetry_le h.store.keyed now id)

/-- **One event for each send.**  Over any schedule the transport emits at most one event
with an id for each send of a guaranteed or retry-class message with this id that the server
begins.  The retry loop begins at most one at a tick, and only while the ack of the id has
not reached the server. -/
theorem events_le_sends {labels : List (ConnectionLabel π)} {s : Connection π}
    (hrun : execute (step unbatch ws) init labels = some s) (id : Text) :
    s.emitted.countP (keptAs id) ≤
        totalAlong (step unbatch ws) (sends unbatch ws id) init labels ∧
      ∀ now pick, s.sends unbatch ws id (.server (.retryTick now pick)) ≤
        if (s.server.store.pendingAcks.get? id).isSome then 1 else 0 := by
  constructor
  · have htotal := rank_le_totalAlong (step unbatch ws)
      (fun a => (a.copies unbatch ws).countP (keptAs id)) (sends unbatch ws id)
      (fun a l b hstep => copies_step hstep (keptAs id)) hrun
    have hnone : ((init : Connection π).copies unbatch ws).countP (keptAs id) = 0 := rfl
    rw [hnone, countP_copies] at htotal
    omega
  · intro now pick
    have hstems : s.Stems unbatch (fun _ => True) (fun m => ∃ l, m ∈ errorReplies l) := by
      refine execute_invariant (step unbatch ws) _ stems_init ?_ hrun
      intro a l b ha _ hstep
      refine ha.step ?_ (fun _ _ => trivial) (fun m hm => ⟨l, hm⟩) hstep
      rintro m ⟨l', hm⟩
      exact of_mem_errorReplies hm
    exact sends_retryTick_le hstems.server id now pick

end Run

/-- A wake is sent to the one client, its ack arrives before the retry is due, and the
retry loop finds nothing to send. -/
def promptAck : List (ConnectionLabel Unit) :=
  [.server (.connect 0 0), .server (.broadcast WSServer.wakeObj 0 ['a'] 0 []),
    .server (.startTask 0), .handle, .ackArrives, .malformed 0 (), .server (.sent 0 false none 0),
    .server (.retryTick 1 0), .handle]

/-- The wake is emitted once, and so is the reply to a malformed message. -/
theorem promptAck_sentOnce :
    ∃ s, execute (step noEvents 0) (init : Connection Unit) promptAck = some s ∧
      s.emitted = [outMsg WSServer.wakeObj 0 ['a'], errorReply 0 ()] ∧
      totalAlong (step noEvents 0) (sends noEvents 0 ['a']) init promptAck = 1 ∧
      s.emitted.countP (keptAs ['a']) ≤
        totalAlong (step noEvents 0) (sends noEvents 0 ['a']) init promptAck := by
  obtain ⟨s, hs, hemitted⟩ := Option.map_eq_some_iff.mp
    (show (execute (step noEvents 0) (init : Connection Unit) promptAck).map
        (fun s => s.emitted) = some [outMsg WSServer.wakeObj 0 ['a'], errorReply 0 ()] by
      decide +kernel)
  exact ⟨s, hs, hemitted, by decide +kernel, (events_le_sends hs ['a']).1⟩

/-! ## Two events -/

/-- At most one event for each id of a guaranteed or retry-class message. -/
def EmitsOnce (s : Connection π) : Prop :=
  ∀ id, s.emitted.countP (keptAs id) ≤ 1

/-- The ack is still on its way when the retry is due. -/
def slowAck : List (ConnectionLabel Unit) :=
  [.server (.connect 0 0), .server (.broadcast WSServer.wakeObj 0 ['a'] 0 []),
    .server (.startTask 0), .handle, .server (.sent 0 false none 0),
    .server (.retryTick 0.5 0), .handle]

/-- **One wake, two events**: the ack of the wake crosses its retransmission, and the
transport emits the wake again. -/
theorem wake_emitted_twice :
    ∃ u, execute (step noEvents 0) (init : Connection Unit) slowAck = some u ∧
      u.acks = [['a'], ['a']] ∧
      u.emitted = [outMsg WSServer.wakeObj 0 ['a'], outMsg WSServer.wakeObj 0 ['a']] ∧
      ¬ u.EmitsOnce := by
  have hlast : (execute (step noEvents 0) (init : Connection Unit) slowAck).map
      (fun s => (s.acks, s.emitted)) =
        some ([['a'], ['a']],
          [outMsg WSServer.wakeObj 0 ['a'], outMsg WSServer.wakeObj 0 ['a']]) := by
    decide +kernel
  obtain ⟨u, hu, hfields⟩ := Option.map_eq_some_iff.mp hlast
  obtain ⟨hacks, hemitted⟩ := Prod.mk.inj hfields
  refine ⟨u, hu, hacks, hemitted, ?_⟩
  intro honce
  have hle := honce ['a']
  rw [hemitted] at hle
  exact absurd hle (by decide)

end Connection

end Transport
end AvaListener
