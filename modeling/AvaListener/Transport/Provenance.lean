import AvaListener.Transport.BestEffortBatches
import AvaListener.Transport.Connection

/-!
# Where a message comes from

Between the supervisor's `broadcast` and the events and acks of a transport a message
passes through the offline queue, the pending acks, the best-effort batch, tasks, sends
and the connection, and is copied on the way.  Whatever the schedule, none of these
places ever holds anything that was not broadcast: what a transport emits was broadcast
as it is, or is an event of a broadcast that is itself a batch, or is the server's reply
to a malformed message, and what it acks is the id of a broadcast that is kept until its
ack.
-/

namespace AvaListener
namespace Transport

open Library

variable {π : Type} {P : OutMsg π → Prop}

/-! ## One place -/

/-- A single message of the kind, or a batch message of one to ten best-effort messages of
the kind. -/
def Outgoing.Of (P : OutMsg π → Prop) : Outgoing π → Prop
  | .single m => P m ∧ m.type ∉ bestEffort
  | .batch _ _ events =>
      (1 ≤ events.length ∧ events.length ≤ 10) ∧ ∀ m ∈ events, P m ∧ m.type ∈ bestEffort

namespace Reliability

variable {r : Reliability π}

/-- What the state keeps until an ack is of the kind, and is kept for a reason. -/
structure Stems (P : OutMsg π → Prop) (r : Reliability π) : Prop where
  keyed : r.Keyed
  queued : ∀ m ∈ r.offlineQueue, P m ∧ ackClass m.type ≠ none
  pending : ∀ id p, r.pendingAcks.get? id = some p → P p.msg ∧ ackClass p.msg.type ≠ none

theorem stems_init : (init : Reliability π).Stems P where
  keyed := by
    intro id p hp
    cases hp
  queued := by simp [init]
  pending := by
    intro id p hp
    cases hp

theorem Stems.toRetry (h : r.Stems P) {now : ℚ} :
    ∀ m ∈ r.toRetry now, P m ∧ ackClass m.type ≠ none := by
  intro m hm
  obtain ⟨id, p, hp, -, rfl⟩ := mem_toRetry.mp hm
  exact h.pending id p hp

theorem Stems.of_eq {r' : Reliability π} (h : r.Stems P) (hpending : r'.pendingAcks = r.pendingAcks)
    (hqueue : ∀ m ∈ r'.offlineQueue, m ∈ r.offlineQueue) : r'.Stems P := by
  refine ⟨?_, fun m hm => h.queued m (hqueue m hm), ?_⟩
  · rw [Keyed, hpending]
    exact h.keyed
  · rw [hpending]
    exact h.pending

theorem Stems.keep (h : r.Stems P) (offline : Bool) {m : OutMsg π} (hm : P m) (now : ℚ) :
    (r.keep offline m now).Stems P := by
  cases hclass : ackClass m.type with
  | none =>
      have hsame : r.keep offline m now = r := by rw [Reliability.keep, hclass]
      rw [hsame]
      exact h
  | some cls =>
      have hheld : ackClass m.type ≠ none := by simp [hclass]
      refine ⟨h.keyed.keep offline m now, ?_, ?_⟩
      · intro x hx
        rcases mem_offlineQueue_keep hx with hold | rfl
        · exact h.queued x hold
        · exact ⟨hm, hheld⟩
      · intro id p hp
        by_cases hid : id = m.correlationId
        · subst hid
          rw [Reliability.keep, hclass] at hp
          cases offline with
          | true => exact h.pending _ p hp
          | false =>
              obtain rfl := Option.some.inj ((Dict.get?_set_self _ _ _).symm.trans hp)
              exact ⟨hm, hheld⟩
        · rw [get?_keep_of_ne r offline now hid] at hp
          exact h.pending id p hp

theorem Stems.ack (h : r.Stems P) (acked : Option Text) : (r.ack acked).Stems P := by
  refine ⟨h.keyed.ack acked, ?_, ?_⟩
  · rw [offlineQueue_ack]
    exact h.queued
  · intro id p hp
    by_cases hid : acked = some id
    · subst hid
      rw [Reliability.ack, Dict.get?_erase_self] at hp
      cases hp
    · rw [get?_ack_of_ne r hid] at hp
      exact h.pending id p hp

theorem Stems.collect (h : r.Stems P) (offline : Bool) (now : ℚ) :
    (r.collect offline now).Stems P := by
  refine ⟨h.keyed.collect offline now, ?_, ?_⟩
  · intro m hm
    rw [offlineQueue_collect] at hm
    split at hm
    · rcases List.mem_append.mp hm with hold | hmoved
      · exact h.queued m hold
      · exact h.toRetry m hmoved
    · exact h.queued m hm
  · intro id p hp
    rw [get?_collect h.keyed] at hp
    obtain ⟨q, hq, hkept⟩ := Option.bind_eq_some_iff.mp hp
    obtain ⟨-, hkept⟩ := Option.ite_none_left_eq_some.mp hkept
    obtain rfl := Option.some.inj hkept
    rw [PendingAck.tick_msg]
    exact h.pending id q hq

end Reliability

/-! ## The server -/

namespace WSServer

variable {s t : WSServer π} {l : Label π} {f : SendLoop π}

/-- Every message in the server is of the kind. -/
structure Stems (P : OutMsg π → Prop) (s : WSServer π) : Prop where
  store : s.store.Stems P
  batch : s.store.bestEffortBatch.length < 10
  batched : ∀ m ∈ s.store.bestEffortBatch, P m ∧ m.type ∈ bestEffort
  tasks : ∀ o ∈ s.tasks, o.Of P
  sends : ∀ f ∈ s.sending, ∀ o ∈ f.msg :: f.rest, o.Of P

theorem stems_init : (init : WSServer π).Stems P where
  store := Reliability.stems_init
  batch := Nat.zero_lt_succ 9
  batched := by simp [init, Reliability.init]
  tasks := by simp [init]
  sends := by simp [init]

theorem of_map_single {msgs : List (OutMsg π)} (h : ∀ m ∈ msgs, P m ∧ ackClass m.type ≠ none) :
    ∀ o ∈ msgs.map Outgoing.single, o.Of P := by
  intro o ho
  obtain ⟨m, hm, rfl⟩ := List.mem_map.mp ho
  exact ⟨(h m hm).1, not_bestEffort_of_held (h m hm).2⟩

theorem of_firstSend {a : WSServer π} {caller : Caller} {msgs : List (Outgoing π)} {pick : ℕ}
    (h : ∀ o ∈ msgs, o.Of P) (hf : a.firstSend caller msgs pick = some f) :
    ∀ o ∈ f.msg :: f.rest, o.Of P := by
  rw [← (firstSend_eq_some hf).2.2]
  exact h

/-- **What a step puts on a connection** is of the kind, and so is what its caller sends
after it. -/
theorem Stems.started (h : s.Stems P) (hf : s.started l = some f) :
    ∀ o ∈ f.msg :: f.rest, o.Of P := by
  cases l with
  | connect ws pick => exact of_firstSend (of_map_single h.store.queued) hf
  | startTask pick =>
      simp only [WSServer.started] at hf
      split at hf
      · cases hf
      next msg rest htasks =>
        refine of_firstSend ?_ hf
        intro o ho
        obtain rfl := List.mem_singleton.mp ho
        exact h.tasks o (htasks ▸ List.mem_cons_self ..)
  | sent i closed next pick =>
      simp only [WSServer.started] at hf
      split at hf
      · cases hf
      next g hg =>
        have hsends := h.sends g (List.mem_of_getElem? hg)
        split at hf
        · cases hf
        · cases next with
          | some ws =>
              obtain rfl := Option.some.inj hf
              exact hsends
          | none => exact of_firstSend (fun o ho => hsends o (List.mem_cons_of_mem _ ho)) hf
  | retryTick now pick => exact of_firstSend (of_map_single h.store.toRetry) hf
  | batchTick now batchId pick =>
      simp only [WSServer.started] at hf
      split at hf
      · cases hf
      next hsome =>
        refine of_firstSend ?_ hf
        intro o ho
        obtain rfl := List.mem_singleton.mp ho
        exact ⟨⟨List.length_pos_iff.mpr hsome, h.batch.le⟩, h.batched⟩
  | _ => cases hf

/-- What is in the batch after a step, and what the batch message of the step took away. -/
theorem Stems.batched_step (h : s.Stems P) (hl : ∀ m ∈ l.broadcasts, P m)
    (hstep : s.step l = some t) :
    (∀ m ∈ t.store.bestEffortBatch, P m ∧ m.type ∈ bestEffort) ∧
      ∀ o ∈ s.forms l, ∀ m ∈ o.events, P m ∧ m.type ∈ bestEffort := by
  have hall : ∀ m ∈ s.store.bestEffortBatch ++ l.accepts.toList, P m ∧ m.type ∈ bestEffort := by
    intro m hm
    rcases List.mem_append.mp hm with hold | hnew
    · exact h.batched m hold
    · cases l with
      | broadcast obj created uuid now batchId =>
          simp only [Label.accepts] at hnew
          split at hnew
          next hbest =>
            obtain rfl := List.mem_singleton.mp hnew
            exact ⟨hl _ rfl, hbest⟩
          · cases hnew
      | _ => cases hnew
  rw [batch_step hstep] at hall
  refine ⟨fun m hm => hall m (List.mem_append_right _ hm), ?_⟩
  intro o ho m hm
  refine hall m (List.mem_append_left _ (List.mem_flatMap.mpr ⟨o, ?_, hm⟩))
  exact Option.mem_toList.mpr ho

theorem Stems.tasks_step (h : s.Stems P) (hl : ∀ m ∈ l.broadcasts, P m)
    (hstep : s.step l = some t) : ∀ o ∈ t.tasks, o.Of P := by
  rw [(step_effect hstep).tasks]
  cases l with
  | broadcast obj created uuid now batchId =>
      have hforms := (h.batched_step hl hstep).2
      have hsize := (size_step hstep h.batch).2
      simp only [tasksAfter]
      split
      next hbest =>
        intro o ho
        rcases List.mem_append.mp ho with hold | hnew
        · exact h.tasks o hold
        · obtain ⟨events, hevents, rfl⟩ := Option.map_eq_some_iff.mp (Option.mem_toList.mp hnew)
          have hformed : s.forms (.broadcast obj created uuid now batchId) =
              some (.batch batchId now events) := by
            simp only [forms, if_pos hbest, hevents, Option.map_some]
          exact ⟨hsize _ hformed, hforms _ hformed⟩
      next hother =>
        split
        · exact h.tasks
        · intro o ho
          rcases List.mem_append.mp ho with hold | hnew
          · exact h.tasks o hold
          · obtain rfl := List.mem_singleton.mp hnew
            exact ⟨hl _ rfl, hother⟩
  | startTask pick => exact fun o ho => h.tasks o (List.mem_of_mem_tail ho)
  | _ => exact h.tasks

theorem Stems.step (h : s.Stems P) (hl : ∀ m ∈ l.broadcasts, P m) (hstep : s.step l = some t) :
    t.Stems P := by
  refine ⟨?_, (size_step hstep h.batch).1, (h.batched_step hl hstep).1, h.tasks_step hl hstep, ?_⟩
  · apply store_step (fun r => r.Stems P) ?_ ?_ h.store.ack ?_ hstep
    · exact fun r hpending hqueue => h.store.of_eq hpending hqueue
    · exact fun m hm offline now => h.store.keep offline (hl m hm) now
    · exact fun now _ _ => h.store.collect _ now
  · intro f hf
    rw [(step_effect hstep).sending] at hf
    rcases List.mem_append.mp hf with hold | hnew
    · exact h.sends f (mem_sending_of_otherSends hold)
    · exact h.started (Option.mem_toList.mp hnew)

end WSServer

/-! ## The connection -/

namespace Connection

variable {unbatch : π → List (OutMsg π)} {ws : ℕ} {s t : Connection π} {l : ConnectionLabel π}
  {R : OutMsg π → Prop}

/-- The message that a label broadcasts. -/
def broadcasts : ConnectionLabel π → Option (OutMsg π)
  | .server l => l.broadcasts
  | _ => none

/-- The message with which a label replies to a malformed one. -/
def errorReplies : ConnectionLabel π → Option (OutMsg π)
  | .malformed timestamp payload => some (errorReply timestamp payload)
  | _ => none

theorem of_mem_errorReplies {m : OutMsg π} (h : m ∈ errorReplies l) :
    m.correlationId = [] ∧ m.type = "error".toList := by
  cases l with
  | malformed timestamp payload =>
      obtain rfl := Option.some.inj h
      exact ⟨rfl, rfl⟩
  | _ => cases h

/-- Of the kind, or an event of a message of the kind that is a batch by its own type. -/
def Unbatched (unbatch : π → List (OutMsg π)) (P : OutMsg π → Prop) (m : OutMsg π) : Prop :=
  P m ∨ ∃ b, P b ∧ b.type = batchType ∧ m ∈ unbatch b.payload

/-- Everything at the two ends comes from messages of the kind `P`, and everything on the
way to the transport from these or from replies, which are of the kind `R`. -/
structure Stems (unbatch : π → List (OutMsg π)) (P R : OutMsg π → Prop) (s : Connection π) :
    Prop where
  server : s.server.Stems P
  wire : ∀ o ∈ s.wire, o.Of P ∨ ∃ m, R m ∧ o = .single m
  acks : ∀ id ∈ s.acks, ∃ m, P m ∧ m.correlationId = id ∧ ackClass m.type ≠ none
  emitted : ∀ m ∈ s.emitted, Unbatched unbatch P m ∨ R m

theorem stems_init : (init : Connection π).Stems unbatch P R where
  server := WSServer.stems_init
  wire := by simp [init]
  acks := by simp [init]
  emitted := by simp [init]

theorem unbatched_of_emits {o : Outgoing π} (h : o.Of P) :
    ∀ m ∈ o.emits unbatch, Unbatched unbatch P m := by
  intro m hm
  cases o with
  | single b =>
      simp only [Outgoing.emits] at hm
      split at hm
      next htype => exact .inr ⟨b, h.1, htype, hm⟩
      · obtain rfl := List.mem_singleton.mp hm
        exact .inl h.1
  | batch id ts events => exact .inl (h.2 m hm).1

theorem exists_of_acked {o : Outgoing π} (h : o.Of P) {id : Text} (hid : id ∈ o.acked) :
    ∃ m, P m ∧ m.correlationId = id ∧ ackClass m.type ≠ none := by
  cases o with
  | single m =>
      obtain ⟨hguard, hid⟩ := Option.ite_none_right_eq_some.mp hid
      exact ⟨m, h.1, Option.some.inj hid, hguard.2⟩
  | batch batchId ts events => cases hid

/-- A reply is emitted as it is. -/
theorem emits_of_reply {m : OutMsg π} (h : m.correlationId = [] ∧ m.type = "error".toList) :
    (Outgoing.single m).emits unbatch = [m] := by
  refine if_neg fun htype => ?_
  rw [h.2] at htype
  exact absurd htype (by decide)

/-- And it is not acked. -/
theorem acked_of_reply {m : OutMsg π} (h : m.correlationId = [] ∧ m.type = "error".toList) :
    (Outgoing.single m).acked = none :=
  if_neg fun hacked => hacked.1 h.1

theorem Stems.step (h : s.Stems unbatch P R)
    (hR : ∀ m, R m → m.correlationId = [] ∧ m.type = "error".toList)
    (hl : ∀ m ∈ broadcasts l, P m) (hreplies : ∀ m ∈ errorReplies l, R m)
    (hstep : step unbatch ws s l = some t) : t.Stems unbatch P R := by
  cases l with
  | server l =>
      obtain ⟨-, hstep⟩ := Option.ite_none_left_eq_some.mp hstep
      obtain ⟨server, hserver, rfl⟩ := Option.map_eq_some_iff.mp hstep
      refine ⟨h.server.step hl hserver, ?_, h.acks, h.emitted⟩
      intro o ho
      rcases List.mem_append.mp ho with hold | hnew
      · exact h.wire o hold
      · obtain ⟨f, hf, ho⟩ := List.mem_flatMap.mp hnew
        have hmsg := h.server.started (Option.mem_toList.mp hf) f.msg (List.mem_cons_self ..)
        unfold put at ho
        split at ho
        · obtain rfl := List.mem_singleton.mp ho
          exact .inl hmsg
        · cases ho
  | malformed timestamp payload =>
      obtain ⟨server, hserver, rfl⟩ := Option.map_eq_some_iff.mp hstep
      refine ⟨h.server.step (by simp [Label.broadcasts]) hserver, ?_, h.acks, h.emitted⟩
      intro o ho
      rcases List.mem_append.mp ho with hold | hnew
      · exact h.wire o hold
      · unfold replies at hnew
        split at hnew
        · obtain rfl := List.mem_singleton.mp hnew
          exact .inr ⟨_, hreplies _ rfl, rfl⟩
        · cases hnew
  | handle =>
      simp only [Connection.step] at hstep
      split at hstep
      · cases hstep
      next o rest hwire =>
        obtain rfl := Option.some.inj hstep
        have ho := h.wire o (hwire ▸ List.mem_cons_self ..)
        refine ⟨h.server, fun x hx => h.wire x (hwire ▸ List.mem_cons_of_mem _ hx), ?_, ?_⟩
        · intro id hid
          have hid : id ∈ s.acks ++ o.acked.toList := by
            dsimp only at hid
            split at hid
            · exact hid
            · exact List.mem_append_left _ hid
          rcases List.mem_append.mp hid with hold | hnew
          · exact h.acks id hold
          · rcases ho with ho | ⟨m, hm, rfl⟩
            · exact exists_of_acked ho (Option.mem_toList.mp hnew)
            · rw [acked_of_reply (hR m hm)] at hnew
              cases hnew
        · intro m hm
          rcases List.mem_append.mp hm with hold | hnew
          · exact h.emitted m hold
          · rcases ho with ho | ⟨reply, hreply, rfl⟩
            · exact .inl (unbatched_of_emits ho m hnew)
            · rw [emits_of_reply (hR reply hreply)] at hnew
              obtain rfl := List.mem_singleton.mp hnew
              exact .inr hreply
  | ackArrives =>
      simp only [Connection.step] at hstep
      split at hstep
      · cases hstep
      next id rest hacks =>
        obtain ⟨server, hserver, rfl⟩ := Option.map_eq_some_iff.mp hstep
        refine ⟨h.server.step (by simp [Label.broadcasts]) hserver, h.wire, ?_, h.emitted⟩
        exact fun x hx => h.acks x (hacks ▸ List.mem_cons_of_mem _ hx)
  | broken messages acks =>
      obtain ⟨-, hstep⟩ := Option.ite_none_right_eq_some.mp hstep
      obtain rfl := Option.some.inj hstep
      exact ⟨h.server, fun o ho => h.wire o (List.mem_of_mem_take ho),
        fun id hid => h.acks id (List.mem_of_mem_take hid), h.emitted⟩

/-- **Nothing is made up.**  Over any schedule, what is on the connection are broadcast
messages, the best-effort ones by batches of one to ten and the others one by one, and
the server's replies to malformed messages; what the transport has emitted was broadcast,
by itself or as an event of a broadcast batch, or is such a reply; and every id it has
acked is that of a broadcast message that is kept until its ack. -/
theorem emitted_was_broadcast {labels : List (ConnectionLabel π)}
    (hrun : execute (step unbatch ws) init labels = some s) :
    (∀ o ∈ s.wire, o.Of (· ∈ labels.filterMap broadcasts) ∨
        ∃ m ∈ labels.filterMap errorReplies, o = .single m) ∧
      (∀ m ∈ s.emitted, Unbatched unbatch (· ∈ labels.filterMap broadcasts) m ∨
        m ∈ labels.filterMap errorReplies) ∧
      ∀ id ∈ s.acks, ∃ m ∈ labels.filterMap broadcasts,
        m.correlationId = id ∧ ackClass m.type ≠ none := by
  have h : s.Stems unbatch (· ∈ labels.filterMap broadcasts)
      (· ∈ labels.filterMap errorReplies) := by
    refine execute_invariant (Connection.step unbatch ws)
      (Stems unbatch (· ∈ labels.filterMap broadcasts) (· ∈ labels.filterMap errorReplies))
      stems_init ?_ hrun
    intro a l b ha hl hstep
    refine ha.step ?_ ?_ ?_ hstep
    · intro m hm
      obtain ⟨l', -, hl'⟩ := List.mem_filterMap.mp hm
      exact of_mem_errorReplies hl'
    · exact fun m hm => List.mem_filterMap.mpr ⟨l, hl, hm⟩
    · exact fun m hm => List.mem_filterMap.mpr ⟨l, hl, hm⟩
  exact ⟨h.wire, h.emitted, h.acks⟩

/-- A partial transcript and a wake reach the transport, and between them the reply to a
malformed message. -/
def wakeAndTranscript : List (ConnectionLabel Unit) :=
  [.server (.connect 0 0),
    .server (.broadcast ⟨some "partial_transcript".toList, none, none, none, none, some (), ()⟩
      0 ['p'] 0 []),
    .server (.broadcast WSServer.offlineWake 1 ['w'] 1 []), .server (.startTask 0),
    .malformed 1 (), .server (.sent 0 false none 0), .server (.batchTick 2 ['b'] 0), .handle,
    .handle, .handle]

theorem wakeAndTranscript_emitted :
    ∃ s, execute (step noEvents 0) init wakeAndTranscript = some s ∧
      s.emitted.map (fun m => m.correlationId) = [['w'], [], ['p']] ∧ s.acks = [['w']] ∧
      ∀ m ∈ s.emitted,
        Unbatched noEvents (· ∈ wakeAndTranscript.filterMap broadcasts) m ∨
          m ∈ wakeAndTranscript.filterMap errorReplies := by
  obtain ⟨s, hs⟩ := Option.isSome_iff_exists.mp
    (show (execute (step noEvents 0) init wakeAndTranscript).isSome by
      decide +kernel)
  have hshown : (execute (step noEvents 0) init wakeAndTranscript).map
      (fun s => (s.emitted.map (fun m => m.correlationId), s.acks)) =
        some ([['w'], [], ['p']], [['w']]) := by
    decide +kernel
  rw [hs] at hshown
  obtain ⟨hemitted, hacks⟩ := Prod.mk.inj (Option.some.inj hshown)
  exact ⟨s, hs, hemitted, hacks, (emitted_was_broadcast hs).2.1⟩

end Connection

end Transport
end AvaListener
