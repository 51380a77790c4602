import AvaListener.Transport.HeldUntilAck
import AvaListener.Transport.SendSteps

/-!
# Messages outside the reliability classes

Where a message is that `broadcast` neither keeps for retransmission nor batches.
Its callback makes a task of it, the task a send loop, and the loop goes from
client to client; none of the lists that the server keeps for later ever has it.
So a callback that finds no client drops it, and so does a task that finds none.
-/

namespace AvaListener
namespace Transport

open Library

variable {π : Type}

/-! ## What a send carries -/

namespace Outgoing

/-- The messages in it, as the other end emits them. -/
def events : Outgoing π → List (OutMsg π)
  | .single m => [m]
  | .batch _ _ events => events

/-- One of its messages is of the kind `p`. -/
def carries (p : OutMsg π → Bool) (o : Outgoing π) : Bool :=
  o.events.any p

theorem carries_single {p : OutMsg π → Bool} {m : OutMsg π} :
    (Outgoing.single m).carries p = p m := by
  simp [carries, events]

theorem carries_batch_eq_false {p : OutMsg π → Bool} {batchId : Text} {now : ℚ}
    {msgs : List (OutMsg π)} (h : ∀ x ∈ msgs, p x = false) :
    (Outgoing.batch batchId now msgs).carries p = false := by
  simpa [carries, events] using h

theorem carries_eq_false_of_mem_map {p : OutMsg π → Bool} {msgs : List (OutMsg π)}
    {o : Outgoing π} (h : ∀ x ∈ msgs, p x = false) (ho : o ∈ msgs.map .single) :
    o.carries p = false := by
  obtain ⟨x, hx, rfl⟩ := List.mem_map.mp ho
  rw [carries_single]
  exact h x hx

end Outgoing

/-- The messages of this kind are in none of the classes that are kept. -/
def FireAndForget (p : OutMsg π → Bool) : Prop :=
  ∀ m, p m = true → m.type ∉ bestEffort ∧ ackClass m.type = none

/-! ## What the reliability state keeps -/

namespace Reliability

/-- No message of the kind is kept for retransmission. -/
structure Without (r : Reliability π) (p : OutMsg π → Bool) : Prop where
  keyed : r.Keyed
  pending : ∀ k q, r.pendingAcks.get? k = some q → p q.msg = false
  queued : ∀ x ∈ r.offlineQueue, p x = false

variable {p : OutMsg π → Bool} {r : Reliability π}

theorem without_init : (init : Reliability π).Without p where
  keyed := (unused_init []).keyed
  pending := by
    intro k q hq
    cases hq
  queued := by simp [init]

theorem Without.toRetry (h : r.Without p) {now : ℚ} : ∀ x ∈ r.toRetry now, p x = false := by
  intro x hx
  obtain ⟨k, q, hq, -, rfl⟩ := mem_toRetry.mp hx
  exact h.pending k q hq

theorem Without.keep (hp : FireAndForget p) (h : r.Without p) (offline : Bool) (x : OutMsg π)
    (now : ℚ) : (r.keep offline x now).Without p := by
  refine ⟨h.keyed.keep offline x now, ?_, ?_⟩
  · intro k q hq
    by_cases hk : k = x.correlationId
    · subst hk
      unfold Reliability.keep at hq
      split at hq
      · exact h.pending _ q hq
      next cls hcls =>
        split at hq
        · exact h.pending _ q hq
        · rw [track, Dict.get?_set_self] at hq
          obtain rfl := Option.some.inj hq
          -- A message with a class of its own is not of the kind.
          rw [Bool.eq_false_iff]
          intro hx
          cases hcls.symm.trans (hp x hx).2
    · rw [get?_keep_of_ne r offline now hk] at hq
      exact h.pending k q hq
  · intro y hy
    unfold Reliability.keep at hy
    split at hy
    · exact h.queued y hy
    next cls hcls =>
      split at hy
      · rcases List.mem_append.mp hy with hold | hnew
        · exact h.queued y hold
        · obtain rfl := List.mem_singleton.mp hnew
          rw [Bool.eq_false_iff]
          intro hy
          cases hcls.symm.trans (hp y hy).2
      · exact h.queued y hy

theorem Without.ack (h : r.Without p) (id : Option Text) : (r.ack id).Without p := by
  refine ⟨h.keyed.ack id, ?_, ?_⟩
  · intro k q hq
    by_cases hid : id = some k
    · subst hid
      rw [Reliability.ack, Dict.get?_erase_self] at hq
      cases hq
    · rw [get?_ack_of_ne r hid] at hq
      exact h.pending k q hq
  · rw [offlineQueue_ack]
    exact h.queued

theorem Without.collect (h : r.Without p) (offline : Bool) (now : ℚ) :
    (r.collect offline now).Without p := by
  refine ⟨h.keyed.collect offline now, ?_, ?_⟩
  · intro k q hq
    rw [get?_collect h.keyed] at hq
    obtain ⟨q', hq', hkept⟩ := Option.bind_eq_some_iff.mp hq
    split at hkept
    · cases hkept
    · obtain rfl := Option.some.inj hkept
      rw [PendingAck.tick_msg]
      exact h.pending k q' hq'
  · intro x hx
    rw [offlineQueue_collect] at hx
    split at hx
    · rcases List.mem_append.mp hx with hold | hmoved
      · exact h.queued x hold
      · exact h.toRetry x hmoved
    · exact h.queued x hx

theorem Without.of_eq {r' : Reliability π} (h : r.Without p)
    (hpending : r'.pendingAcks = r.pendingAcks) (hqueue : r'.offlineQueue = r.offlineQueue) :
    r'.Without p := by
  refine ⟨?_, ?_, ?_⟩
  · rw [Keyed, hpending]
    exact h.keyed
  · rw [hpending]
    exact h.pending
  · rw [hqueue]
    exact h.queued

end Reliability
namespace WSServer

variable {s t : WSServer π} {l : Label π}

/-! ## Nothing is kept -/

/-- No message of the kind is kept, and no send loop has one to send after its
present message. -/
structure KeepsNone (p : OutMsg π → Bool) (s : WSServer π) : Prop where
  store : s.store.Without p
  batch : ∀ x ∈ s.store.bestEffortBatch, p x = false
  rest : ∀ f ∈ s.sending, ∀ o ∈ f.rest, o.carries p = false

variable {p : OutMsg π → Bool} {f : SendLoop π}

theorem keepsNone_init : (init : WSServer π).KeepsNone p where
  store := Reliability.without_init
  batch := by simp [init, Reliability.init]
  rest := by simp [init]
/-- How a send loop with such a message comes to its `await`: its task starts, or the
loop goes on to another client. -/
inductive Sends (s : WSServer π) (f : SendLoop π) : Label π → Prop where
  | task (pick : ℕ) (rest : List (Outgoing π)) (htasks : s.tasks = f.msg :: rest)
      (hclients : s.clients ≠ ∅) (hvisited : f.visited = [f.ws]) : Sends s f (.startTask pick)
  | next (i : ℕ) (closed : Bool) (pick : ℕ) (g : SendLoop π) (hg : s.sending[i]? = some g)
      (hmsg : f.msg = g.msg) (hsize : s.clients.card = g.startSize)
      (hvisited : f.visited = f.ws :: g.visited) : Sends s f (.sent i closed (some f.ws) pick)

/-- A send loop that the step leads to its `await` has nothing of the kind to send
later, and only in one of two ways something to send now. -/
theorem started_cases (h : s.KeepsNone p) (hf : s.started l = some f) :
    (∀ o ∈ f.rest, o.carries p = false) ∧ (f.msg.carries p = true → s.Sends f l) := by
  -- A caller with messages that were kept.
  have hkept {a : WSServer π} {caller : Caller} {msgs : List (Outgoing π)} {pick : ℕ}
      (hmsgs : ∀ o ∈ msgs, o.carries p = false) (hfirst : a.firstSend caller msgs pick = some f) :
      (∀ o ∈ f.rest, o.carries p = false) ∧ (f.msg.carries p = true → s.Sends f l) := by
    obtain ⟨-, -, rfl⟩ := firstSend_eq_some hfirst
    refine ⟨fun o ho => hmsgs o (List.mem_cons_of_mem _ ho), fun hcarries => ?_⟩
    cases hcarries.symm.trans (hmsgs f.msg (List.mem_cons_self ..))
  cases l with
  | connect ws pick =>
      exact hkept (fun o ho => Outgoing.carries_eq_false_of_mem_map h.store.queued ho) hf
  | startTask pick =>
      simp only [started] at hf
      split at hf
      · cases hf
      next msg rest htasks =>
        obtain ⟨hclients, hform, hmsgs⟩ := firstSend_eq_some hf
        obtain ⟨rfl, hrest⟩ := List.cons.inj hmsgs
        have hvisited : f.visited = [f.ws] := by rw [hform]
        exact ⟨by simp [← hrest], fun _ => .task pick rest htasks hclients hvisited⟩
  | sent i closed next pick =>
      simp only [started] at hf
      split at hf
      · cases hf
      next g hg =>
        have hrest := h.rest g (List.mem_of_getElem? hg)
        split at hf
        · cases hf
        next hsize =>
          cases next with
          | some ws =>
              obtain rfl := Option.some.inj hf
              exact ⟨hrest, fun _ => .next i closed pick g hg rfl (not_not.mp hsize) rfl⟩
          | none => exact hkept hrest hf
  | retryTick now pick =>
      exact hkept (fun o ho => Outgoing.carries_eq_false_of_mem_map h.store.toRetry ho) hf
  | batchTick now batchId pick =>
      simp only [started] at hf
      split at hf
      · cases hf
      · refine hkept (fun o ho => ?_) hf
        obtain rfl := List.mem_singleton.mp ho
        exact Outgoing.carries_batch_eq_false h.batch
  | _ => cases hf

theorem bestEffortBatch_keep (r : Reliability π) (offline : Bool) (x : OutMsg π) (now : ℚ) :
    (r.keep offline x now).bestEffortBatch = r.bestEffortBatch := by
  unfold Reliability.keep
  split
  · rfl
  · split
    · rfl
    · rfl

/-- The best-effort batch after a step. -/
def batchAfter (s : WSServer π) : Label π → List (OutMsg π)
  | .broadcast obj created uuid _ _ =>
      if (outMsg obj created uuid).type ∈ bestEffort then
        (s.store.addToBatch (outMsg obj created uuid)).1.bestEffortBatch
      else s.store.bestEffortBatch
  | .batchTick _ _ _ => []
  | _ => s.store.bestEffortBatch

theorem bestEffortBatch_eq_batchAfter (h : s.step l = some t) :
    t.store.bestEffortBatch = s.batchAfter l := by
  rw [step_store h]
  -- The labels that leave the batch alone, up to the end of a flush.
  have hother : (if s.endsFlush l then s.store.cleared else s.store).bestEffortBatch =
      s.store.bestEffortBatch := by
    split
    · rfl
    · rfl
  cases l with
  | broadcast obj created uuid now batchId =>
      simp only [storeAfter, batchAfter]
      split
      · rfl
      · exact bestEffortBatch_keep _ _ _ _
  | receive ws msg =>
      cases msg with
      | ack id =>
          cases id with
          | none => rfl
          | some id => rfl
      | command => exact hother
      | malformed => exact hother
  | retryTick now pick =>
      simp only [storeAfter, batchAfter, Reliability.collect]
      split
      · rw [Reliability.foldl_moveOffline]
        rfl
      · rfl
  | batchTick now batchId pick => rfl
  | connect ws pick => exact hother
  | replied ws closed => exact hother
  | disconnect ws => exact hother
  | startTask pick => exact hother
  | sent i closed next pick => exact hother

/-- What is new in the batch is best-effort. -/
theorem bestEffortBatch_step (h : s.step l = some t) :
    ∀ x ∈ t.store.bestEffortBatch, x ∈ s.store.bestEffortBatch ∨ x.type ∈ bestEffort := by
  intro x hx
  rw [bestEffortBatch_eq_batchAfter h] at hx
  cases l with
  | broadcast obj created uuid now batchId =>
      simp only [batchAfter] at hx
      split at hx
      next hbest =>
        unfold Reliability.addToBatch at hx
        split at hx
        · cases hx
        · rcases List.mem_append.mp hx with hold | hnew
          · exact .inl hold
          · obtain rfl := List.mem_singleton.mp hnew
            exact .inr hbest
      · exact .inl hx
  | batchTick now batchId pick => cases hx
  | _ => exact .inl hx
/-- **No step keeps a message of the kind.** -/
theorem keepsNone_step (hp : FireAndForget p) (h : s.KeepsNone p) (hstep : s.step l = some t) :
    t.KeepsNone p := by
  refine ⟨?_, ?_, ?_⟩
  · apply step_keeps (fun r => r.Without p) h.store ?_ ?_ ?_ ?_ ?_ hstep
    · exact fun r hpending hqueue => h.store.of_eq hpending hqueue
    · exact fun offline x now _ => h.store.keep hp offline x now
    · exact fun id _ => h.store.ack id
    · exact fun offline now => h.store.collect offline now
    · exact fun _ => ⟨h.store.keyed, h.store.pending, by simp [Reliability.cleared]⟩
  · intro x hx
    rcases bestEffortBatch_step hstep x hx with hold | hbest
    · exact h.batch x hold
    · rw [Bool.eq_false_iff]
      exact fun hx => (hp x hx).1 hbest
  · intro f hf
    rw [(step_effect hstep).sending] at hf
    rcases List.mem_append.mp hf with hold | hnew
    · exact h.rest f (mem_sending_of_otherSends hold)
    · exact (started_cases h (Option.mem_toList.mp hnew)).1

/-- The server has a message of the kind put by for later. -/
def Queues (p : OutMsg π → Bool) (s : WSServer π) : Prop :=
  (∃ e ∈ s.store.pendingAcks.values, p e.msg = true) ∨
    (∃ x ∈ s.store.offlineQueue, p x = true) ∨
    (∃ x ∈ s.store.bestEffortBatch, p x = true) ∨
    ∃ f ∈ s.sending, ∃ o ∈ f.rest, o.carries p = true

instance (p : OutMsg π → Bool) (s : WSServer π) : Decidable (s.Queues p) :=
  inferInstanceAs (Decidable (_ ∨ _ ∨ _ ∨ _))

theorem KeepsNone.not_queues (h : s.KeepsNone p) : ¬ s.Queues p := by
  rintro (⟨e, he, hx⟩ | ⟨x, hmem, hx⟩ | ⟨x, hmem, hx⟩ | ⟨f, hf, o, ho, hx⟩)
  · obtain ⟨entry, hentry, rfl⟩ := List.mem_map.mp he
    cases hx.symm.trans (h.store.pending entry.1 entry.2 (Dict.get?_eq_some_iff.mpr hentry))
  · cases hx.symm.trans (h.store.queued x hmem)
  · cases hx.symm.trans (h.batch x hmem)
  · cases hx.symm.trans (h.rest f hf o ho)

/-- **In no run is such a message queued**, with clients or without. -/
theorem not_queues_of_run (hp : FireAndForget p) {labels : List (Label π)} {u : WSServer π}
    (hrun : execute step init labels = some u) : ¬ u.Queues p := by
  have hkeeps : u.KeepsNone p :=
    execute_invariant step (fun a : WSServer π => a.KeepsNone p) keepsNone_init
      (fun _ _ _ ha _ hab => keepsNone_step hp ha hab) hrun
  exact hkeeps.not_queues

/-! ## Copies -/

/-- How many tasks will send a message of the kind. -/
def inTasks (p : OutMsg π → Bool) (s : WSServer π) : ℕ :=
  s.tasks.countP fun o => o.carries p

/-- How many send loops are sending one. -/
def inSends (p : OutMsg π → Bool) (s : WSServer π) : ℕ :=
  s.sending.countP fun f => f.msg.carries p

theorem inTasks_pos {o : Outgoing π} (ho : o ∈ s.tasks) (hcarries : o.carries p = true) :
    0 < s.inTasks p :=
  List.countP_pos_iff.mpr ⟨o, ho, hcarries⟩

theorem inSends_pos (hf : f ∈ s.sending) (hcarries : f.msg.carries p = true) :
    0 < s.inSends p :=
  List.countP_pos_iff.mpr ⟨f, hf, hcarries⟩

theorem carries_eq_false_of_inSends (h : s.inSends p = 0) (hf : f ∈ s.sending) :
    f.msg.carries p = false :=
  Bool.eq_false_iff.mpr (List.countP_eq_zero.mp h f hf)
theorem inSends_eq_resumed {i : ℕ} (hf : s.sending[i]? = some f) :
    s.inSends p = ((s.sending.eraseIdx i).countP fun g => g.msg.carries p) +
      if f.msg.carries p = true then 1 else 0 := by
  rw [inSends, ← (resumed_perm hf).countP_eq, List.countP_cons]
theorem inTasks_step (hl : l.broadcastId = none) (hstep : s.step l = some t) :
    t.inTasks p ≤ s.inTasks p := by
  rw [inTasks, (step_effect hstep).tasks]
  cases l with
  | broadcast obj created uuid now batchId => cases hl
  | startTask pick => exact (List.tail_sublist _).countP_le
  | _ => exact le_rfl

/-- **A step makes no copies.**  A task becomes a send loop, and a loop goes on as it
is. -/
theorem copies_step (h : s.KeepsNone p) (hl : l.broadcastId = none) (hstep : s.step l = some t) :
    t.inTasks p + t.inSends p ≤ s.inTasks p + s.inSends p := by
  have htasks := inTasks_step (p := p) hl hstep
  have hothers : ((s.otherSends l).countP fun f => f.msg.carries p) ≤ s.inSends p :=
    (otherSends_sublist s l).countP_le
  have hsends : t.inSends p = ((s.otherSends l).countP fun f => f.msg.carries p) +
      (s.started l).toList.countP fun f => f.msg.carries p := by
    rw [inSends, (step_effect hstep).sending, List.countP_append]
  cases hstarted : s.started l with
  | none =>
      simp only [hstarted, Option.toList_none, List.countP_nil] at hsends
      omega
  | some f =>
      simp only [hstarted, Option.toList_some, List.countP_singleton] at hsends
      by_cases hcarries : f.msg.carries p = true
      · rw [if_pos hcarries] at hsends
        cases (started_cases h hstarted).2 hcarries with
        | task pick rest hhead hclients hvisited =>
            have hbefore : s.inTasks p = t.inTasks p + 1 := by
              rw [inTasks, inTasks, (step_effect hstep).tasks, tasksAfter, hhead, List.tail_cons,
                List.countP_cons, if_pos hcarries]
            omega
        | next i closed pick g hg hmsg hsize hvisited =>
            have hbefore := inSends_eq_resumed (p := p) hg
            rw [← hmsg, if_pos hcarries] at hbefore
            simp only [otherSends] at hsends
            omega
      · rw [if_neg hcarries] at hsends
        omega

/-- **The callback of a broadcast** makes a task of such a message if a client is
there, and drops it if none is. -/
theorem copies_broadcast (hp : FireAndForget p) (h : s.KeepsNone p) {obj : MessageObj π}
    {created now : ℚ} {uuid batchId : Text}
    (hstep : s.step (.broadcast obj created uuid now batchId) = some t) :
    t.sending = s.sending ∧
      t.inTasks p = s.inTasks p +
        if p (outMsg obj created uuid) = true ∧ s.clients ≠ ∅ then 1 else 0 := by
  have heffect := step_effect hstep
  refine ⟨by simpa [otherSends, started] using heffect.sending, ?_⟩
  rw [inTasks, heffect.tasks, tasksAfter]
  split
  next hbest =>
    have hother : p (outMsg obj created uuid) = false :=
      Bool.eq_false_iff.mpr fun hcarries => (hp _ hcarries).1 hbest
    have hevents : ∀ x ∈ s.store.bestEffortBatch ++ [outMsg obj created uuid], p x = false := by
      intro x hx
      rcases List.mem_append.mp hx with hold | hnew
      · exact h.batch x hold
      · rw [List.mem_singleton.mp hnew]
        exact hother
    rw [List.countP_append, if_neg (by simp [hother])]
    unfold Reliability.addToBatch
    split
    · simp [inTasks, Outgoing.carries_batch_eq_false hevents]
    · simp [inTasks]
  · split
    next hclients => simp [inTasks, hclients]
    next hclients =>
      rw [List.countP_append, List.countP_singleton, Outgoing.carries_single]
      simp [inTasks, hclients]

end WSServer

end Transport
end AvaListener
