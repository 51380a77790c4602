import AvaListener.Library.Backoff
import AvaListener.Library.Simulation
import AvaListener.Transport.HeldUntilAck

/-!
# When a message is sent again

`_retry_loop` of `runtime/transport/websocket_server.py` reads the pending acks at every
tick and takes those that are due: a retry message a hundred, two hundred and four
hundred milliseconds apart and three times at most, a guaranteed one every half second
until its ack.  What the loop takes of one message, over any schedule of the server, is
a history of attempts that keeps its class's `Backoff`.
-/

namespace AvaListener
namespace Transport

open Library

variable {π : Type}

/-- The contract of `_retry_loop` for a class. -/
def AckClass.backoff : AckClass → Backoff
  | .retry => ⟨fun k => 0.1 * 2 ^ k, some 3⟩
  | .guaranteed => ⟨fun _ => 0.5, none⟩

namespace PendingAck

variable {p : PendingAck π} {now : ℚ} {timer : Backoff.Timer}

/-- The entry is where the timer is.  The attempts of a guaranteed message are not
counted. -/
structure Keeps (p : PendingAck π) (timer : Backoff.Timer) : Prop where
  due : p.nextRetry = timer.due
  attempts : p.cls = .retry → p.retries = timer.attempts

/-- An entry that is not taken is left as it was, unless it is dropped. -/
theorem Keeps.tick_of_not_resends (h : p.Keeps timer) (hdrops : p.drops now = false)
    (hresends : p.resends now = false) : (p.tick now).Keeps timer := by
  have hdue : ¬ p.nextRetry ≤ now := by
    intro hdue
    simp [resends, hdue, hdrops] at hresends
  rw [tick, if_neg hdue]
  exact h

/-- **The entry that is taken** is an attempt of its class. -/
theorem Keeps.attempt (h : p.Keeps timer) (hresends : p.resends now = true) :
    ∃ next, p.cls.backoff.attempt timer now = some next ∧ (p.tick now).Keeps next := by
  obtain ⟨hdue, hdrops⟩ : p.nextRetry ≤ now ∧ ¬ p.drops now = true := of_decide_eq_true hresends
  have htime : timer.due ≤ now := h.due ▸ hdue
  rw [tick, if_pos hdue]
  cases hcls : p.cls with
  | retry =>
      have hleft : ¬ 3 < p.retries + 1 := by
        intro hmany
        exact hdrops (decide_eq_true ⟨hdue, hcls, hmany⟩)
      have hcount := h.attempts hcls
      have hadmitted : timer.attempts < 3 := by omega
      refine ⟨⟨timer.attempts + 1, now + 0.1 * 2 ^ timer.attempts⟩, ?_, ?_⟩
      · exact if_pos ⟨htime, by simpa [AckClass.backoff] using hadmitted⟩
      · rw [if_neg hleft]
        refine ⟨?_, fun _ => ?_⟩
        · rw [← hcount]
        · show p.retries + 1 = timer.attempts + 1
          rw [hcount]
  | guaranteed =>
      refine ⟨⟨timer.attempts + 1, now + 0.5⟩, if_pos ⟨htime, by simp [AckClass.backoff]⟩, rfl, ?_⟩
      intro hretry
      cases hretry

end PendingAck

namespace Reliability

variable {r : Reliability π} {id : Text} {cls : AckClass} {timer : Backoff.Timer}

/-- What is pending under the id is of this class and where the timer is. -/
structure Paces (r : Reliability π) (id : Text) (cls : AckClass) (timer : Backoff.Timer) :
    Prop where
  keyed : r.Keyed
  entry : ∀ p, r.pendingAcks.get? id = some p → p.cls = cls ∧ p.Keeps timer

/-- Nothing is pending under the id. -/
structure Settled (r : Reliability π) (id : Text) : Prop where
  keyed : r.Keyed
  none : r.pendingAcks.get? id = none

theorem Settled.paces (h : r.Settled id) : r.Paces id cls timer :=
  ⟨h.keyed, fun _ hp => nomatch h.none.symm.trans hp⟩

theorem Unused.settled (h : r.Unused id) : r.Settled id := ⟨h.keyed, h.notPending⟩

/-- Keeping the message itself starts its timer. -/
theorem Unused.paces_keep {m : OutMsg π} (h : r.Unused m.correlationId)
    (hclass : ackClass m.type = some cls) (offline : Bool) (now : ℚ) :
    (r.keep offline m now).Paces m.correlationId cls ⟨0, now + cls.firstRetry⟩ := by
  refine ⟨h.keyed.keep offline m now, ?_⟩
  intro p hp
  rw [Reliability.keep, hclass] at hp
  cases offline with
  | true => cases h.notPending.symm.trans hp
  | false =>
      obtain rfl := Option.some.inj ((Dict.get?_set_self _ _ _).symm.trans hp)
      exact ⟨rfl, rfl, fun _ => rfl⟩

/-- Only what is done under the id itself touches its entry. -/
theorem Paces.of_get?_eq {r' : Reliability π} (h : r.Paces id cls timer) (hkeyed : r'.Keyed)
    (hget : r'.pendingAcks.get? id = r.pendingAcks.get? id) : r'.Paces id cls timer :=
  ⟨hkeyed, fun p hp => h.entry p (hget ▸ hp)⟩

theorem Paces.ack (h : r.Paces id cls timer) (acked : Option Text) :
    (r.ack acked).Paces id cls timer := by
  by_cases hid : acked = some id
  · subst hid
    exact Settled.paces ⟨h.keyed.ack _, Dict.get?_erase_self _ _⟩
  · exact h.of_get?_eq (h.keyed.ack acked) (get?_ack_of_ne r hid)

/-- A tick that does not take the entry. -/
theorem Paces.collect (h : r.Paces id cls timer) (offline : Bool) {now : ℚ}
    (hnot : ∀ p, r.pendingAcks.get? id = some p → p.resends now = false) :
    (r.collect offline now).Paces id cls timer := by
  refine ⟨h.keyed.collect offline now, ?_⟩
  intro p hp
  rw [get?_collect h.keyed] at hp
  obtain ⟨q, hq, hkept⟩ := Option.bind_eq_some_iff.mp hp
  obtain ⟨hstays, hkept⟩ := Option.ite_none_left_eq_some.mp hkept
  obtain rfl := Option.some.inj hkept
  have hdrops : q.drops now = false := Bool.eq_false_iff.mpr fun hd => hstays (.inl hd)
  obtain ⟨hcls, hkeeps⟩ := h.entry q hq
  exact ⟨(q.tick_cls now).trans hcls, hkeeps.tick_of_not_resends hdrops (hnot q hq)⟩

/-- A tick that takes the entry. -/
theorem Paces.collect_of_resends (h : r.Paces id cls timer) (offline : Bool) {now : ℚ}
    {p : PendingAck π} (hp : r.pendingAcks.get? id = some p) (hresends : p.resends now = true) :
    ∃ next, cls.backoff.attempt timer now = some next ∧
      (r.collect offline now).Paces id cls next := by
  obtain ⟨rfl, hkeeps⟩ := h.entry p hp
  obtain ⟨next, hnext, hticked⟩ := hkeeps.attempt hresends
  refine ⟨next, hnext, h.keyed.collect offline now, ?_⟩
  intro q hq
  rw [get?_collect h.keyed, hp, Option.bind_some] at hq
  obtain ⟨-, hkept⟩ := Option.ite_none_left_eq_some.mp hq
  obtain rfl := Option.some.inj hkept
  exact ⟨p.tick_cls now, hticked⟩

end Reliability

/-! ## Runs of the server -/

namespace WSServer

variable {s t : WSServer π} {id : Text} {cls : AckClass} {timer : Backoff.Timer}

/-- The tick at which `_retry_loop` takes the message with this id. -/
def takesAt (id : Text) (s : WSServer π) : Label π → Option ℚ
  | .retryTick now _ =>
      if (s.store.pendingAcks.get? id).any (PendingAck.resends now) then some now else none
  | _ => none

/-- A tick that takes nothing under the id finds nothing due there. -/
theorem resends_eq_false {now : ℚ} {pick : ℕ} (h : s.takesAt id (.retryTick now pick) = none)
    {p : PendingAck π} (hp : s.store.pendingAcks.get? id = some p) : p.resends now = false := by
  simpa [takesAt, hp] using h

theorem broadcastId_of_mem_broadcasts {l : Label π} {m : OutMsg π} (h : m ∈ l.broadcasts) :
    l.broadcastId = some m.correlationId := by
  cases l with
  | broadcast obj created uuid now batchId =>
      obtain rfl := Option.some.inj h
      rfl
  | _ => cases h

/-- A step that takes nothing under the id leaves the entry at its timer. -/
theorem paces_step {l : Label π} (h : s.store.Paces id cls timer)
    (hfresh : l.broadcastId ≠ some id) (hnone : s.takesAt id l = none)
    (hstep : s.step l = some t) : t.store.Paces id cls timer := by
  apply store_step (fun r => r.Paces id cls timer) ?_ ?_ h.ack ?_ hstep
  · intro r hpending _
    refine h.of_get?_eq ?_ (by rw [hpending])
    rw [Reliability.Keyed, hpending]
    exact h.keyed
  · intro m hm offline now
    refine h.of_get?_eq (h.keyed.keep offline m now) (Reliability.get?_keep_of_ne _ _ _ ?_)
    rintro rfl
    exact hfresh (broadcastId_of_mem_broadcasts hm)
  · rintro now pick rfl
    exact h.collect _ fun p hp => resends_eq_false hnone hp

/-- **The retry loop is a `Backoff`**, for what is pending under an id that is not
broadcast again. -/
theorem retries_simulate (id : Text) (cls : AckClass) :
    ForwardSimulation step (takesAt id) cls.backoff.attempt
      (fun l : Label π => l.broadcastId ≠ some id) fun s timer => s.store.Paces id cls timer where
  silent h hfresh hstep hnone := paces_step h hfresh hnone hstep
  shown := by
    intro s t timer l taken h _ hstep htaken
    cases l with
    | retryTick now pick =>
        obtain ⟨hany, htaken⟩ := Option.ite_none_right_eq_some.mp htaken
        obtain rfl := Option.some.inj htaken
        obtain ⟨p, hp, hresends⟩ := (Option.any_eq_true _ _).mp hany
        rw [step_store hstep]
        exact h.collect_of_resends _ hp hresends
    | _ => cases htaken

/-- Once nothing is pending under the id, nothing is taken under it. -/
theorem settled_step {l : Label π} (h : s.store.Settled id) (hfresh : l.broadcastId ≠ some id)
    (hstep : s.step l = some t) : t.store.Settled id := by
  apply step_keeps (fun r => r.Settled id) h ?_ ?_ ?_ ?_ ?_ hstep
  · intro r hpending _
    refine ⟨?_, by rw [hpending, h.none]⟩
    rw [Reliability.Keyed, hpending]
    exact h.keyed
  · intro offline x now hid
    refine ⟨h.keyed.keep offline x now, ?_⟩
    rw [Reliability.get?_keep_of_ne, h.none]
    rintro rfl
    exact hfresh hid
  · intro acked _
    refine ⟨h.keyed.ack acked, ?_⟩
    by_cases hid : acked = some id
    · subst hid
      exact Dict.get?_erase_self _ _
    · rw [Reliability.get?_ack_of_ne _ hid, h.none]
  · intro offline now
    refine ⟨h.keyed.collect offline now, ?_⟩
    rw [Reliability.get?_collect h.keyed, h.none, Option.bind_none]
  · exact fun _ => ⟨h.keyed, h.none⟩

theorem noted_of_settled {labels : List (Label π)} (h : s.store.Settled id)
    (hfresh : ∀ l ∈ labels, l.broadcastId ≠ some id) :
    noted step (takesAt id) s labels = [] := by
  refine noted_eq_nil (fun a : WSServer π => a.store.Settled id) h ?_
    (fun a l b ha hl hstep => settled_step ha (hfresh l hl) hstep)
  intro a l ha _
  cases l with
  | retryTick now pick => simp [takesAt, ha.none]
  | _ => rfl

/-- An ack settles its id. -/
theorem settled_of_ack {l : Label π} (h : s.store.Keyed) (hack : l.ackedId = some id)
    (hstep : s.step l = some t) : t.store.Settled id := by
  rw [step_store hstep]
  cases l with
  | receive ws msg =>
      cases msg with
      | ack acked =>
          obtain rfl : acked = some id := hack
          exact ⟨h.ack _, Dict.get?_erase_self _ _⟩
      | command => cases hack
      | malformed => cases hack
  | _ => cases hack

/-- **When a message is sent again.**  In any run that broadcasts a message under a fresh
id, the retry loop takes it first when its class's first wait is over, with the waits of
its class in between, a retry message no more than three times, and no message once its
ack has arrived. -/
theorem retransmissions_follow_backoff {pre post : List (Label π)} {obj : MessageObj π}
    {created now : ℚ} {uuid batchId : Text} {u : WSServer π}
    (hclass : ackClass (outMsg obj created uuid).type = some cls)
    (hfresh : ∀ l ∈ pre ++ post, l.broadcastId ≠ some (outMsg obj created uuid).correlationId)
    (hpre : execute step init pre = some s)
    (hsend : s.step (.broadcast obj created uuid now batchId) = some t)
    (hpost : execute step t post = some u) :
    let id := (outMsg obj created uuid).correlationId
    let times := noted step (takesAt id) t post
    (cls = .retry → times.length ≤ 3) ∧
      (∀ first ∈ times.head?, now + cls.firstRetry ≤ first) ∧
      (∀ xs earlier later ys, times = xs ++ earlier :: later :: ys →
        earlier + cls.backoff.wait xs.length ≤ later) ∧
      ∀ xs l ys v, post = xs ++ l :: ys → l.ackedId = some id → execute step t xs = some v →
        noted step (takesAt id) v (l :: ys) = [] := by
  intro id times
  have hunused : s.store.Unused id := by
    refine execute_invariant step (fun a : WSServer π => a.store.Unused id)
      (Reliability.unused_init _) ?_ hpre
    intro a l b ha hl hstep
    exact unused_step ha (hfresh l (List.mem_append_left _ hl)) hstep
  have hheld : ackClass (outMsg obj created uuid).type ≠ none := by simp [hclass]
  have hpaces : t.store.Paces id cls ⟨0, now + cls.firstRetry⟩ := by
    rw [step_store hsend, storeAfter, if_neg (not_bestEffort_of_held hheld)]
    exact hunused.paces_keep hclass _ now
  have hlater : ∀ l ∈ post, l.broadcastId ≠ some id :=
    fun l hl => hfresh l (List.mem_append_right _ hl)
  obtain ⟨timer, htimes, -⟩ := (retries_simulate id cls).execute_noted hpaces hlater hpost
  refine ⟨?_, Backoff.due_le_head htimes, ?_, ?_⟩
  · rintro rfl
    have hlength := Backoff.length_le_of_execute (b := AckClass.retry.backoff) rfl
      (Nat.zero_le 3) htimes
    simpa using hlength
  · intro xs earlier later ys hsplit
    rw [show noted step (takesAt id) t post = _ from hsplit] at htimes
    simpa using Backoff.wait_le_of_execute htimes
  · rintro xs l ys v rfl hack hv
    obtain ⟨_, -, hreached⟩ := (retries_simulate id cls).execute_noted hpaces
      (fun k hk => hlater k (List.mem_append_left _ hk)) hv
    have hkeyed : v.store.Keyed := Reliability.Paces.keyed hreached
    cases hst : v.step l with
    | none => simp only [noted, hst]
    | some w =>
        have hnone : v.takesAt id l = none := by
          cases l with
          | retryTick now pick => cases hack
          | _ => rfl
        rw [noted_cons hst, hnone, Option.toList_none, List.nil_append]
        refine noted_of_settled (settled_of_ack hkeyed hack hst) ?_
        exact fun k hk => hlater k (List.mem_append_right _ (List.mem_cons_of_mem _ hk))

/-- `broadcast({"type": "error", "payload": ..})`. -/
def errorEvent : MessageObj Unit :=
  ⟨some "error".toList, none, none, none, none, some (), ()⟩

/-- The client never acks; the fifth tick finds the entry exhausted. -/
def unacked : List (Label Unit) :=
  [.startTask 0, .sent 0 false none 0, .retryTick 0.1 0, .sent 0 false none 0, .retryTick 0.15 0,
    .retryTick 0.2 0, .sent 0 false none 0, .retryTick 0.4 0, .sent 0 false none 0,
    .retryTick 0.8 0, .receive 0 (.ack (some ['e'])), .retryTick 1.6 0]

/-- An error that nobody acks is sent three times more. -/
theorem error_sent_thrice_more :
    let t := withClient.handleSend (outMsg errorEvent 0 ['e']) 0
    let times := noted step (takesAt ['e']) t unacked
    times = [0.1, 0.2, 0.4] ∧ times.length ≤ 3 := by
  obtain ⟨u, hu⟩ := Option.isSome_iff_exists.mp
    (show (execute step (withClient.handleSend (outMsg errorEvent 0 ['e']) 0) unacked).isSome by
      decide +kernel)
  have hclass : ackClass (outMsg errorEvent 0 ['e']).type = some .retry := by decide
  have hfresh : ∀ l ∈ [.connect 0 0] ++ unacked,
      l.broadcastId ≠ some (outMsg errorEvent 0 ['e']).correlationId := by decide
  have hpre : execute step init [.connect 0 0] = some (withClient : WSServer Unit) := rfl
  have hsend : withClient.step (.broadcast errorEvent 0 ['e'] 0 []) =
      some (withClient.handleSend (outMsg errorEvent 0 ['e']) 0) := rfl
  have hfollows := retransmissions_follow_backoff hclass hfresh hpre hsend hu
  exact ⟨by decide +kernel, hfollows.1 rfl⟩

end WSServer

end Transport
end AvaListener
