import AvaListener.Transport.FireAndForget

/-!
# Flushes of the offline queue

A handler that finds messages queued sends them one after the other and then clears
the queue.  The run keeps three logs: the messages that were put on the queue, those
that a flush handed to a live connection, and those that left the queue.

What leaves was handed exactly once, in order, as long as no flush begins over messages
that another flush is sending or has sent already, and every message that a flush is
through with has met a live connection (`exactlyOnce_of_soundFlushes`).  Outside this,
the queue is sent twice or is cleared unsent.
-/

namespace AvaListener
namespace Transport

open Library

variable {π : Type}

namespace WSServer

variable {s t : WSServer π} {l : Label π} {f : SendLoop π}

/-! ## The queue -/

/-- What a step puts on the offline queue. -/
def queues (s : WSServer π) : Label π → List (OutMsg π)
  | .broadcast obj created uuid _ _ =>
      if s.clients = ∅ ∧ (outMsg obj created uuid).type ∉ bestEffort ∧
          ackClass (outMsg obj created uuid).type ≠ none then
        [outMsg obj created uuid]
      else []
  | .retryTick now _ => if s.clients = ∅ then s.store.toRetry now else []
  | _ => []

theorem clients_of_queues (h : s.queues l ≠ []) : s.clients = ∅ := by
  cases l with
  | broadcast obj created uuid now batchId =>
      simp only [queues] at h
      split at h
      next hqueues => exact hqueues.1
      · exact absurd rfl h
  | retryTick now pick =>
      simp only [queues] at h
      split at h
      next hclients => exact hclients
      · exact absurd rfl h
  | _ => exact absurd rfl h

/-- **The queue after a step.** -/
theorem offlineQueue_step (h : s.step l = some t) :
    t.store.offlineQueue =
      if s.endsFlush l then [] else s.store.offlineQueue ++ s.queues l := by
  rw [step_store h]
  cases l with
  | broadcast obj created uuid now batchId =>
      simp only [storeAfter, endsFlush, queues, Bool.false_eq_true, if_false]
      split
      next hbest =>
        rw [if_neg (by simp [hbest]), (Reliability.addToBatch_kept _ _).2, List.append_nil]
      next hbest =>
        unfold Reliability.keep
        split
        next hclass => rw [if_neg (by simp [hclass]), List.append_nil]
        next cls hclass =>
          by_cases hclients : s.clients = ∅
          · simp [hclients, hbest, hclass, Reliability.enqueue]
          · simp [hclients, Reliability.track]
  | receive ws msg =>
      cases msg with
      | ack id => simp [storeAfter, endsFlush, queues, Reliability.offlineQueue_ack]
      | command => simp [storeAfter, endsFlush, queues]
      | malformed => simp [storeAfter, endsFlush, queues]
  | retryTick now pick =>
      simp only [storeAfter, endsFlush, queues, Reliability.offlineQueue_collect]
      by_cases hclients : s.clients = ∅
      · simp [hclients]
      · simp [hclients]
  | batchTick now batchId pick => simp [storeAfter, endsFlush, queues, Reliability.takeBatch]
  | sent i closed next pick =>
      simp only [storeAfter, queues, List.append_nil]
      split
      · rfl
      · rfl
  | _ => simp [storeAfter, endsFlush, queues]

/-! ## The client set -/

theorem discardAll_size (s : WSServer π) (gone : List ℕ) :
    (s.discardAll gone).clients.card + (s.discardAll gone).edits = s.clients.card + s.edits := by
  have hsplit := Finset.card_filter_add_card_filter_not (s := s.clients) fun ws => ws ∈ gone
  show (s.clients.filter fun ws => ws ∉ gone).card +
    (s.edits + (s.clients.filter fun ws => ws ∈ gone).card) = _
  omega

/-- Only a join adds to the set: size and age together stay as they are, and the size
does not grow. -/
theorem clients_step (hjoin : ∀ ws pick, l ≠ .connect ws pick) (h : s.step l = some t) :
    t.clients.card + t.edits = s.clients.card + s.edits ∧ t.clients.card ≤ s.clients.card := by
  -- The clients in `gone` are taken off the set.
  have hdiscard {a : WSServer π} (gone : List ℕ)
      (hclients : a.clients = (s.discardAll gone).clients)
      (hedits : a.edits = (s.discardAll gone).edits) :
      a.clients.card + a.edits = s.clients.card + s.edits ∧ a.clients.card ≤ s.clients.card := by
    rw [hclients, hedits]
    exact ⟨discardAll_size s gone, Finset.card_filter_le _ _⟩
  cases hchange : s.changesClients l with
  | false =>
      obtain ⟨hclients, hedits⟩ := (step_effect h).same hchange
      rw [hclients, hedits]
      exact ⟨rfl, le_rfl⟩
  | true =>
      cases l with
      | connect ws pick => exact absurd rfl (hjoin ws pick)
      | disconnect ws =>
          simp only [step] at h
          split at h
          · obtain rfl := Option.some.inj h
            exact hdiscard [ws] rfl rfl
          · cases h
      | replied ws closed =>
          simp only [step] at h
          split at h
          · split at h
            · obtain rfl := Option.some.inj h
              exact hdiscard [ws] rfl rfl
            next hopen => simp [changesClients, hopen] at hchange
          · cases h
      | sent i closed next pick =>
          cases next with
          | some ws => cases hchange
          | none =>
              simp only [step] at h
              split at h
              · cases h
              next f hf =>
                simp only [resume] at h
                split at h
                · obtain rfl := Option.some.inj h
                  cases hcaller : f.caller <;> exact ⟨rfl, le_rfl⟩
                · split at h
                  · have hgoes := goes_proceed h
                    exact hdiscard _ hgoes.clients hgoes.edits
                  · cases h
      | _ => cases hchange

/-! ## Flushes under way -/

def flushes (s : WSServer π) : List (SendLoop π) :=
  s.sending.filter fun f => f.caller.isFlush

theorem flushes_step (h : s.step l = some t) :
    t.flushes = (s.otherSends l).filter (fun f => f.caller.isFlush) ++
      (s.started l).toList.filter fun f => f.caller.isFlush := by
  rw [flushes, (step_effect h).sending, List.filter_append]

theorem caller_of_firstSend {a : WSServer π} {caller : Caller} {msgs : List (Outgoing π)}
    {pick : ℕ} (hf : a.firstSend caller msgs pick = some f) : f.caller = caller := by
  obtain ⟨-, hform, -⟩ := firstSend_eq_some hf
  rw [hform]

/-- A send loop that is resumed leads to one of the same caller. -/
theorem caller_of_started {i pick : ℕ} {closed : Bool} {next : Option ℕ} {g : SendLoop π}
    (hg : s.sending[i]? = some g) (hf : s.started (.sent i closed next pick) = some f) :
    f.caller = g.caller := by
  simp only [started, hg] at hf
  split at hf
  · cases hf
  · cases next with
    | some ws =>
        obtain rfl := Option.some.inj hf
        rfl
    | none => exact caller_of_firstSend hf

/-- The step resumes this send loop. -/
def resumes (s : WSServer π) : Label π → Option (SendLoop π)
  | .sent i _ _ _ => s.sending[i]?
  | _ => none

/-- A step that neither is a join nor resumes a flush leaves the flushes alone. -/
theorem flushes_perm (hjoin : ∀ ws pick, l ≠ .connect ws pick)
    (hresumes : ∀ g, s.resumes l = some g → g.caller.isFlush = false) (h : s.step l = some t) :
    t.flushes.Perm s.flushes := by
  rw [flushes_step h]
  have hstarted : ((s.started l).toList.filter fun f => f.caller.isFlush) = [] := by
    rw [List.filter_eq_nil_iff]
    intro f hf
    have hsome := Option.mem_toList.mp hf
    cases l with
    | connect ws pick => exact absurd rfl (hjoin ws pick)
    | startTask pick =>
        simp only [started] at hsome
        split at hsome
        · cases hsome
        · simp [caller_of_firstSend hsome, Caller.isFlush]
    | retryTick now pick => simp [caller_of_firstSend hsome, Caller.isFlush]
    | batchTick now batchId pick =>
        simp only [started] at hsome
        split at hsome
        · cases hsome
        · simp [caller_of_firstSend hsome, Caller.isFlush]
    | sent i closed next pick =>
        cases hg : s.sending[i]? with
        | none => simp [started, hg] at hsome
        | some g => simp [caller_of_started hg hsome, hresumes g hg]
    | _ => cases hsome
  rw [hstarted, List.append_nil]
  cases l with
  | sent i closed next pick =>
      cases hg : s.sending[i]? with
      | none =>
          rw [step, hg] at h
          cases h
      | some g =>
          have hperm := (resumed_perm hg).filter fun f => f.caller.isFlush
          rw [List.filter_cons_of_neg (by simp [hresumes g hg])] at hperm
          exact hperm
  | _ => exact List.Perm.refl _

/-- The message of a flush that its resumed send has now been the first to put on a live
connection: every client tried before was found closed. -/
def hands (s : WSServer π) : Label π → List (OutMsg π)
  | .sent i false _ _ =>
      match s.sending[i]? with
      | some f =>
          if f.caller.isFlush ∧ f.disconnected.length + 1 = f.visited.length then f.msg.events
          else []
      | none => []
  | _ => []

/-- What leaves the queue. -/
def leaves (s : WSServer π) (l : Label π) : List (OutMsg π) :=
  if s.endsFlush l then s.store.offlineQueue else []

end WSServer

/-! ## Runs with their logs -/

structure FlushRun (π : Type) where
  server : WSServer π
  /-- Put on the queue. -/
  added : List (OutMsg π)
  /-- Handed to a live connection by a flush. -/
  handed : List (OutMsg π)
  /-- Taken off the queue. -/
  left : List (OutMsg π)
  deriving DecidableEq

namespace FlushRun

def init : FlushRun π := ⟨WSServer.init, [], [], []⟩

def queue (s : FlushRun π) : List (OutMsg π) := s.server.store.offlineQueue

def step (s : FlushRun π) (l : Label π) : Option (FlushRun π) :=
  (s.server.step l).map fun server =>
    { server := server
      added := s.added ++ s.server.queues l
      handed := s.handed ++ s.server.hands l
      left := s.left ++ s.server.leaves l }

/-- What has left the queue left it in the order in which it was added, and had been
handed on; and nothing is handed on more often than it was added. -/
structure ExactlyOnce [DecidableEq π] (s : FlushRun π) : Prop where
  order : s.left ++ s.queue = s.added
  atMostOnce : ∀ m, s.handed.count m ≤ s.added.count m
  sent : ∀ m, s.left.count m ≤ s.handed.count m

/-- A flush begins while no other one is under way and no message in the queue has been
handed on, and when a flush is through with a message some client of the set was not
found closed. -/
def SoundFlushes (s : FlushRun π) : Label π → Prop
  | .connect ws _ =>
      ws ∉ s.server.seen ∧ s.queue ≠ [] →
        s.server.flushes = [] ∧ s.handed.length = s.left.length
  | .sent i closed none _ =>
      ∀ f ∈ s.server.sending[i]?, f.caller.isFlush = true →
        s.server.clients.card = f.startSize →
          (s.server.discardAll (WSServer.closedSoFar f closed)).clients ≠ ∅
  | _ => True

instance [DecidableEq π] (s : FlushRun π) (l : Label π) : Decidable (s.SoundFlushes l) := by
  cases l with
  | connect ws pick => exact inferInstanceAs (Decidable (_ → _))
  | sent i closed next pick =>
      cases next with
      | none => exact inferInstanceAs (Decidable (∀ f ∈ s.server.sending[i]?, _))
      | some w => exact inferInstanceAs (Decidable True)
  | _ => exact inferInstanceAs (Decidable True)

/-! ## The invariant -/

/-- No flush is under way; one may have been broken off after `front`. -/
structure Rests (s : FlushRun π) (front : List (OutMsg π)) : Prop where
  idle : s.server.flushes = []
  sent : front <+: s.queue
  handed : s.handed = s.left ++ front

/-- One flush is under way: it is through with `done` and at `m`, with `rest` to come,
and `late` was queued after it began.  The clients it has tried are `tried`. -/
structure UnderWay (s : FlushRun π) (f : SendLoop π) (done : List (OutMsg π)) (m : OutMsg π)
    (rest late : List (OutMsg π)) (tried : List ℕ) : Prop where
  only : s.server.flushes = [f]
  queue : s.queue = done ++ m :: (rest ++ late)
  msg : f.msg = .single m
  rest : f.rest = rest.map .single
  visited : f.visited = f.ws :: tried
  closed : f.disconnected.Sublist tried
  handed : s.handed = s.left ++ (done ++ if f.disconnected.length < tried.length then [m] else [])
  late : late = [] ∨ s.server.clients.card < f.startSize
  size : s.server.clients.card + s.server.edits = f.startSize + f.startEdits
  pos : 0 < f.startSize

/-- The flushes and the logs fit together. -/
structure Coherent (s : FlushRun π) : Prop where
  order : s.left ++ s.queue = s.added
  flush : (∃ front, s.Rests front) ∨
    ∃ f done m rest late tried, s.UnderWay f done m rest late tried

theorem UnderWay.handedFront {s : FlushRun π} {f : SendLoop π} {done rest late : List (OutMsg π)}
    {m : OutMsg π} {tried : List ℕ} (h : s.UnderWay f done m rest late tried) :
    ∃ front, front <+: s.queue ∧ s.handed = s.left ++ front := by
  refine ⟨_, ?_, h.handed⟩
  rw [h.queue]
  split
  · exact ⟨rest ++ late, by simp⟩
  · exact ⟨m :: (rest ++ late), by simp⟩

/-- What has been handed on is what has left the queue and a front of what is on it. -/
theorem exists_handedFront {s : FlushRun π} (hflush : (∃ front, s.Rests front) ∨
      ∃ f done m rest late tried, s.UnderWay f done m rest late tried) :
    ∃ front, front <+: s.queue ∧ s.handed = s.left ++ front := by
  rcases hflush with ⟨front, hrests⟩ | ⟨f, done, m, rest, late, tried, hunder⟩
  · exact ⟨front, hrests.sent, hrests.handed⟩
  · exact hunder.handedFront

/-- A flush that has just begun with a message. -/
theorem underWay_of_firstSend {t : FlushRun π} {u : WSServer π} {caller : Caller} {pick : ℕ}
    {f : SendLoop π} {done rest : List (OutMsg π)} {m : OutMsg π}
    (hfirst : u.firstSend caller ((m :: rest).map .single) pick = some f)
    (honly : t.server.flushes = [f]) (hqueue : t.queue = done ++ m :: rest)
    (hhanded : t.handed = t.left ++ done)
    (hsize : t.server.clients.card + t.server.edits = f.startSize + f.startEdits)
    (hpos : 0 < f.startSize) : t.UnderWay f done m rest [] [] := by
  obtain ⟨-, hform, hmsgs⟩ := WSServer.firstSend_eq_some hfirst
  rw [List.map_cons] at hmsgs
  obtain ⟨hmsg, hrest⟩ := List.cons.inj hmsgs
  refine ⟨honly, ?_, hmsg.symm, hrest.symm, ?_, ?_, ?_, .inl rfl, hsize, hpos⟩
  · rw [hqueue, List.append_nil]
  · rw [hform]
  · rw [hform]
  · simpa using hhanded

theorem Coherent.exactlyOnce [DecidableEq π] {s : FlushRun π} (h : s.Coherent) : s.ExactlyOnce := by
  obtain ⟨front, hfront, hhanded⟩ := exists_handedFront h.flush
  refine ⟨h.order, ?_, ?_⟩
  · intro m
    have hprefix : s.handed <+: s.added := by
      rw [hhanded, ← h.order]
      exact (List.prefix_append_right_inj s.left).mpr hfront
    exact hprefix.sublist.count_le m
  · intro m
    rw [hhanded]
    exact (List.prefix_append s.left front).sublist.count_le m

theorem coherent_init : (init : FlushRun π).Coherent where
  order := rfl
  flush := .inl ⟨[], rfl, List.prefix_rfl, rfl⟩

/-! ## One step -/

section Step

variable {s t : FlushRun π} {l : Label π} {f : SendLoop π} {done rest late : List (OutMsg π)}
  {m : OutMsg π} {tried : List ℕ}

theorem step_eq_some (h : s.step l = some t) :
    s.server.step l = some t.server ∧ t.added = s.added ++ s.server.queues l ∧
      t.handed = s.handed ++ s.server.hands l ∧ t.left = s.left ++ s.server.leaves l := by
  obtain ⟨server, hserver, rfl⟩ := Option.map_eq_some_iff.mp h
  exact ⟨hserver, rfl, rfl, rfl⟩

/-- Where no flush ends, the queue only grows. -/
theorem queue_of_not_endsFlush (h : s.step l = some t) (hends : s.server.endsFlush l = false) :
    t.queue = s.queue ++ s.server.queues l ∧ t.left = s.left := by
  obtain ⟨hserver, -, -, hleft⟩ := step_eq_some h
  refine ⟨?_, ?_⟩
  · rw [queue, WSServer.offlineQueue_step hserver, hends]
    rfl
  · rw [hleft, WSServer.leaves, hends]
    exact List.append_nil _

/-- The queue and what left it, in any step. -/
theorem order_step (h : s.left ++ s.queue = s.added) (hstep : s.step l = some t) :
    t.left ++ t.queue = t.added := by
  obtain ⟨hserver, hadded, -, hleft⟩ := step_eq_some hstep
  cases hends : s.server.endsFlush l with
  | false =>
      obtain ⟨hqueue, hsame⟩ := queue_of_not_endsFlush hstep hends
      rw [hqueue, hsame, hadded, ← h, List.append_assoc]
  | true =>
      have hnone : s.server.queues l = [] := by
        cases l with
        | sent i closed next pick => rfl
        | _ => cases hends
      rw [hadded, hleft, WSServer.leaves, if_pos hends, queue, WSServer.offlineQueue_step hserver,
        if_pos hends, hnone, List.append_nil, List.append_nil, ← h]
      rfl

/-- **A step beside the flushes**: no client joins and no flush is resumed. -/
theorem flush_step_of_quiet (hflush : (∃ front, s.Rests front) ∨
      ∃ f done m rest late tried, s.UnderWay f done m rest late tried)
    (hjoin : ∀ ws pick, l ≠ .connect ws pick)
    (hresumes : ∀ g, s.server.resumes l = some g → g.caller.isFlush = false)
    (hstep : s.step l = some t) :
    (∃ front, t.Rests front) ∨
      ∃ f done m rest late tried, t.UnderWay f done m rest late tried := by
  obtain ⟨hserver, -, hhanded, -⟩ := step_eq_some hstep
  have hperm := WSServer.flushes_perm hjoin hresumes hserver
  have hends : s.server.endsFlush l = false := by
    cases l with
    | sent i closed next pick =>
        cases next with
        | some w => rfl
        | none =>
            cases hg : s.server.sending[i]? with
            | none => simp [WSServer.endsFlush, hg]
            | some g => simp [WSServer.endsFlush, hg, hresumes g hg]
    | _ => rfl
  have hhands : s.server.hands l = [] := by
    cases l with
    | sent i closed next pick =>
        cases closed with
        | true => rfl
        | false =>
            cases hg : s.server.sending[i]? with
            | none => simp [WSServer.hands, hg]
            | some g => simp [WSServer.hands, hg, hresumes g hg]
    | _ => rfl
  obtain ⟨hqueue, hleft⟩ := queue_of_not_endsFlush hstep hends
  rw [hhands, List.append_nil] at hhanded
  obtain ⟨hsize, hcard⟩ := WSServer.clients_step hjoin hserver
  rcases hflush with ⟨front, h⟩ | ⟨f, done, m, rest, late, tried, h⟩
  · refine .inl ⟨front, ?_, ?_, ?_⟩
    · rw [h.idle] at hperm
      exact hperm.eq_nil
    · rw [hqueue]
      exact h.sent.trans (List.prefix_append _ _)
    · rw [hhanded, hleft, h.handed]
  · refine .inr ⟨f, done, m, rest, late ++ s.server.queues l, tried, ?_⟩
    refine ⟨?_, ?_, h.msg, h.rest, h.visited, h.closed, ?_, ?_, hsize.trans h.size, h.pos⟩
    · rw [h.only] at hperm
      exact List.perm_singleton.mp hperm
    · rw [hqueue, h.queue]
      simp
    · rw [hhanded, hleft, h.handed]
    · by_cases hqueues : s.server.queues l = []
      · rw [hqueues, List.append_nil]
        exact h.late.imp_right fun hlt => hcard.trans_lt hlt
      · -- Messages are queued only where no client is left.
        rw [WSServer.clients_of_queues hqueues, Finset.card_empty] at hcard
        exact .inr (hcard.trans_lt h.pos)

/-- **A client joins.** -/
theorem flush_step_of_connect {ws pick : ℕ} (hflush : (∃ front, s.Rests front) ∨
      ∃ f done m rest late tried, s.UnderWay f done m rest late tried)
    (hsound : s.SoundFlushes (.connect ws pick)) (hstep : s.step (.connect ws pick) = some t) :
    (∃ front, t.Rests front) ∨
      ∃ f done m rest late tried, t.UnderWay f done m rest late tried := by
  obtain ⟨hserver, -, hhanded, -⟩ := step_eq_some hstep
  obtain ⟨hqueue, hleft⟩ := queue_of_not_endsFlush hstep rfl
  have hflushes := WSServer.flushes_step hserver
  have heffect := WSServer.step_effect hserver
  have hnew : ws ∉ s.server.seen := by
    intro hseen
    rw [WSServer.step, if_pos hseen] at hserver
    cases hserver
  simp only [WSServer.queues, List.append_nil] at hqueue
  simp only [WSServer.hands, List.append_nil] at hhanded
  change t.server.flushes = s.server.flushes ++ _ at hflushes
  cases hqueued : s.queue with
  | nil =>
      rcases hflush with ⟨front, h⟩ | ⟨f, done, m, rest, late, tried, h⟩
      · have hstarted : s.server.started (.connect ws pick) = none := by
          change s.server.store.offlineQueue = [] at hqueued
          simp [WSServer.started, hqueued, WSServer.firstSend]
        rw [hstarted, h.idle] at hflushes
        refine .inl ⟨front, hflushes, ?_, ?_⟩
        · rw [hqueue]
          exact h.sent
        · rw [hhanded, hleft, h.handed]
      · rw [h.queue] at hqueued
        simp at hqueued
  | cons m rest =>
      obtain ⟨hidle, hlength⟩ := hsound ⟨hnew, by rw [hqueued]; exact List.cons_ne_nil m rest⟩
      -- Nothing in the queue has been handed on.
      have hsame : s.handed = s.left := by
        obtain ⟨front, -, hfront⟩ := exists_handedFront hflush
        rw [hfront, List.length_append] at hlength
        rw [hfront, List.eq_nil_of_length_eq_zero (by omega : front.length = 0), List.append_nil]
      cases hstarted : s.server.started (.connect ws pick) with
      | none =>
          change s.server.store.offlineQueue = m :: rest at hqueued
          simp [WSServer.started, hqueued, WSServer.firstSend, WSServer.addClient] at hstarted
      | some f =>
          have hcaller : f.caller = .flush ws := WSServer.caller_of_firstSend hstarted
          have hfirst : (s.server.addClient ws).firstSend (.flush ws)
              (s.queue.map Outgoing.single) pick = some f := hstarted
          rw [hqueued] at hfirst
          have hiterator : f.startEdits = t.server.edits ∧
              f.startSize = t.server.clients.card := by
            rcases heffect.iterator f hstarted with hnow | ⟨hchange, -⟩
            · exact hnow
            · simp [WSServer.changesClients, hnew] at hchange
          have hclient := heffect.isClient f hstarted
          rw [hstarted, hidle] at hflushes
          refine .inr ⟨f, [], m, rest, [], [], underWay_of_firstSend hfirst ?_ ?_ ?_ ?_ ?_⟩
          · rw [hflushes]
            simp [hcaller, Caller.isFlush]
          · rw [hqueue, hqueued]
            rfl
          · rw [hhanded, hleft, hsame, List.append_nil]
          · rw [hiterator.1, hiterator.2]
          · rw [hiterator.2]
            exact Finset.card_pos.mpr ⟨f.ws, hclient⟩

/-- What has been handed on once the send of a flush has ended. -/
theorem UnderWay.handed_sent {i pick : ℕ} {closed : Bool} {next : Option ℕ}
    (h : s.UnderWay f done m rest late tried) (hg : s.server.sending[i]? = some f)
    (hflush : f.caller.isFlush = true) :
    s.handed ++ s.server.hands (.sent i closed next pick) =
      s.left ++ (done ++
        if (WSServer.closedSoFar f closed).length < tried.length + 1 then [m] else []) := by
  have hle := h.closed.length_le
  rw [h.handed]
  cases closed with
  | true =>
      have hiff : (WSServer.closedSoFar f true).length < tried.length + 1 ↔
          f.disconnected.length < tried.length := by simp [WSServer.closedSoFar]
      simp [WSServer.hands, hiff]
  | false =>
      have hlt : (WSServer.closedSoFar f false).length < tried.length + 1 := by
        simp only [WSServer.closedSoFar, Bool.false_eq_true, if_false]
        omega
      simp only [WSServer.hands, hg, hflush, true_and, h.visited, List.length_cons, if_pos hlt,
        h.msg, Outgoing.events]
      by_cases hall : f.disconnected.length = tried.length
      · simp [hall]
      · have hsome : f.disconnected.length < tried.length := by omega
        simp [hall, hsome]

/-- The flush that is resumed was the only one. -/
theorem UnderWay.others (h : s.UnderWay f done m rest late tried) {i : ℕ}
    (hg : s.server.sending[i]? = some f) (hflush : f.caller.isFlush = true) :
    (s.server.sending.eraseIdx i).filter (fun g => g.caller.isFlush) = [] := by
  have hperm := (WSServer.resumed_perm hg).filter fun g => g.caller.isFlush
  rw [List.filter_cons_of_pos (by exact hflush)] at hperm
  have honly : s.server.sending.filter (fun g => g.caller.isFlush) = [f] := h.only
  rw [honly] at hperm
  exact (List.cons.inj (List.perm_singleton.mp hperm)).2

theorem UnderWay.closedSoFar_sublist (h : s.UnderWay f done m rest late tried) (closed : Bool) :
    (WSServer.closedSoFar f closed).Sublist (f.ws :: tried) := by
  cases closed with
  | true => exact h.closed.cons_cons f.ws
  | false => exact h.closed.cons f.ws

/-- Every client of the set was tried, and one of those that are left was not found
closed: the message has been handed on. -/
theorem UnderWay.reached {closed : Bool} (h : s.UnderWay f done m rest late tried)
    (hall : ∀ ws ∈ s.server.clients, ws ∈ f.visited)
    (hlive : (s.server.discardAll (WSServer.closedSoFar f closed)).clients ≠ ∅) :
    (WSServer.closedSoFar f closed).length < tried.length + 1 := by
  obtain ⟨c, hc⟩ := Finset.nonempty_of_ne_empty hlive
  obtain ⟨hclient, hopen⟩ := Finset.mem_filter.mp hc
  have hsub := h.closedSoFar_sublist closed
  have hvisited : c ∈ f.ws :: tried := h.visited ▸ hall c hclient
  have hne : (WSServer.closedSoFar f closed).length ≠ (f.ws :: tried).length := by
    intro hlength
    rw [hsub.eq_of_length hlength] at hopen
    exact hopen hvisited
  have hle := hsub.length_le
  rw [List.length_cons] at hle hne
  omega

/-- The iterator has met a set of another size, and the flush is broken off. -/
theorem flush_step_of_broken {i pick : ℕ} {closed : Bool} {next : Option ℕ}
    (h : s.UnderWay f done m rest late tried) (hg : s.server.sending[i]? = some f)
    (hflush : f.caller.isFlush = true) (hsize : s.server.clients.card ≠ f.startSize)
    (hstep : s.step (.sent i closed next pick) = some t) : ∃ front, t.Rests front := by
  obtain ⟨hserver, -, hhanded, -⟩ := step_eq_some hstep
  have hflushes := WSServer.flushes_step hserver
  have hstarted : s.server.started (.sent i closed next pick) = none := by
    simp only [WSServer.started, hg]
    exact if_pos hsize
  have hends : s.server.endsFlush (.sent i closed next pick) = false := by
    cases next with
    | some w => rfl
    | none => simp [WSServer.endsFlush, hg, hsize]
  obtain ⟨hqueue, hleft⟩ := queue_of_not_endsFlush hstep hends
  simp only [WSServer.queues, List.append_nil] at hqueue
  rw [h.handed_sent hg hflush] at hhanded
  refine ⟨_, ?_, ?_, hhanded.trans (by rw [hleft])⟩
  · rw [hflushes, hstarted]
    simp only [WSServer.otherSends, h.others hg hflush]
    rfl
  · rw [hqueue, h.queue]
    split
    · exact ⟨rest ++ late, by simp⟩
    · exact ⟨m :: (rest ++ late), by simp⟩

/-- The flush goes on to another client. -/
theorem flush_step_of_next {i pick w : ℕ} {closed : Bool}
    (h : s.UnderWay f done m rest late tried) (hg : s.server.sending[i]? = some f)
    (hflush : f.caller.isFlush = true) (hsize : s.server.clients.card = f.startSize)
    (hstep : s.step (.sent i closed (some w) pick) = some t) :
    ∃ g, t.UnderWay g done m rest late f.visited := by
  obtain ⟨hserver, -, hhanded, -⟩ := step_eq_some hstep
  have hflushes := WSServer.flushes_step hserver
  have hstarted : s.server.started (.sent i closed (some w) pick) =
      some { f with
        visited := w :: f.visited, ws := w, disconnected := WSServer.closedSoFar f closed } := by
    simp only [WSServer.started, hg, if_neg (not_not.mpr hsize)]
  obtain ⟨hqueue, hleft⟩ := queue_of_not_endsFlush hstep rfl
  simp only [WSServer.queues, List.append_nil] at hqueue
  obtain ⟨hclients, hcard⟩ := WSServer.clients_step (by simp) hserver
  rw [h.handed_sent hg hflush] at hhanded
  refine ⟨{ f with
    visited := w :: f.visited, ws := w, disconnected := WSServer.closedSoFar f closed }, ?_,
    hqueue.trans h.queue, h.msg, h.rest, rfl, ?_, ?_, ?_, hclients.trans h.size, h.pos⟩
  · rw [hflushes, hstarted]
    simp only [WSServer.otherSends, h.others hg hflush, List.nil_append, Option.toList_some]
    exact List.filter_cons_of_pos (by exact hflush)
  · rw [h.visited]
    exact h.closedSoFar_sublist closed
  · rw [hhanded, hleft, h.visited, List.length_cons]
  · exact h.late.imp_right fun hlt => hcard.trans_lt hlt

/-- The flush is through with its message. -/
theorem flush_step_of_through {i pick : ℕ} {closed : Bool}
    (h : s.UnderWay f done m rest late tried) (hg : s.server.sending[i]? = some f)
    (hflush : f.caller.isFlush = true) (hsize : s.server.clients.card = f.startSize)
    (hsound : s.SoundFlushes (.sent i closed none pick))
    (hstep : s.step (.sent i closed none pick) = some t) :
    (∃ front, t.Rests front) ∨
      ∃ f done m rest late tried, t.UnderWay f done m rest late tried := by
  obtain ⟨hserver, -, hhanded, hleft⟩ := step_eq_some hstep
  have hlive := hsound f hg hflush hsize
  have hflushes := WSServer.flushes_step hserver
  simp only [WSServer.otherSends, h.others hg hflush, List.nil_append] at hflushes
  -- The set did not change under the iterator.
  have hlate : late = [] := h.late.resolve_right (by omega)
  have hedits : s.server.edits = f.startEdits := by
    have := h.size
    omega
  have hall : ∀ ws ∈ s.server.clients, ws ∈ f.visited := by
    simp only [WSServer.step, hg, WSServer.resume] at hserver
    rw [if_neg (not_not.mpr hsize)] at hserver
    split at hserver
    next hexhausted => exact hexhausted.resolve_right (not_not.mpr hedits)
    · cases hserver
  rw [h.handed_sent hg hflush, if_pos (h.reached hall hlive)] at hhanded
  have hstarted : s.server.started (.sent i closed none pick) =
      (s.server.discardAll (WSServer.closedSoFar f closed)).firstSend f.caller f.rest pick := by
    simp only [WSServer.started, hg, if_neg (not_not.mpr hsize)]
  cases rest with
  | nil =>
      have hrest : f.rest = [] := h.rest
      have hends : s.server.endsFlush (.sent i closed none pick) = true := by
        simp [WSServer.endsFlush, hg, hflush, hsize, hrest]
      rw [hrest] at hstarted
      refine .inl ⟨[], ?_, List.nil_prefix, ?_⟩
      · rw [hflushes, hstarted]
        rfl
      · rw [hhanded, hleft, WSServer.leaves, if_pos hends, List.append_nil]
        change _ = s.left ++ s.queue
        rw [h.queue, hlate]
        rfl
  | cons next rest =>
      have hends : s.server.endsFlush (.sent i closed none pick) = false := by
        simp [WSServer.endsFlush, hg, h.rest, hlive]
      obtain ⟨hqueue, hsame⟩ := queue_of_not_endsFlush hstep hends
      simp only [WSServer.queues, List.append_nil] at hqueue
      cases hfirst : s.server.started (.sent i closed none pick) with
      | none =>
          rw [hstarted, h.rest, List.map_cons, WSServer.firstSend, if_neg hlive] at hfirst
          cases hfirst
      | some g =>
          have heffect := WSServer.step_effect hserver
          have hclient := heffect.isClient g hfirst
          have hg' := hfirst
          rw [hstarted] at hg'
          have hcaller := WSServer.caller_of_firstSend hg'
          obtain ⟨-, hform, -⟩ := WSServer.firstSend_eq_some hg'
          rw [h.rest] at hg'
          have hgoes : t.server.clients =
                (s.server.discardAll (WSServer.closedSoFar f closed)).clients ∧
              t.server.edits = (s.server.discardAll (WSServer.closedSoFar f closed)).edits := by
            simp only [WSServer.step, hg, WSServer.resume] at hserver
            rw [if_neg (not_not.mpr hsize)] at hserver
            split at hserver
            · exact ⟨(WSServer.goes_proceed hserver).clients, (WSServer.goes_proceed hserver).edits⟩
            · cases hserver
          refine .inr ⟨g, done ++ [m], next, rest, [], [], underWay_of_firstSend hg' ?_ ?_ ?_ ?_ ?_⟩
          · rw [hflushes, hfirst]
            exact List.filter_cons_of_pos (by rw [hcaller]; exact hflush)
          · rw [hqueue, h.queue, hlate]
            simp
          · rw [hhanded, hsame]
          · rw [hform, hgoes.1, hgoes.2]
          · rw [hform]
            exact Finset.card_pos.mpr (Finset.nonempty_of_ne_empty hlive)

/-- **A sound step keeps the flushes and the logs together.** -/
theorem coherent_step (h : s.Coherent) (hsound : s.SoundFlushes l) (hstep : s.step l = some t) :
    t.Coherent := by
  refine ⟨order_step h.order hstep, ?_⟩
  by_cases hjoin : ∀ ws pick, l ≠ .connect ws pick
  · by_cases hresumes : ∀ g, s.server.resumes l = some g → g.caller.isFlush = false
    · exact flush_step_of_quiet h.flush hjoin hresumes hstep
    · -- A flush is resumed: it is the one that is under way.
      push Not at hresumes
      obtain ⟨g, hg, hflush⟩ := hresumes
      have hflush : g.caller.isFlush = true := by simpa using hflush
      cases l with
      | sent i closed next pick =>
          have hmem : g ∈ s.server.flushes :=
            List.mem_filter.mpr ⟨List.mem_of_getElem? hg, hflush⟩
          rcases h.flush with ⟨front, hrests⟩ | ⟨f, done, m, rest, late, tried, hunder⟩
          · rw [hrests.idle] at hmem
            cases hmem
          · rw [hunder.only] at hmem
            obtain rfl := List.mem_singleton.mp hmem
            by_cases hsize : s.server.clients.card = g.startSize
            · cases next with
              | some w =>
                  obtain ⟨f', hf'⟩ := flush_step_of_next hunder hg hflush hsize hstep
                  exact .inr ⟨f', done, m, rest, late, g.visited, hf'⟩
              | none => exact flush_step_of_through hunder hg hflush hsize hsound hstep
            · exact .inl (flush_step_of_broken hunder hg hflush hsize hstep)
      | _ => cases hg
  · push Not at hjoin
    obtain ⟨ws, pick, rfl⟩ := hjoin
    exact flush_step_of_connect h.flush hsound hstep

end Step

/-- **Every message once and in order**, in any run in which every flush begins while no
other one is under way and nothing in the queue has been handed on, and in which every
message that a flush is through with has met a client not found closed. -/
theorem exactlyOnce_of_soundFlushes [DecidableEq π] {labels : List (Label π)}
    (hmeets : MeetsAlong step SoundFlushes (init : FlushRun π) labels) :
    Always step ExactlyOnce (init : FlushRun π) labels :=
  always_of_meetsAlong step coherent_init (fun _ h => h.exactlyOnce)
    (fun _ _ _ h hsound hstep => coherent_step h hsound hstep) hmeets

/-- Two wakes are queued while no client is there.  A client connects and is sent both, and
another one joins it.  When both have gone a third wake is queued, for a third client. -/
def flushesInTurn : List (Label Unit) :=
  [.broadcast WSServer.offlineWake 0 ['a'] 0 [], .broadcast WSServer.offlineWake 1 ['b'] 1 [],
    .connect 0 0, .sent 0 false none 0, .sent 0 false none 0, .connect 1 1, .disconnect 0,
    .disconnect 1, .broadcast WSServer.offlineWake 2 ['c'] 2 [], .connect 2 2,
    .sent 0 false none 2]

theorem exactlyOnce_of_flushesInTurn :
    Always step ExactlyOnce (init : FlushRun Unit) flushesInTurn ∧
      (execute step (init : FlushRun Unit) flushesInTurn).map (fun s =>
        (s.handed.map OutMsg.correlationId, s.left.map OutMsg.correlationId)) =
          some ([['a'], ['b'], ['c']], [['a'], ['b'], ['c']]) :=
  ⟨exactlyOnce_of_soundFlushes (by decide +kernel), by decide +kernel⟩

/-- A second client connects while the first one's flush is at its `await`. -/
def twoFlushes : List (Label Unit) :=
  [.broadcast WSServer.offlineWake 0 ['a'] 0 [], .connect 0 0, .connect 1 0,
    .sent 0 false none 0, .sent 0 false (some 1) 0]

/-- The client's connection breaks while the flush is sending to it. -/
def brokenFlush : List (Label Unit) :=
  [.broadcast WSServer.offlineWake 0 ['a'] 0 [], .connect 0 0, .sent 0 true none 0]

/-- **The queue is flushed twice, or lost.**  Where two clients connect, both flushes send
the wake; where the only connection breaks under the flush, the wake leaves the queue
and nobody got it. -/
theorem wake_flushed_twice_or_lost :
    (∃ u, execute step (init : FlushRun Unit) twoFlushes = some u ∧
      u.added = [outMsg WSServer.offlineWake 0 ['a']] ∧
      u.handed = [outMsg WSServer.offlineWake 0 ['a'], outMsg WSServer.offlineWake 0 ['a']] ∧
      ¬ u.ExactlyOnce) ∧
    ∃ u, execute step (init : FlushRun Unit) brokenFlush = some u ∧
      u.handed = [] ∧ u.left = [outMsg WSServer.offlineWake 0 ['a']] ∧ ¬ u.ExactlyOnce := by
  have htwice : (execute step (init : FlushRun Unit) twoFlushes).map
      (fun s => (s.added, s.handed)) =
        some ([outMsg WSServer.offlineWake 0 ['a']],
          [outMsg WSServer.offlineWake 0 ['a'], outMsg WSServer.offlineWake 0 ['a']]) := by
    decide +kernel
  have hlost : (execute step (init : FlushRun Unit) brokenFlush).map
      (fun s => (s.handed, s.left)) =
        some ([], [outMsg WSServer.offlineWake 0 ['a']]) := by
    decide +kernel
  constructor
  · obtain ⟨u, hu, hfields⟩ := Option.map_eq_some_iff.mp htwice
    obtain ⟨hadded, hhanded⟩ := Prod.mk.inj hfields
    refine ⟨u, hu, hadded, hhanded, ?_⟩
    intro honce
    have hle := honce.atMostOnce (outMsg WSServer.offlineWake 0 ['a'])
    rw [hadded, hhanded] at hle
    exact absurd hle (by decide)
  · obtain ⟨u, hu, hfields⟩ := Option.map_eq_some_iff.mp hlost
    obtain ⟨hhanded, hleft⟩ := Prod.mk.inj hfields
    refine ⟨u, hu, hhanded, hleft, ?_⟩
    intro honce
    have hle := honce.sent (outMsg WSServer.offlineWake 0 ['a'])
    rw [hhanded, hleft] at hle
    exact absurd hle (by decide)

end FlushRun

end Transport
end AvaListener
