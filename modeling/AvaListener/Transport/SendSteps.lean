import Mathlib.Data.List.Perm.Basic
import AvaListener.Transport.WSServer

/-!
# Tasks, sends and connections

What one step of the server does to the tasks, to the sends under way and to the
connections, for every label at once: at most one send loop is led to its `await`,
which is at a client, only `broadcast` makes a task, and only a join or a leave changes
the client set.
-/

namespace AvaListener
namespace Transport

open Library

variable {π : Type}

namespace WSServer

variable {s t : WSServer π} {l : Label π} {f : SendLoop π}

/-! ## The parts of a step -/

/-- The step adds a client or removes one. -/
def changesClients (s : WSServer π) : Label π → Bool
  | .connect ws _ => ws ∉ s.seen
  | .disconnect ws => ws ∈ s.receiving ∧ ws ∈ s.clients
  | .replied ws closed => closed ∧ ws ∈ s.replying ∧ ws ∈ s.clients
  | .sent i closed none _ =>
      match s.sending[i]? with
      | none => false
      | some f => (closedSoFar f closed).any (· ∈ s.clients)
  | _ => false

/-- The send loops under way besides the one that the step resumes. -/
def otherSends (s : WSServer π) : Label π → List (SendLoop π)
  | .sent i _ _ _ => s.sending.eraseIdx i
  | _ => s.sending

/-- The send loop with which `proceed` goes on, if it sends at all. -/
def firstSend (s : WSServer π) (caller : Caller) (msgs : List (Outgoing π)) (pick : ℕ) :
    Option (SendLoop π) :=
  match msgs with
  | [] => none
  | msg :: rest =>
      if s.clients = ∅ then none
      else some ⟨caller, msg, rest, s.clients.card, s.edits, [pick], pick, []⟩

/-- The send loop that the step leads to its `await`. -/
def started (s : WSServer π) : Label π → Option (SendLoop π)
  | .connect ws pick =>
      (s.addClient ws).firstSend (.flush ws) (s.store.offlineQueue.map .single) pick
  | .startTask pick =>
      match s.tasks with
      | [] => none
      | msg :: _ => s.firstSend .task [msg] pick
  | .sent i closed next pick =>
      match s.sending[i]? with
      | none => none
      | some f =>
          if s.clients.card ≠ f.startSize then none
          else
            match next with
            | some ws =>
                some { f with
                  visited := ws :: f.visited
                  ws := ws
                  disconnected := closedSoFar f closed }
            | none => (s.discardAll (closedSoFar f closed)).firstSend f.caller f.rest pick
  | .retryTick now pick => s.firstSend .retryLoop ((s.store.toRetry now).map .single) pick
  | .batchTick now batchId pick =>
      if s.store.bestEffortBatch = [] then none
      else s.firstSend .batchLoop [.batch batchId now s.store.bestEffortBatch] pick
  | _ => none

def tasksAfter (s : WSServer π) : Label π → List (Outgoing π)
  | .broadcast obj created uuid now batchId =>
      if (outMsg obj created uuid).type ∈ bestEffort then
        s.tasks ++ ((s.store.addToBatch (outMsg obj created uuid)).2.map
          (Outgoing.batch batchId now)).toList
      else if s.clients = ∅ then s.tasks
      else s.tasks ++ [.single (outMsg obj created uuid)]
  | .startTask _ => s.tasks.tail
  | _ => s.tasks

theorem firstSend_eq_some {caller : Caller} {msgs : List (Outgoing π)} {pick : ℕ}
    (h : s.firstSend caller msgs pick = some f) :
    s.clients ≠ ∅ ∧ f = ⟨caller, f.msg, f.rest, s.clients.card, s.edits, [pick], pick, []⟩ ∧
      msgs = f.msg :: f.rest := by
  cases msgs with
  | nil => cases h
  | cons msg rest =>
      by_cases hclients : s.clients = ∅
      · rw [firstSend, if_pos hclients] at h
        cases h
      · rw [firstSend, if_neg hclients] at h
        obtain rfl := Option.some.inj h
        exact ⟨hclients, rfl, rfl⟩

theorem discardAll_of_gone {gone : List ℕ} (h : ∀ ws ∈ gone, ws ∉ s.clients) :
    s.discardAll gone = s := by
  have hkeep : (s.clients.filter fun ws => ws ∉ gone) = s.clients := by
    rw [Finset.filter_eq_self]
    exact fun ws hws hgone => h ws hgone hws
  have hnone : (s.clients.filter fun ws => ws ∈ gone) = ∅ := by
    rw [Finset.filter_eq_empty_iff]
    exact fun ws hws hgone => h ws hgone hws
  rw [discardAll, hkeep, hnone]
  rfl

theorem edits_lt_discardAll {gone : List ℕ} {ws : ℕ} (hgone : ws ∈ gone) (hws : ws ∈ s.clients) :
    s.edits < (s.discardAll gone).edits := by
  show s.edits < s.edits + (s.clients.filter fun ws => ws ∈ gone).card
  have hpos : 0 < (s.clients.filter fun ws => ws ∈ gone).card :=
    Finset.card_pos.mpr ⟨ws, Finset.mem_filter.mpr ⟨hws, hgone⟩⟩
  omega

/-- A step up to where its caller goes on: the task or the send loop is taken, and the
client set changed. -/
structure Turn (s a : WSServer π) (l : Label π) : Prop where
  tasks : a.tasks = s.tasksAfter l
  sending : a.sending = s.otherSends l
  seen : s.seen ⊆ a.seen
  clients : ∀ ws ∈ a.clients, ws ∈ s.clients ∨ ws ∈ a.seen
  same : s.changesClients l = false → a.clients = s.clients ∧ a.edits = s.edits
  older : s.changesClients l = true → s.edits < a.edits
  alive : (s.retryLoop ≠ .dead → a.retryLoop ≠ .dead) ∧
    (s.batchLoop ≠ .dead → a.batchLoop ≠ .dead)

/-- A turn that leaves the client set alone. -/
theorem turn_of_eq {a : WSServer π} (hchanges : s.changesClients l = false)
    (hclients : a.clients = s.clients) (hedits : a.edits = s.edits) (hseen : a.seen = s.seen)
    (htasks : a.tasks = s.tasksAfter l) (hsending : a.sending = s.otherSends l)
    (hretry : s.retryLoop ≠ .dead → a.retryLoop ≠ .dead)
    (hbatch : s.batchLoop ≠ .dead → a.batchLoop ≠ .dead) : s.Turn a l := by
  refine ⟨htasks, hsending, hseen.symm.subset, ?_, fun _ => ⟨hclients, hedits⟩, ?_,
    hretry, hbatch⟩
  · intro ws hws
    exact .inl (hclients ▸ hws)
  · intro hchange
    cases hchange.symm.trans hchanges

/-- A turn that takes clients off the set. -/
theorem turn_of_discard {a : WSServer π} (gone : List ℕ)
    (hchanges : s.changesClients l = gone.any (· ∈ s.clients))
    (hclients : a.clients = (s.discardAll gone).clients)
    (hedits : a.edits = (s.discardAll gone).edits) (hseen : a.seen = s.seen)
    (htasks : a.tasks = s.tasksAfter l) (hsending : a.sending = s.otherSends l)
    (hretry : a.retryLoop = s.retryLoop) (hbatch : a.batchLoop = s.batchLoop) : s.Turn a l := by
  refine ⟨htasks, hsending, hseen.symm.subset, ?_, ?_, ?_, ?_, ?_⟩
  · intro ws hws
    rw [hclients] at hws
    exact .inl (Finset.filter_subset _ _ hws)
  · intro hnone
    have hsame : s.discardAll gone = s := by
      apply discardAll_of_gone
      intro ws hgone hws
      rw [hchanges, List.any_eq_false] at hnone
      exact hnone ws hgone (decide_eq_true hws)
    rw [hclients, hedits, hsame]
    exact ⟨rfl, rfl⟩
  · intro hchange
    rw [hchanges, List.any_eq_true] at hchange
    obtain ⟨ws, hgone, hws⟩ := hchange
    rw [hedits]
    exact edits_lt_discardAll hgone (of_decide_eq_true hws)
  · rw [hretry]
    exact id
  · rw [hbatch]
    exact id

/-- The caller goes on, with the first of its messages or after the last. -/
structure Goes (a t : WSServer π) (next : Option (SendLoop π)) : Prop where
  clients : t.clients = a.clients
  edits : t.edits = a.edits
  seen : t.seen = a.seen
  tasks : t.tasks = a.tasks
  sending : t.sending = a.sending ++ next.toList
  isClient : ∀ f, next = some f → f.ws ∈ a.clients
  iterator : ∀ f, next = some f → f.startEdits = a.edits ∧ f.startSize = a.clients.card
  alive : (a.retryLoop ≠ .dead → t.retryLoop ≠ .dead) ∧
    (a.batchLoop ≠ .dead → t.batchLoop ≠ .dead)

theorem goes_nowhere (s : WSServer π) : s.Goes s none :=
  ⟨rfl, rfl, rfl, rfl, (List.append_nil _).symm, nofun, nofun, id, id⟩

theorem goes_finish (s : WSServer π) (caller : Caller) : s.Goes (s.finish caller) none := by
  cases caller with
  | task => exact goes_nowhere s
  | flush ws => exact ⟨rfl, rfl, rfl, rfl, (List.append_nil _).symm, nofun, nofun, id, id⟩
  | retryLoop =>
      exact ⟨rfl, rfl, rfl, rfl, (List.append_nil _).symm, nofun, nofun, fun _ => nofun, id⟩
  | batchLoop =>
      exact ⟨rfl, rfl, rfl, rfl, (List.append_nil _).symm, nofun, nofun, id, fun _ => nofun⟩

theorem goes_proceed {caller : Caller} {msgs : List (Outgoing π)} {pick : ℕ}
    (h : s.proceed caller msgs pick = some t) : s.Goes t (s.firstSend caller msgs pick) := by
  cases msgs with
  | nil =>
      obtain rfl := Option.some.inj h
      exact goes_finish s caller
  | cons msg rest =>
      by_cases hclients : s.clients = ∅
      · rw [proceed, if_pos hclients] at h
        obtain rfl := Option.some.inj h
        rw [firstSend, if_pos hclients]
        exact goes_finish s caller
      · rw [proceed, if_neg hclients] at h
        rw [firstSend, if_neg hclients]
        split at h
        next hpick =>
          obtain rfl := Option.some.inj h
          refine ⟨rfl, rfl, rfl, rfl, rfl, fun f hf => ?_, fun f hf => ?_, id, id⟩
          · obtain rfl := Option.some.inj hf
            exact hpick
          · obtain rfl := Option.some.inj hf
            exact ⟨rfl, rfl⟩
        · cases h

/-! ## One step -/

/-- What a step does to the tasks, the sends, the client set and the two background
loops.  A `RuntimeError` needs a set of another size under an iterator. -/
structure Effect (s t : WSServer π) (l : Label π) : Prop where
  tasks : t.tasks = s.tasksAfter l
  sending : t.sending = s.otherSends l ++ (s.started l).toList
  seen : s.seen ⊆ t.seen
  /-- A client that joins is a connection seen. -/
  clients : ∀ ws ∈ t.clients, ws ∈ s.clients ∨ ws ∈ t.seen
  /-- A send is at a client. -/
  isClient : ∀ f, s.started l = some f → f.ws ∈ t.clients
  same : s.changesClients l = false → t.clients = s.clients ∧ t.edits = s.edits
  older : (∀ f ∈ s.sending, f.startSize = s.clients.card) → s.changesClients l = true →
    s.edits < t.edits
  /-- The iterator of a send is made now, or it is the one of the send resumed. -/
  iterator : ∀ f, s.started l = some f →
    (f.startEdits = t.edits ∧ f.startSize = t.clients.card) ∨
      (s.changesClients l = false ∧
        ∃ g ∈ s.sending, f.startEdits = g.startEdits ∧ f.startSize = g.startSize)
  alive : (∀ f ∈ s.sending, f.startSize = s.clients.card) →
    (s.retryLoop ≠ .dead → t.retryLoop ≠ .dead) ∧ (s.batchLoop ≠ .dead → t.batchLoop ≠ .dead)

theorem Turn.effect {a : WSServer π} (ha : s.Turn a l) {next : Option (SendLoop π)}
    (ht : a.Goes t next) (hnext : s.started l = next) : s.Effect t l := by
  refine ⟨ht.tasks.trans ha.tasks, ?_, ?_, ?_, ?_, ?_, ?_, ?_, ?_⟩
  · rw [ht.sending, ha.sending, hnext]
  · rw [ht.seen]
    exact ha.seen
  · rw [ht.clients, ht.seen]
    exact ha.clients
  · rw [hnext, ht.clients]
    exact ht.isClient
  · rw [ht.clients, ht.edits]
    exact ha.same
  · rw [ht.edits]
    exact fun _ => ha.older
  · intro f hf
    rw [ht.edits, ht.clients]
    exact .inl (ht.iterator f (hnext.symm.trans hf))
  · exact fun _ => ⟨fun h => ht.alive.1 (ha.alive.1 h), fun h => ht.alive.2 (ha.alive.2 h)⟩

/-- A step that leads no send to its `await`. -/
theorem Turn.effect_of_none (ht : s.Turn t l) (hnone : s.started l = none) : s.Effect t l :=
  ht.effect (goes_nowhere t) hnone

/-- A send loop that finds a set of another size ends its caller. -/
theorem effect_fail {i pick : ℕ} {closed : Bool} {next : Option ℕ}
    (hf : s.sending[i]? = some f) (hsize : s.clients.card ≠ f.startSize) :
    s.Effect (({ s with sending := s.sending.eraseIdx i } : WSServer π).fail f.caller)
      (.sent i closed next pick) := by
  have hnone : s.started (.sent i closed next pick) = none := by
    simp only [started, hf]
    exact if_pos hsize
  have hfields (a : WSServer π) (caller : Caller) : (a.fail caller).clients = a.clients ∧
      (a.fail caller).edits = a.edits ∧ (a.fail caller).seen = a.seen ∧
      (a.fail caller).tasks = a.tasks ∧ (a.fail caller).sending = a.sending := by
    cases caller <;> exact ⟨rfl, rfl, rfl, rfl, rfl⟩
  obtain ⟨hclients, hedits, hseen, htasks, hsending⟩ :=
    hfields { s with sending := s.sending.eraseIdx i } f.caller
  have hcontra (hall : ∀ g ∈ s.sending, g.startSize = s.clients.card) : False :=
    hsize (hall f (List.mem_of_getElem? hf)).symm
  refine ⟨htasks, ?_, hseen.symm.subset, fun ws hws => .inl (hclients ▸ hws), ?_,
    fun _ => ⟨hclients, hedits⟩, fun hall => (hcontra hall).elim, ?_,
    fun hall => (hcontra hall).elim⟩
  · rw [hsending, hnone, Option.toList_none, List.append_nil]
    rfl
  · intro g hg
    cases hnone.symm.trans hg
  · intro g hg
    cases hnone.symm.trans hg

theorem effect_broadcast {obj : MessageObj π} {created now : ℚ} {uuid batchId : Text}
    (h : s.step (.broadcast obj created uuid now batchId) = some t) :
    s.Effect t (.broadcast obj created uuid now batchId) := by
  simp only [step] at h
  split at h
  next hbest =>
    obtain rfl := Option.some.inj h
    unfold addToBatch
    split
    next store heq =>
      refine Turn.effect_of_none ?_ rfl
      refine turn_of_eq rfl rfl rfl rfl ?_ rfl id id
      simp [tasksAfter, hbest, heq]
    next store events heq =>
      refine Turn.effect_of_none ?_ rfl
      refine turn_of_eq rfl rfl rfl rfl ?_ rfl id id
      simp [tasksAfter, hbest, heq, createTask]
  next hbest =>
    obtain rfl := Option.some.inj h
    unfold handleSend
    split
    next hclients =>
      refine Turn.effect_of_none ?_ rfl
      refine turn_of_eq rfl rfl rfl rfl ?_ rfl id id
      rw [tasksAfter, if_neg hbest, if_pos hclients]
    next hclients =>
      refine Turn.effect_of_none ?_ rfl
      refine turn_of_eq rfl rfl rfl rfl ?_ rfl id id
      rw [tasksAfter, if_neg hbest, if_neg hclients]
      rfl

theorem effect_connect {ws pick : ℕ} (h : s.step (.connect ws pick) = some t) :
    s.Effect t (.connect ws pick) := by
  simp only [step] at h
  split at h
  · cases h
  next hnew =>
    have hchanges : s.changesClients (.connect ws pick) = true := decide_eq_true hnew
    have hturn {a : WSServer π} (hclients : a.clients = insert ws s.clients)
        (hedits : a.edits = s.edits + 1) (hseen : a.seen = insert ws s.seen)
        (htasks : a.tasks = s.tasks) (hsending : a.sending = s.sending)
        (hretry : a.retryLoop = s.retryLoop) (hbatch : a.batchLoop = s.batchLoop) :
        s.Turn a (.connect ws pick) := by
      refine ⟨htasks, hsending, ?_, ?_, ?_, ?_, ?_, ?_⟩
      · rw [hseen]
        exact Finset.subset_insert _ _
      · intro w hw
        rw [hclients] at hw
        rw [hseen]
        rcases Finset.mem_insert.mp hw with rfl | hold
        · exact .inr (Finset.mem_insert_self _ _)
        · exact .inl hold
      · intro hsame
        cases hchanges.symm.trans hsame
      · rw [hedits]
        exact fun _ => Nat.lt_succ_self _
      · rw [hretry]
        exact id
      · rw [hbatch]
        exact id
    split at h
    next hqueue =>
      obtain rfl := Option.some.inj h
      refine Turn.effect_of_none (hturn rfl rfl rfl rfl rfl rfl rfl) ?_
      simp [started, hqueue, firstSend]
    · refine Turn.effect ?_ (goes_proceed h) rfl
      exact hturn rfl rfl rfl rfl rfl rfl rfl

theorem effect_sent {i pick : ℕ} {closed : Bool} {next : Option ℕ}
    (h : s.step (.sent i closed next pick) = some t) : s.Effect t (.sent i closed next pick) := by
  simp only [step] at h
  split at h
  · cases h
  next f hf =>
    unfold resume at h
    split at h
    next hsize =>
      obtain rfl := Option.some.inj h
      exact effect_fail hf hsize
    next hsize =>
      have hsize' : ¬ s.clients.card ≠ f.startSize := hsize
      cases next with
      | some ws =>
          simp only at h
          split at h
          next hyields =>
            obtain rfl := Option.some.inj h
            have hstarted : s.started (.sent i closed (some ws) pick) =
                some { f with
                  visited := ws :: f.visited
                  ws := ws
                  disconnected := closedSoFar f closed } := by
              simp only [started, hf, if_neg hsize']
            refine ⟨rfl, ?_, Finset.Subset.refl _, fun w hw => .inl hw, ?_,
              fun _ => ⟨rfl, rfl⟩, fun _ hchange => absurd hchange Bool.false_ne_true, ?_,
              fun _ => ⟨id, id⟩⟩
            · rw [hstarted]
              rfl
            · intro g hg
              obtain rfl := Option.some.inj (hstarted.symm.trans hg)
              exact hyields.1
            · intro g hg
              obtain rfl := Option.some.inj (hstarted.symm.trans hg)
              exact .inr ⟨rfl, f, List.mem_of_getElem? hf, rfl, rfl⟩
          · cases h
      | none =>
          simp only at h
          split at h
          · refine Turn.effect ?_ (goes_proceed h) ?_
            · refine turn_of_discard (closedSoFar f closed) ?_ rfl rfl rfl rfl rfl rfl rfl
              simp only [changesClients, hf]
            · simp only [started, hf, if_neg hsize']
              rfl
          · cases h

/-- **What a step does.** -/
theorem step_effect (h : s.step l = some t) : s.Effect t l := by
  cases l with
  | broadcast obj created uuid now batchId => exact effect_broadcast h
  | connect ws pick => exact effect_connect h
  | receive ws msg =>
      simp only [step] at h
      split at h
      · cases msg with
        | ack acked =>
            obtain rfl := Option.some.inj h
            exact Turn.effect_of_none (turn_of_eq rfl rfl rfl rfl rfl rfl id id) rfl
        | command =>
            obtain rfl := Option.some.inj h
            exact Turn.effect_of_none (turn_of_eq rfl rfl rfl rfl rfl rfl id id) rfl
        | malformed =>
            obtain rfl := Option.some.inj h
            exact Turn.effect_of_none (turn_of_eq rfl rfl rfl rfl rfl rfl id id) rfl
      · cases h
  | replied ws closed =>
      simp only [step] at h
      split at h
      next hreplying =>
        cases closed with
        | true =>
            rw [if_pos rfl] at h
            obtain rfl := Option.some.inj h
            refine Turn.effect_of_none ?_ rfl
            refine turn_of_discard [ws] ?_ rfl rfl rfl rfl rfl rfl rfl
            simp [changesClients, hreplying]
        | false =>
            rw [if_neg Bool.false_ne_true] at h
            obtain rfl := Option.some.inj h
            refine Turn.effect_of_none ?_ rfl
            refine turn_of_eq ?_ rfl rfl rfl rfl rfl id id
            simp [changesClients]
      · cases h
  | disconnect ws =>
      simp only [step] at h
      split at h
      next hreceiving =>
        obtain rfl := Option.some.inj h
        refine Turn.effect_of_none ?_ rfl
        refine turn_of_discard [ws] ?_ rfl rfl rfl rfl rfl rfl rfl
        simp [changesClients, hreceiving]
      · cases h
  | startTask pick =>
      simp only [step] at h
      split at h
      · cases h
      next msg rest htasks =>
        refine Turn.effect ?_ (goes_proceed h) ?_
        · refine turn_of_eq rfl rfl rfl rfl ?_ rfl id id
          simp only [tasksAfter, htasks, List.tail_cons]
        · simp only [started, htasks]
          rfl
  | sent i closed next pick => exact effect_sent h
  | retryTick now pick =>
      simp only [step] at h
      split at h
      · split at h
        next hclients =>
          obtain rfl := Option.some.inj h
          refine Turn.effect_of_none (turn_of_eq rfl rfl rfl rfl rfl rfl id id) ?_
          cases hretry : s.store.toRetry now with
          | nil => simp [started, hretry, firstSend]
          | cons x rest => simp [started, hretry, firstSend, hclients]
        · split at h
          next hretry =>
            obtain rfl := Option.some.inj h
            refine Turn.effect_of_none (turn_of_eq rfl rfl rfl rfl rfl rfl id id) ?_
            simp [started, hretry, firstSend]
          · refine Turn.effect ?_ (goes_proceed h) rfl
            exact turn_of_eq rfl rfl rfl rfl rfl rfl (fun _ => LoopState.noConfusion) id
      · cases h
  | batchTick now batchId pick =>
      simp only [step] at h
      split at h
      · split at h
        next hempty =>
          obtain rfl := Option.some.inj h
          refine Turn.effect_of_none (turn_of_eq rfl rfl rfl rfl rfl rfl id id) ?_
          simp only [started, if_pos hempty]
        next hempty =>
          refine Turn.effect ?_ (goes_proceed h) ?_
          · exact turn_of_eq rfl rfl rfl rfl rfl rfl id fun _ => LoopState.noConfusion
          · simp only [started, if_neg hempty]
            rfl
      · cases h

theorem mem_sending_of_otherSends (h : f ∈ s.otherSends l) : f ∈ s.sending := by
  cases l with
  | sent i closed next pick => exact List.mem_of_mem_eraseIdx h
  | _ => exact h

/-- The resumed send and the others. -/
theorem resumed_perm {i : ℕ} (hf : s.sending[i]? = some f) :
    (f :: s.sending.eraseIdx i).Perm s.sending := by
  obtain ⟨hlt, rfl⟩ := List.getElem?_eq_some_iff.mp hf
  exact List.getElem_cons_eraseIdx_perm hlt

theorem otherSends_sublist (s : WSServer π) (l : Label π) :
    (s.otherSends l).Sublist s.sending := by
  cases l with
  | sent i closed next pick => exact List.eraseIdx_sublist _ _
  | _ => exact List.Sublist.refl _

/-! ## Connections are new -/

/-- The server knows the connections it sends to. -/
structure Known (s : WSServer π) : Prop where
  clients : s.clients ⊆ s.seen
  visited : ∀ f ∈ s.sending, ∀ ws ∈ f.visited, ws ∈ s.seen

theorem known_init : (init : WSServer π).Known where
  clients := by simp [init]
  visited := by simp [init]

/-- The clients a started send has been to. -/
theorem started_visited {ws : ℕ} (hf : s.started l = some f) (hws : ws ∈ f.visited) :
    ws = f.ws ∨ ∃ g ∈ s.sending, ws ∈ g.visited := by
  have hfirst {a : WSServer π} {caller : Caller} {msgs : List (Outgoing π)} {pick : ℕ}
      (h : a.firstSend caller msgs pick = some f) : ws = f.ws ∨ ∃ g ∈ s.sending, ws ∈ g.visited := by
    obtain ⟨-, hf, -⟩ := firstSend_eq_some h
    rw [hf] at hws ⊢
    exact .inl (List.mem_singleton.mp hws)
  cases l with
  | connect w pick => exact hfirst hf
  | startTask pick =>
      simp only [started] at hf
      split at hf
      · cases hf
      · exact hfirst hf
  | sent i closed next pick =>
      simp only [started] at hf
      split at hf
      · cases hf
      next g hg =>
        split at hf
        · cases hf
        · cases next with
          | some w =>
              obtain rfl := Option.some.inj hf
              rcases List.mem_cons.mp hws with hnew | hold
              · exact .inl hnew
              · exact .inr ⟨g, List.mem_of_getElem? hg, hold⟩
          | none => exact hfirst hf
  | retryTick now pick => exact hfirst hf
  | batchTick now batchId pick =>
      simp only [started] at hf
      split at hf
      · cases hf
      · exact hfirst hf
  | _ => cases hf

theorem known_step (h : s.Known) (hstep : s.step l = some t) : t.Known := by
  have heffect := step_effect hstep
  have hclients : t.clients ⊆ t.seen := by
    intro ws hws
    rcases heffect.clients ws hws with hold | hnew
    · exact heffect.seen (h.clients hold)
    · exact hnew
  refine ⟨hclients, ?_⟩
  intro f hf ws hws
  rw [heffect.sending] at hf
  rcases List.mem_append.mp hf with hold | hnew
  · exact heffect.seen (h.visited f (mem_sending_of_otherSends hold) ws hws)
  · have hstarted := Option.mem_toList.mp hnew
    rcases started_visited hstarted hws with rfl | ⟨g, hg, hmem⟩
    · exact hclients (heffect.isClient f hstarted)
    · exact heffect.seen (h.visited g hg ws hmem)

end WSServer

end Transport
end AvaListener
