import Mathlib.Data.Finset.Card
import AvaListener.Library.Runs
import AvaListener.Transport.Reliability

/-!
# The WebSocket server

`WSServer` of `runtime/transport/websocket_server.py` as a system of coroutines on
one event loop: the connection handlers, the send tasks, the batch loop and the
retry loop.  A label is one callback or one stretch of a coroutine between two
await points, and a schedule interleaves them at will.

The client set is iterated in no promised order, so a label says which client an
iterator yields.  Changing the set's size under an iterator is the `RuntimeError`
of the host language.  A set that was changed and has its old size again is
iterated in no particular way at all.

The server runs, and is not stopped; messages for `on_message` only leave the
server and do nothing to it.
-/

namespace AvaListener
namespace Transport

open Library

variable {π : Type}

/-- What a send puts on a connection: a message, or a batch message with its
events. -/
inductive Outgoing (π : Type) where
  | single (m : OutMsg π)
  | batch (correlationId : Text) (timestamp : ℚ) (events : List (OutMsg π))
  deriving DecidableEq

/-- The coroutine that called `_send_to_clients`. -/
inductive Caller where
  /-- A task of its own. -/
  | task
  /-- The handler of this connection, flushing the offline queue. -/
  | flush (ws : ℕ)
  | retryLoop
  | batchLoop
  deriving DecidableEq

def Caller.isFlush : Caller → Bool
  | .flush _ => true
  | _ => false

/-- A `_send_to_clients` at `await ws.send(..)`, with the messages its caller has
still to send. -/
structure SendLoop (π : Type) where
  caller : Caller
  msg : Outgoing π
  rest : List (Outgoing π)
  /-- Size and age of the client set when the iterator was made. -/
  startSize : ℕ
  startEdits : ℕ
  visited : List ℕ
  ws : ℕ
  disconnected : List ℕ
  deriving DecidableEq

inductive LoopState where
  | sleeping
  | sending
  /-- Ended by an exception. -/
  | dead
  deriving DecidableEq

structure WSServer (π : Type) where
  clients : Finset ℕ
  /-- Additions to and removals from the client set. -/
  edits : ℕ
  store : Reliability π
  /-- Connections so far. -/
  seen : Finset ℕ
  /-- Handlers waiting for a message. -/
  receiving : Finset ℕ
  /-- Handlers sending an error reply. -/
  replying : Finset ℕ
  /-- Send tasks created and not yet started. -/
  tasks : List (Outgoing π)
  sending : List (SendLoop π)
  retryLoop : LoopState
  batchLoop : LoopState
  deriving DecidableEq

/-- A validated message from a client, or a malformed one. -/
inductive Incoming where
  /-- The payload's `correlationId`, if it is a string. -/
  | ack (correlationId : Option Text)
  | command
  | malformed
  deriving DecidableEq

inductive Label (π : Type) where
  /-- `broadcast` built the message at time `created`; its callback runs at `now`, with
  an id for the batch that the message may fill. -/
  | broadcast (obj : MessageObj π) (created : ℚ) (uuid : Text) (now : ℚ) (batchId : Text)
  /-- A client connects; the first flushed message goes to `pick`. -/
  | connect (ws pick : ℕ)
  | receive (ws : ℕ) (msg : Incoming)
  /-- The error reply has been sent, or the connection was closed under it. -/
  | replied (ws : ℕ) (closed : Bool)
  | disconnect (ws : ℕ)
  /-- The oldest task starts. -/
  | startTask (pick : ℕ)
  /-- The `i`-th send loop resumes; the send met a closed connection or not; the
  iterator yields `next` or is exhausted, and then `pick` is the first client for the
  caller's next message. -/
  | sent (i : ℕ) (closed : Bool) (next : Option ℕ) (pick : ℕ)
  | retryTick (now : ℚ) (pick : ℕ)
  | batchTick (now : ℚ) (batchId : Text) (pick : ℕ)

/-- The id under which a label broadcasts. -/
def Label.broadcastId : Label π → Option Text
  | .broadcast obj created uuid _ _ => some (outMsg obj created uuid).correlationId
  | _ => none

/-- The message that a label broadcasts. -/
def Label.broadcasts : Label π → Option (OutMsg π)
  | .broadcast obj created uuid _ _ => some (outMsg obj created uuid)
  | _ => none

/-- The id that a label acks. -/
def Label.ackedId : Label π → Option Text
  | .receive _ (.ack id) => id
  | _ => none

namespace WSServer

def init : WSServer π where
  clients := ∅
  edits := 0
  store := Reliability.init
  seen := ∅
  receiving := ∅
  replying := ∅
  tasks := []
  sending := []
  retryLoop := .sleeping
  batchLoop := .sleeping

/-! ## Clients -/

/-- `clients.add`. -/
def addClient (s : WSServer π) (ws : ℕ) : WSServer π :=
  { s with clients := insert ws s.clients, edits := s.edits + 1 }

/-- `clients.discard` on each. -/
def discardAll (s : WSServer π) (gone : List ℕ) : WSServer π :=
  { s with
    clients := s.clients.filter fun ws => ws ∉ gone
    edits := s.edits + (s.clients.filter fun ws => ws ∈ gone).card }

/-- The end of a handler's receive loop: `clients.remove`.  Where the client is no
longer there the `KeyError` ends the handler just the same. -/
def endHandler (s : WSServer π) (ws : ℕ) : WSServer π :=
  { s.discardAll [ws] with
    receiving := s.receiving.erase ws
    replying := s.replying.erase ws }

/-! ## Sends -/

/-- The caller goes on after its last `_send_to_clients`. -/
def finish (s : WSServer π) : Caller → WSServer π
  | .task => s
  | .flush ws => { s with store := s.store.cleared, receiving := insert ws s.receiving }
  | .retryLoop => { s with retryLoop := .sleeping }
  | .batchLoop => { s with batchLoop := .sleeping }

/-- A `RuntimeError` leaves `_send_to_clients` and ends its caller.  A handler that
is still flushing ends without `clients.remove`. -/
def fail (s : WSServer π) : Caller → WSServer π
  | .task => s
  | .flush _ => s
  | .retryLoop => { s with retryLoop := .dead }
  | .batchLoop => { s with batchLoop := .dead }

/-- The caller sends `msgs` one after the other.  With no client every
`_send_to_clients` returns at once. -/
def proceed (s : WSServer π) (caller : Caller) (msgs : List (Outgoing π)) (pick : ℕ) :
    Option (WSServer π) :=
  match msgs with
  | [] => some (s.finish caller)
  | msg :: rest =>
      if s.clients = ∅ then some (s.finish caller)
      else if pick ∈ s.clients then
        some { s with
          sending := s.sending ++
            [⟨caller, msg, rest, s.clients.card, s.edits, [pick], pick, []⟩] }
      else none

/-- The clients found closed so far. -/
def closedSoFar (f : SendLoop π) (closed : Bool) : List ℕ :=
  if closed then f.ws :: f.disconnected else f.disconnected

/-- The iterator may yield this client. -/
def Yields (s : WSServer π) (f : SendLoop π) (ws : ℕ) : Prop :=
  ws ∈ s.clients ∧ (ws ∈ f.visited → s.edits ≠ f.startEdits)

instance (s : WSServer π) (f : SendLoop π) (ws : ℕ) : Decidable (s.Yields f ws) :=
  inferInstanceAs (Decidable (_ ∧ _))

/-- The iterator may be exhausted. -/
def Exhausted (s : WSServer π) (f : SendLoop π) : Prop :=
  (∀ ws ∈ s.clients, ws ∈ f.visited) ∨ s.edits ≠ f.startEdits

instance (s : WSServer π) (f : SendLoop π) : Decidable (s.Exhausted f) :=
  inferInstanceAs (Decidable (_ ∨ _))

/-- A send loop after its `await`. -/
def resume (s : WSServer π) (f : SendLoop π) (closed : Bool) (next : Option ℕ) (pick : ℕ) :
    Option (WSServer π) :=
  if s.clients.card ≠ f.startSize then some (s.fail f.caller)
  else
    match next with
    | some ws =>
        if s.Yields f ws then
          some { s with
            sending := s.sending ++
              [{ f with
                visited := ws :: f.visited
                ws := ws
                disconnected := closedSoFar f closed }] }
        else none
    | none =>
        if s.Exhausted f then
          (s.discardAll (closedSoFar f closed)).proceed f.caller f.rest pick
        else none

/-! ## Steps -/

/-- `asyncio.create_task(self._send_to_clients(msg))`. -/
def createTask (s : WSServer π) (msg : Outgoing π) : WSServer π :=
  { s with tasks := s.tasks ++ [msg] }

/-- `_handle_send`. -/
def handleSend (s : WSServer π) (m : OutMsg π) (now : ℚ) : WSServer π :=
  if s.clients = ∅ then { s with store := s.store.keep true m now }
  else { s with store := s.store.keep false m now }.createTask (.single m)

/-- `_add_to_batch`. -/
def addToBatch (s : WSServer π) (m : OutMsg π) (now : ℚ) (batchId : Text) : WSServer π :=
  match s.store.addToBatch m with
  | (store, none) => { s with store := store }
  | (store, some events) => { s with store := store }.createTask (.batch batchId now events)

def step (s : WSServer π) : Label π → Option (WSServer π)
  | .broadcast obj created uuid now batchId =>
      if (outMsg obj created uuid).type ∈ bestEffort then
        some (s.addToBatch (outMsg obj created uuid) now batchId)
      else some (s.handleSend (outMsg obj created uuid) now)
  | .connect ws pick =>
      if ws ∈ s.seen then none
      else
        if s.store.offlineQueue = [] then
          some { s.addClient ws with seen := insert ws s.seen, receiving := insert ws s.receiving }
        else
          { s.addClient ws with seen := insert ws s.seen }.proceed (.flush ws)
            (s.store.offlineQueue.map .single) pick
  | .receive ws msg =>
      if ws ∈ s.receiving then
        match msg with
        | .ack id => some { s with store := s.store.ack id }
        | .command => some s
        | .malformed =>
            some { s with receiving := s.receiving.erase ws, replying := insert ws s.replying }
      else none
  | .replied ws closed =>
      if ws ∈ s.replying then
        if closed then some (s.endHandler ws)
        else some { s with receiving := insert ws s.receiving, replying := s.replying.erase ws }
      else none
  | .disconnect ws => if ws ∈ s.receiving then some (s.endHandler ws) else none
  | .startTask pick =>
      match s.tasks with
      | [] => none
      | msg :: rest => { s with tasks := rest }.proceed .task [msg] pick
  | .sent i closed next pick =>
      match s.sending[i]? with
      | none => none
      | some f => { s with sending := s.sending.eraseIdx i }.resume f closed next pick
  | .retryTick now pick =>
      if s.retryLoop = .sleeping then
        if s.clients = ∅ then some { s with store := s.store.collect true now }
        else if s.store.toRetry now = [] then some { s with store := s.store.collect false now }
        else
          { s with store := s.store.collect false now, retryLoop := .sending }.proceed .retryLoop
            ((s.store.toRetry now).map .single) pick
      else none
  | .batchTick now batchId pick =>
      if s.batchLoop = .sleeping then
        if s.store.bestEffortBatch = [] then some s
        else
          { s with store := s.store.takeBatch, batchLoop := .sending }.proceed .batchLoop
            [.batch batchId now s.store.bestEffortBatch] pick
      else none

/-! ## What a step does to the reliability state -/

/-- The step brings a flush to its end: the last send is over, or no client is left
for the messages that remain. -/
def endsFlush (s : WSServer π) : Label π → Bool
  | .sent i closed none _ =>
      match s.sending[i]? with
      | none => false
      | some f =>
          f.caller.isFlush ∧ s.clients.card = f.startSize ∧
            (f.rest = [] ∨ (s.discardAll (closedSoFar f closed)).clients = ∅)
  | _ => false

def storeAfter (s : WSServer π) : Label π → Reliability π
  | .broadcast obj created uuid now _ =>
      if (outMsg obj created uuid).type ∈ bestEffort then
        (s.store.addToBatch (outMsg obj created uuid)).1
      else s.store.keep (s.clients = ∅) (outMsg obj created uuid) now
  | .receive _ (.ack id) => s.store.ack id
  | .retryTick now _ => s.store.collect (s.clients = ∅) now
  | .batchTick _ _ _ => s.store.takeBatch
  | l => if s.endsFlush l then s.store.cleared else s.store

theorem store_finish (s : WSServer π) (caller : Caller) :
    (s.finish caller).store = if caller.isFlush then s.store.cleared else s.store := by
  cases caller with
  | task => rfl
  | flush ws => rfl
  | retryLoop => rfl
  | batchLoop => rfl

theorem store_fail (s : WSServer π) (caller : Caller) : (s.fail caller).store = s.store := by
  cases caller with
  | task => rfl
  | flush ws => rfl
  | retryLoop => rfl
  | batchLoop => rfl

theorem proceed_store {s t : WSServer π} {caller : Caller} {msgs : List (Outgoing π)} {pick : ℕ}
    (h : s.proceed caller msgs pick = some t) :
    t.store =
      if caller.isFlush ∧ (msgs = [] ∨ s.clients = ∅) then s.store.cleared else s.store := by
  cases msgs with
  | nil =>
      obtain rfl := Option.some.inj h
      simp [store_finish]
  | cons msg rest =>
      by_cases hclients : s.clients = ∅
      · rw [proceed, if_pos hclients] at h
        obtain rfl := Option.some.inj h
        simp [store_finish, hclients]
      · rw [proceed, if_neg hclients] at h
        split at h
        · obtain rfl := Option.some.inj h
          simp [hclients]
        · cases h

theorem resume_store {s t : WSServer π} {f : SendLoop π} {closed : Bool} {next : Option ℕ}
    {pick : ℕ} (h : s.resume f closed next pick = some t) :
    t.store =
      if f.caller.isFlush ∧ s.clients.card = f.startSize ∧ next = none ∧
          (f.rest = [] ∨ (s.discardAll (closedSoFar f closed)).clients = ∅)
      then s.store.cleared else s.store := by
  by_cases hsize : s.clients.card = f.startSize
  · unfold resume at h
    rw [if_neg (not_not.mpr hsize)] at h
    cases next with
    | some ws =>
        simp only at h
        split at h
        · obtain rfl := Option.some.inj h
          simp
        · cases h
    | none =>
        simp only at h
        split at h
        · rw [proceed_store h]
          simp [hsize, discardAll]
        · cases h
  · unfold resume at h
    rw [if_pos hsize] at h
    obtain rfl := Option.some.inj h
    rw [store_fail]
    simp [hsize]

/-- **Every step, seen from the reliability state.** -/
theorem step_store {s t : WSServer π} {l : Label π} (h : s.step l = some t) :
    t.store = s.storeAfter l := by
  cases l with
  | broadcast obj created uuid now batchId =>
      simp only [step] at h
      simp only [storeAfter]
      split at h
      next hbest =>
        obtain rfl := Option.some.inj h
        rw [if_pos hbest, addToBatch]
        split
        next store heq => rw [heq]
        next store events heq =>
          rw [heq]
          rfl
      next hbest =>
        obtain rfl := Option.some.inj h
        rw [if_neg hbest, handleSend]
        by_cases hclients : s.clients = ∅
        · simp [hclients]
        · simp [hclients, createTask]
  | connect ws pick =>
      simp only [step] at h
      split at h
      · cases h
      · split at h
        · obtain rfl := Option.some.inj h
          rfl
        next hqueue =>
          rw [proceed_store h, if_neg]
          · rfl
          · simp [addClient, hqueue]
  | receive ws msg =>
      simp only [step] at h
      split at h
      · cases msg with
        | ack id =>
            obtain rfl := Option.some.inj h
            rfl
        | command =>
            obtain rfl := Option.some.inj h
            rfl
        | malformed =>
            obtain rfl := Option.some.inj h
            rfl
      · cases h
  | replied ws closed =>
      simp only [step] at h
      split at h
      · cases closed with
        | true =>
            obtain rfl := Option.some.inj h
            rfl
        | false =>
            obtain rfl := Option.some.inj h
            rfl
      · cases h
  | disconnect ws =>
      simp only [step] at h
      split at h
      · obtain rfl := Option.some.inj h
        rfl
      · cases h
  | startTask pick =>
      simp only [step] at h
      split at h
      · cases h
      · rw [proceed_store h, if_neg]
        · rfl
        · simp [Caller.isFlush]
  | sent i closed next pick =>
      simp only [step] at h
      split at h
      · cases h
      next f hf =>
        rw [resume_store h]
        cases next with
        | some ws => simp [storeAfter, endsFlush]
        | none => simp [storeAfter, endsFlush, hf, discardAll]
  | retryTick now pick =>
      simp only [step] at h
      simp only [storeAfter]
      split at h
      · split at h
        next hclients =>
          obtain rfl := Option.some.inj h
          simp [hclients]
        next hclients =>
          split at h
          · obtain rfl := Option.some.inj h
            simp [hclients]
          · rw [proceed_store h]
            simp [Caller.isFlush, hclients]
      · cases h
  | batchTick now batchId pick =>
      simp only [step] at h
      simp only [storeAfter]
      split at h
      · split at h
        next hempty =>
          obtain rfl := Option.some.inj h
          rw [Reliability.takeBatch, ← hempty]
        · rw [proceed_store h]
          simp [Caller.isFlush]
      · cases h

end WSServer

end Transport
end AvaListener
