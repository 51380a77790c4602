import Mathlib.Data.List.Range
import Mathlib.Logic.Function.Basic
import AvaListener.Ipc.Protocol
import AvaListener.Library.Runs

/-!
# The supervisor's end of the channel

`IPCServer` of `runtime/ipc/channel.py`.  Every worker that is spawned makes a connection of
its own.  The accept loop has one of them at a time: it reads until `recv_json` returns
`None`, at the end of the stream or at a chunk without a message, and only then accepts
the next.  `send` uses the connection that was accepted last, read or not.

`close` is never called, so that `_stop` stays false.
-/

namespace AvaListener
namespace Ipc

open Library Library.Json

variable {ν : Type} (N : Numbers ν)

/-! ## The code -/

/-- A worker's connection: the chunks that have arrived, each as one `recv` returns it, how
many of them have been received, whether the worker has closed it, and what was sent. -/
structure Connection (ν : Type) where
  arrived : List Text
  taken : ℕ
  hungUp : Bool
  outbound : List (Value ν)

def Connection.fresh : Connection ν := ⟨[], 0, false, []⟩

/-- The connections are numbered in the order in which they are made, which is the order in
which `accept` returns them. -/
structure IPCServer (ν : Type) where
  made : ℕ
  accepted : ℕ
  clientSock : Option ℕ
  /-- In the inner loop. -/
  reading : Bool
  connection : ℕ → Connection ν
  /-- What `on_receive` was called with, and what `send` wrote. -/
  received : List (Value ν)
  sent : List (Value ν)

inductive ChannelLabel (ν : Type) where
  | connect
  | arrive (i : ℕ) (data : Text)
  | hangUp (i : ℕ)
  | accept
  /-- One `recv_json` of the inner loop, with what the loop does about it. -/
  | recv
  /-- A `send` that raises nothing; one that does returns `False` and writes nothing. -/
  | send (obj : Value ν)

namespace IPCServer

variable (s : IPCServer ν)

def init : IPCServer ν := ⟨0, 0, none, false, fun _ => .fresh, [], []⟩

def change (i : ℕ) (f : Connection ν → Connection ν) : IPCServer ν :=
  { s with connection := Function.update s.connection i (f (s.connection i)) }

def receive (i : ℕ) : Option (IPCServer ν) :=
  let c := s.connection i
  match c.arrived[c.taken]? with
  | some data =>
      let s := s.change i fun c => { c with taken := c.taken + 1 }
      match recvJson N data with
      | none => some { s with reading := false }
      | some obj => some { s with received := s.received ++ [obj] }
  | none => if c.hungUp then some { s with reading := false } else none

def step : ChannelLabel ν → Option (IPCServer ν)
  | .connect => some { s with made := s.made + 1 }
  | .arrive i data =>
      if i < s.made ∧ (s.connection i).hungUp = false ∧ data ≠ [] then
        some (s.change i fun c => { c with arrived := c.arrived ++ [data] })
      else none
  | .hangUp i =>
      if i < s.made then some (s.change i fun c => { c with hungUp := true }) else none
  | .accept =>
      if s.reading = false ∧ s.accepted < s.made then
        some { s with
          accepted := s.accepted + 1
          clientSock := some s.accepted
          reading := true }
      else none
  | .recv =>
      match s.clientSock with
      | some i => if s.reading then s.receive N i else none
      | none => none
  | .send obj =>
      match s.clientSock with
      | none => some s
      | some i =>
          let s := s.change i fun c => { c with outbound := c.outbound ++ [obj] }
          some { s with sent := s.sent ++ [obj] }

end IPCServer

/-! ## One connection -/

/-- What has been heard of a connection. -/
def Connection.heard (c : Connection ν) : List (Value ν) :=
  (recvLoop N (c.arrived.take c.taken)).1

/-- The loop has left the connection: at the end of its stream, or at a chunk without a
message. -/
def Connection.Over (c : Connection ν) : Prop :=
  (c.hungUp = true ∧ c.taken = c.arrived.length) ∨
    (recvLoop N (c.arrived.take c.taken)).2 = false

variable {N}

/-- What comes after a chunk without a message is not seen. -/
theorem recvLoop_append_of_stopped {chunks : List Text} (h : (recvLoop N chunks).2 = false)
    (more : List Text) : recvLoop N (chunks ++ more) = recvLoop N chunks := by
  induction chunks with
  | nil => cases h
  | cons data rest ih =>
      rw [List.cons_append, recvLoop, recvLoop]
      cases hdata : recvJson N data with
      | none => rfl
      | some v =>
          have hrest : (recvLoop N rest).2 = false := by simpa [recvLoop, hdata] using h
          simp only [ih hrest]

theorem recvLoop_append_of_open {chunks : List Text} (h : (recvLoop N chunks).2 = true)
    (more : List Text) :
    recvLoop N (chunks ++ more) =
      ((recvLoop N chunks).1 ++ (recvLoop N more).1, (recvLoop N more).2) := by
  induction chunks with
  | nil => rfl
  | cons data rest ih =>
      rw [List.cons_append, recvLoop, recvLoop]
      cases hdata : recvJson N data with
      | none => simp [recvLoop, hdata] at h
      | some v =>
          have hrest : (recvLoop N rest).2 = true := by simpa [recvLoop, hdata] using h
          simp only [ih hrest, List.cons_append]

namespace Connection

variable {c d : Connection ν} {data : Text}

/-- **A connection that is over** has been heard as far as it ever will be. -/
theorem Over.heard_eq (h : c.Over N) : c.heard N = (recvLoop N c.arrived).1 := by
  rw [heard]
  rcases h with ⟨-, htaken⟩ | hstopped
  · rw [htaken, List.take_length]
  · conv_rhs => rw [← List.take_append_drop c.taken c.arrived]
    rw [recvLoop_append_of_stopped hstopped]

/-- The next chunk is received. -/
theorem recvLoop_take_succ (hopen : (recvLoop N (c.arrived.take c.taken)).2 = true)
    (hdata : c.arrived[c.taken]? = some data) :
    recvLoop N (c.arrived.take (c.taken + 1)) =
      (c.heard N ++ (recvJson N data).toList, (recvJson N data).isSome) := by
  rw [List.take_add_one, hdata, Option.toList_some, recvLoop_append_of_open hopen, heard]
  cases hvalue : recvJson N data with
  | none => simp [recvLoop, hvalue]
  | some v => simp [recvLoop, hvalue]

variable (N) in
/-- Nothing that has been received is changed, and an open connection may come to its end. -/
structure Extends (c d : Connection ν) : Prop where
  taken : d.taken = c.taken
  take : d.arrived.take d.taken = c.arrived.take c.taken
  outbound : d.outbound = c.outbound
  ended : c.Over N → d.Over N

theorem Extends.heard (h : c.Extends N d) : d.heard N = c.heard N := by
  rw [Connection.heard, h.take, Connection.heard]

theorem extends_arrive (hopen : c.hungUp = false) (htaken : c.taken ≤ c.arrived.length) :
    c.Extends N { c with arrived := c.arrived ++ [data] } where
  taken := rfl
  take := List.take_append_of_le_length htaken
  outbound := rfl
  ended := by
    rintro (⟨hhung, -⟩ | hstopped)
    · rw [hopen] at hhung
      cases hhung
    · exact .inr ((List.take_append_of_le_length htaken).symm ▸ hstopped)

theorem extends_hangUp : c.Extends N { c with hungUp := true } where
  taken := rfl
  take := rfl
  outbound := rfl
  ended := Or.imp (fun h => ⟨rfl, h.2⟩) id

end Connection

/-! ## The invariant -/

namespace IPCServer

variable (N) in
/-- The connections that were accepted are over, but for the last while it is read; those
that were not have not been touched. -/
structure Inv (s : IPCServer ν) : Prop where
  made : s.accepted ≤ s.made
  client : ∀ i, s.clientSock = some i ↔ i + 1 = s.accepted
  received : s.received = (List.range s.accepted).flatMap fun i => (s.connection i).heard N
  sent : s.sent = (List.range s.accepted).flatMap fun i => (s.connection i).outbound
  taken : ∀ i, (s.connection i).taken ≤ (s.connection i).arrived.length
  waiting : ∀ i, s.accepted ≤ i → (s.connection i).taken = 0 ∧ (s.connection i).outbound = []
  /-- The connection that is read is open. -/
  reading : s.reading = true → ∃ i, i + 1 = s.accepted ∧
    (recvLoop N ((s.connection i).arrived.take (s.connection i).taken)).2 = true
  ended : ∀ i < s.accepted, (s.reading = true ∧ i + 1 = s.accepted) ∨ (s.connection i).Over N

variable {s t : IPCServer ν} {i : ℕ} {f : Connection ν → Connection ν}

theorem inv_init : Inv N (init : IPCServer ν) where
  made := le_rfl
  client i := by simp [init]
  received := rfl
  sent := rfl
  taken _ := le_rfl
  waiting _ _ := ⟨rfl, rfl⟩
  reading := nofun
  ended _ h := absurd h (Nat.not_lt_zero _)

theorem connection_change (s : IPCServer ν) (i j : ℕ) (f : Connection ν → Connection ν) :
    (s.change i f).connection j = if j = i then f (s.connection i) else s.connection j := by
  simp only [change, Function.update_apply]

/-- What does not change on one connection does not change over all of them. -/
theorem flatMap_change {β : Type} {g : Connection ν → List β}
    (h : g (f (s.connection i)) = g (s.connection i)) (n : ℕ) :
    ((List.range n).flatMap fun j => g ((s.change i f).connection j)) =
      (List.range n).flatMap fun j => g (s.connection j) := by
  congr 1
  funext j
  rw [connection_change]
  split
  next hji => rw [h, hji]
  · rfl

/-- What is added on the last connection is added at the end. -/
theorem flatMap_change_last {β : Type} {g : Connection ν → List β} {more : List β}
    (h : g (f (s.connection i)) = g (s.connection i) ++ more) :
    ((List.range (i + 1)).flatMap fun j => g ((s.change i f).connection j)) =
      ((List.range (i + 1)).flatMap fun j => g (s.connection j)) ++ more := by
  have hbefore : ((List.range i).map fun j => g ((s.change i f).connection j)) =
      (List.range i).map fun j => g (s.connection j) := by
    refine List.map_congr_left fun j hj => ?_
    rw [connection_change, if_neg (List.mem_range.mp hj).ne]
  rw [List.range_succ, List.flatMap_append, List.flatMap_append, List.flatMap_singleton,
    List.flatMap_singleton, List.flatMap_def, hbefore, ← List.flatMap_def, connection_change,
    if_pos rfl, h, List.append_assoc]

/-- A connection goes on. -/
theorem Inv.change (h : s.Inv N) (hext : (s.connection i).Extends N (f (s.connection i)))
    (htaken : (f (s.connection i)).taken ≤ (f (s.connection i)).arrived.length) :
    (s.change i f).Inv N where
  made := h.made
  client := h.client
  received := h.received.trans (flatMap_change hext.heard _).symm
  sent := h.sent.trans (flatMap_change hext.outbound _).symm
  taken j := by
    rw [connection_change]
    split
    · exact htaken
    · exact h.taken j
  waiting j hj := by
    rw [connection_change]
    split
    next hji =>
      obtain ⟨hzero, hnone⟩ := h.waiting j hj
      rw [hji] at hzero hnone
      exact ⟨hext.taken.trans hzero, hext.outbound.trans hnone⟩
    · exact h.waiting j hj
  reading hreading := by
    obtain ⟨j, hj, hopen⟩ := h.reading hreading
    refine ⟨j, hj, ?_⟩
    rw [connection_change]
    split
    next hji => rwa [hext.take, ← hji]
    · exact hopen
  ended j hj := by
    refine (h.ended j hj).imp id fun hover => ?_
    rw [connection_change]
    split
    next hji => exact hext.ended (hji ▸ hover)
    · exact hover

/-! ## One step -/

theorem inv_arrive (h : s.Inv N) {data : Text} (hopen : (s.connection i).hungUp = false) :
    (s.change i fun c => { c with arrived := c.arrived ++ [data] }).Inv N := by
  refine h.change (Connection.extends_arrive hopen (h.taken i)) ?_
  rw [List.length_append]
  exact (h.taken i).trans (Nat.le_add_right _ _)

theorem inv_hangUp (h : s.Inv N) : (s.change i fun c => { c with hungUp := true }).Inv N :=
  h.change Connection.extends_hangUp (h.taken i)

/-- **The next connection** is accepted when the one before it is over. -/
theorem inv_accept (h : s.Inv N) (hidle : s.reading = false) (hmade : s.accepted < s.made) :
    Inv N { s with
      accepted := s.accepted + 1
      clientSock := some s.accepted
      reading := true } := by
  obtain ⟨hzero, hnone⟩ := h.waiting s.accepted le_rfl
  have hheard : (s.connection s.accepted).heard N = [] := by
    rw [Connection.heard, hzero, List.take_zero]
    rfl
  refine { made := hmade, client := fun i => ?_, received := ?_, sent := ?_, taken := h.taken,
           waiting := fun i hi => h.waiting i (Nat.le_of_succ_le hi), reading := fun _ => ?_,
           ended := fun i hi => ?_ }
  · constructor
    · intro heq
      rw [Option.some.inj heq]
    · intro heq
      rw [Nat.succ.inj heq]
  · rw [List.range_succ, List.flatMap_append, List.flatMap_singleton, hheard, List.append_nil]
    exact h.received
  · rw [List.range_succ, List.flatMap_append, List.flatMap_singleton, hnone, List.append_nil]
    exact h.sent
  · refine ⟨s.accepted, rfl, ?_⟩
    rw [hzero, List.take_zero]
    rfl
  · rcases Nat.lt_succ_iff_lt_or_eq.mp hi with hold | rfl
    · rcases h.ended i hold with ⟨hreading, -⟩ | hover
      · rw [hidle] at hreading
        cases hreading
      · exact .inr hover
    · exact .inl ⟨rfl, rfl⟩

/-- The connection that is read has been left. -/
theorem Inv.leave (h : s.Inv N) (hi : i + 1 = s.accepted) (hover : (s.connection i).Over N) :
    Inv N { s with reading := false } where
  made := h.made
  client := h.client
  received := h.received
  sent := h.sent
  taken := h.taken
  waiting := h.waiting
  reading := nofun
  ended j hj := by
    rcases h.ended j hj with ⟨-, hlast⟩ | hother
    · obtain rfl : j = i := by omega
      exact .inr hover
    · exact .inr hother

/-- The next chunk: the loop goes on if it has a message. -/
theorem receive_of_arrived {data : Text} (hreading : s.reading = true)
    (hdata : (s.connection i).arrived[(s.connection i).taken]? = some data) :
    s.receive N i = some { s.change i (fun c => { c with taken := c.taken + 1 }) with
      received := s.received ++ (recvJson N data).toList
      reading := (recvJson N data).isSome } := by
  simp only [receive, hdata]
  cases recvJson N data with
  | none => simp [IPCServer.change]
  | some obj => simp [IPCServer.change, hreading]

/-- A chunk is received from the connection that is read. -/
theorem inv_received (h : s.Inv N) (hi : i + 1 = s.accepted)
    (hopen : (recvLoop N ((s.connection i).arrived.take (s.connection i).taken)).2 = true)
    {data : Text} (hdata : (s.connection i).arrived[(s.connection i).taken]? = some data) :
    Inv N { s.change i (fun c => { c with taken := c.taken + 1 }) with
      received := s.received ++ (recvJson N data).toList
      reading := (recvJson N data).isSome } := by
  let take (c : Connection ν) : Connection ν := { c with taken := c.taken + 1 }
  have hself : (s.change i take).connection i = take (s.connection i) := by
    rw [connection_change, if_pos rfl]
  have hnext : recvLoop N (((s.change i take).connection i).arrived.take
      ((s.change i take).connection i).taken) =
        ((s.connection i).heard N ++ (recvJson N data).toList, (recvJson N data).isSome) := by
    rw [hself]
    exact Connection.recvLoop_take_succ hopen hdata
  refine { made := h.made, client := h.client, received := ?_, sent := ?_, taken := fun j => ?_,
           waiting := fun j hj => ?_, reading := fun hsome => ⟨i, hi, ?_⟩, ended := fun j hj => ?_ }
  · have hheard : (take (s.connection i)).heard N =
        (s.connection i).heard N ++ (recvJson N data).toList := by
      rw [← hself]
      exact congrArg Prod.fst hnext
    change s.received ++ (recvJson N data).toList =
      (List.range s.accepted).flatMap fun j => ((s.change i take).connection j).heard N
    rw [← hi, flatMap_change_last (g := Connection.heard N) hheard, hi, ← h.received]
  · exact h.sent.trans (flatMap_change (f := take) (g := Connection.outbound) rfl _).symm
  · obtain ⟨hlt, -⟩ := List.getElem?_eq_some_iff.mp hdata
    rw [connection_change]
    split
    · exact hlt
    · exact h.taken j
  · have hwaits : s.accepted ≤ j := hj
    rw [connection_change, if_neg (by omega)]
    exact h.waiting j hwaits
  · exact (congrArg Prod.snd hnext).trans hsome
  · by_cases hji : j = i
    · subst hji
      cases hvalue : (recvJson N data).isSome with
      | true => exact .inl ⟨rfl, hi⟩
      | false => exact .inr (.inr ((congrArg Prod.snd hnext).trans hvalue))
    · refine .inr ?_
      rw [connection_change, if_neg hji]
      refine (h.ended j hj).resolve_left fun hlast => hji ?_
      omega

/-- **One `recv_json`.** -/
theorem inv_receive (h : s.Inv N) (hi : i + 1 = s.accepted) (hreading : s.reading = true)
    (ht : s.receive N i = some t) : t.Inv N := by
  obtain ⟨j, hj, hopen⟩ := h.reading hreading
  obtain rfl : j = i := by omega
  cases hdata : (s.connection j).arrived[(s.connection j).taken]? with
  | none =>
      -- Nothing has arrived: the stream has ended, or `recv` blocks.
      simp only [receive, hdata, Option.ite_none_right_eq_some] at ht
      obtain ⟨hhung, heq⟩ := ht
      have hend := List.getElem?_eq_none_iff.mp hdata
      exact Option.some.inj heq ▸
        h.leave hj (.inl ⟨hhung, Nat.le_antisymm (h.taken j) hend⟩)
  | some data =>
      rw [receive_of_arrived hreading hdata] at ht
      exact Option.some.inj ht ▸ inv_received h hj hopen hdata

/-- What is sent goes to the connection that was accepted last. -/
theorem inv_send (h : s.Inv N) (hi : i + 1 = s.accepted) (obj : Value ν) :
    Inv N { s.change i (fun c => { c with outbound := c.outbound ++ [obj] }) with
      sent := s.sent ++ [obj] } := by
  let write (c : Connection ν) : Connection ν := { c with outbound := c.outbound ++ [obj] }
  refine { made := h.made, client := h.client, received := ?_, sent := ?_, taken := fun j => ?_,
           waiting := fun j hj => ?_, reading := fun hreading => ?_, ended := fun j hj => ?_ }
  · exact h.received.trans (flatMap_change (f := write) (g := Connection.heard N) rfl _).symm
  · change s.sent ++ [obj] =
      (List.range s.accepted).flatMap fun j => ((s.change i write).connection j).outbound
    rw [← hi, flatMap_change_last (f := write) (g := Connection.outbound) rfl, hi, ← h.sent]
  · rw [connection_change]
    split
    · exact h.taken i
    · exact h.taken j
  · have hwaits : s.accepted ≤ j := hj
    rw [connection_change, if_neg (by omega)]
    exact h.waiting j hwaits
  · obtain ⟨j, hj, hopen⟩ := h.reading hreading
    refine ⟨j, hj, ?_⟩
    rw [connection_change]
    split
    next hji => exact hji ▸ hopen
    · exact hopen
  · refine (h.ended j hj).imp id fun hover => ?_
    rw [connection_change]
    split
    next hji => exact hji ▸ hover
    · exact hover

theorem inv_step (h : s.Inv N) (l : ChannelLabel ν) (ht : s.step N l = some t) : t.Inv N := by
  cases l with
  | connect =>
      obtain rfl := Option.some.inj ht
      exact { h with made := h.made.trans (Nat.le_succ _) }
  | arrive i data =>
      simp only [step, Option.ite_none_right_eq_some] at ht
      obtain ⟨⟨-, hopen, -⟩, heq⟩ := ht
      exact Option.some.inj heq ▸ inv_arrive h hopen
  | hangUp i =>
      simp only [step, Option.ite_none_right_eq_some] at ht
      exact Option.some.inj ht.2 ▸ inv_hangUp h
  | accept =>
      simp only [step, Option.ite_none_right_eq_some] at ht
      obtain ⟨⟨hidle, hmade⟩, heq⟩ := ht
      exact Option.some.inj heq ▸ inv_accept h hidle hmade
  | recv =>
      simp only [step] at ht
      split at ht
      next i hclient =>
        rw [Option.ite_none_right_eq_some] at ht
        exact inv_receive h ((h.client i).mp hclient) ht.1 ht.2
      · cases ht
  | send obj =>
      simp only [step] at ht
      split at ht
      · exact Option.some.inj ht ▸ h
      next i hclient => exact Option.some.inj ht ▸ inv_send h ((h.client i).mp hclient) obj

/-! ## Runs -/

/-- The accept loop has left the connection. -/
def Done (s : IPCServer ν) (i : ℕ) : Prop :=
  i < s.accepted ∧ ¬ (s.reading = true ∧ i + 1 = s.accepted)

variable (N) in
/-- One worker after the other, both ways. -/
structure InTurn (s : IPCServer ν) : Prop where
  received : s.received = (List.range s.accepted).flatMap fun i => (s.connection i).heard N
  sent : s.sent = (List.range s.accepted).flatMap fun i => (s.connection i).outbound
  waiting : ∀ i, s.accepted ≤ i → (s.connection i).taken = 0 ∧ (s.connection i).outbound = []
  done : ∀ i, s.Done i → (s.connection i).heard N = (recvLoop N (s.connection i).arrived).1
  framed : ∀ i, s.Done i → ∀ msgs, OneFrameAChunk N msgs (s.connection i).arrived →
    (s.connection i).heard N = msgs.map Message.value

theorem Inv.inTurn (h : s.Inv N) : s.InTurn N := by
  have hdone : ∀ i, s.Done i →
      (s.connection i).heard N = (recvLoop N (s.connection i).arrived).1 :=
    fun i hi => ((h.ended i hi.1).resolve_left hi.2).heard_eq
  refine ⟨h.received, h.sent, h.waiting, hdone, fun i hi msgs hframes => ?_⟩
  have hdelivers : recvLoop N (s.connection i).arrived = (msgs.map Message.value, true) :=
    delivers_of_oneFrameAChunk N hframes
  rw [hdone i hi, hdelivers]

/-- **One worker after the other.**  In every run the supervisor has heard its workers in the
order in which they connected: of each that the accept loop has left, what the receive loop
makes of its whole stream, which is all it sent if every chunk was a frame; of the last, as
far as it has been read; of those that wait, nothing.  What it has sent went to them in the
same order. -/
theorem always_inTurn (N : Numbers ν) (labels : List (ChannelLabel ν)) :
    Always (step N) (InTurn N) init labels :=
  always_of_invariant (step N) labels inv_init (fun _ => Inv.inTurn)
    fun _ l _ h ht => inv_step h l ht

/-- The second worker is heard once the first has hung up; the first message was cut in two,
so that the second of the first worker is not heard. -/
example : (execute (step tokenNumbers) init
    [.connect, .accept, .connect, .arrive 1 (sendJson tokenNumbers heartbeat.value),
      .arrive 0 (sendJson tokenNumbers workerStarting.value), .recv, .arrive 0 ['{'], .recv,
      .arrive 0 (sendJson tokenNumbers heartbeat.value), .accept, .recv]).map
      (fun s => (s.received.map (dumps tokenNumbers), (s.connection 0).taken)) =
    some ([workerStarting.value, heartbeat.value].map (dumps tokenNumbers), 2) := by
  decide +kernel

end IPCServer

end Ipc
end AvaListener
