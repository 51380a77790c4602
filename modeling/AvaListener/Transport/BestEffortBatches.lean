import AvaListener.Transport.FireAndForget

/-!
# Batches of best-effort messages

`_add_to_batch` and `_batch_loop` of `runtime/transport/websocket_server.py` take batches
from the same list: the one when it has ten messages, the other every 100 ms whatever it
has.  Both put a fresh list in its place before anything is awaited, so a batch message
keeps its events while it is sent.

The log beside the server says which messages the callbacks have appended and which batch
messages were built, in order.
-/

namespace AvaListener
namespace Transport

open Library

variable {π : Type}

/-- The best-effort message that the label's callback appends to the batch. -/
def Label.accepts : Label π → Option (OutMsg π)
  | .broadcast obj created uuid _ _ =>
      if (outMsg obj created uuid).type ∈ bestEffort then some (outMsg obj created uuid) else none
  | _ => none

namespace WSServer

/-- The `batch_msg` that the label builds. -/
def forms (s : WSServer π) : Label π → Option (Outgoing π)
  | .broadcast obj created uuid now batchId =>
      if (outMsg obj created uuid).type ∈ bestEffort then
        (s.store.addToBatch (outMsg obj created uuid)).2.map (Outgoing.batch batchId now)
      else none
  | .batchTick now batchId _ =>
      if s.store.bestEffortBatch = [] then none
      else some (.batch batchId now s.store.bestEffortBatch)
  | _ => none

variable {s t : WSServer π} {l : Label π}

/-- **One step** moves messages from the batch to the batch message and loses none. -/
theorem batch_step (h : s.step l = some t) :
    s.store.bestEffortBatch ++ l.accepts.toList =
      (s.forms l).toList.flatMap Outgoing.events ++ t.store.bestEffortBatch := by
  rw [bestEffortBatch_eq_batchAfter h]
  cases l with
  | broadcast obj created uuid now batchId =>
      simp only [Label.accepts, forms, batchAfter]
      split
      · unfold Reliability.addToBatch
        split
        · simp [Outgoing.events]
        · simp
      · simp
  | batchTick now batchId pick =>
      simp only [Label.accepts, forms, batchAfter]
      split
      next hempty => simp [hempty]
      next hsome => simp [Outgoing.events]
  | _ => exact List.append_nil _

/-- A batch is taken before it has eleven messages, and never an empty one. -/
theorem size_step (h : s.step l = some t) (hsize : s.store.bestEffortBatch.length < 10) :
    t.store.bestEffortBatch.length < 10 ∧
      ∀ o ∈ s.forms l, 1 ≤ o.events.length ∧ o.events.length ≤ 10 := by
  have hnone : ∀ o ∈ (none : Option (Outgoing π)), 1 ≤ o.events.length ∧ o.events.length ≤ 10 :=
    fun o ho => absurd ho (Option.not_mem_none o)
  rw [bestEffortBatch_eq_batchAfter h]
  cases l with
  | broadcast obj created uuid now batchId =>
      simp only [forms, batchAfter]
      split
      · unfold Reliability.addToBatch
        split
        next hfull =>
          -- At most nine were waiting, so the batch has ten.
          rw [List.length_append, List.length_singleton] at hfull
          refine ⟨Nat.zero_lt_succ 9, ?_⟩
          rintro _ ⟨⟩
          simp only [Outgoing.events, List.length_append, List.length_singleton]
          omega
        next hroom =>
          rw [not_le] at hroom
          exact ⟨hroom, hnone⟩
      · exact ⟨hsize, hnone⟩
  | batchTick now batchId pick =>
      refine ⟨Nat.zero_lt_succ 9, ?_⟩
      simp only [forms]
      split
      · exact hnone
      next hsome =>
        rintro _ ⟨⟩
        exact ⟨List.length_pos_iff.mpr hsome, hsize.le⟩
  | _ => exact ⟨hsize, hnone⟩

/-- The batch message goes to a task of its own or is the one the batch loop sends; with no
client connected the batch loop drops it. -/
theorem forms_handedOn {o : Outgoing π} (h : s.step l = some t) (ho : s.forms l = some o) :
    t.tasks = s.tasks ++ [o] ∨ t.clients = ∅ ∨
      ∃ f ∈ t.sending, f.caller = .batchLoop ∧ f.msg = o := by
  have heffect := step_effect h
  cases l with
  | broadcast obj created uuid now batchId =>
      simp only [forms] at ho
      split at ho
      next hbest =>
        refine .inl ?_
        rw [heffect.tasks, tasksAfter, if_pos hbest, ho, Option.toList_some]
      · cases ho
  | batchTick now batchId pick =>
      simp only [forms] at ho
      split at ho
      · cases ho
      next hsome =>
        obtain rfl := Option.some.inj ho
        refine .inr ?_
        by_cases hclients : s.clients = ∅
        · exact .inl ((heffect.same rfl).1.trans hclients)
        · refine .inr ⟨⟨.batchLoop, .batch batchId now s.store.bestEffortBatch, [],
            s.clients.card, s.edits, [pick], pick, []⟩, ?_, rfl, rfl⟩
          rw [heffect.sending, started, if_neg hsome, firstSend, if_neg hclients]
          exact List.mem_append_right _ (List.mem_singleton_self _)
  | _ => cases ho

end WSServer

/-! ## Runs -/

/-- A run of the server with its log. -/
structure BatchRun (π : Type) where
  server : WSServer π
  /-- The best-effort messages appended so far. -/
  accepted : List (OutMsg π)
  /-- The batch messages built so far. -/
  formed : List (Outgoing π)
  deriving DecidableEq

namespace BatchRun

def init : BatchRun π := ⟨WSServer.init, [], []⟩

def step (s : BatchRun π) (l : Label π) : Option (BatchRun π) :=
  (s.server.step l).map fun server =>
    { server := server
      accepted := s.accepted ++ l.accepts.toList
      formed := s.formed ++ (s.server.forms l).toList }

/-- Nothing is lost, doubled or reordered, and the batches have their sizes. -/
structure Partitioned (s : BatchRun π) : Prop where
  accepted : s.accepted = s.formed.flatMap Outgoing.events ++ s.server.store.bestEffortBatch
  sizes : ∀ o ∈ s.formed, 1 ≤ o.events.length ∧ o.events.length ≤ 10
  waiting : s.server.store.bestEffortBatch.length < 10

theorem partitioned_init : (init : BatchRun π).Partitioned where
  accepted := rfl
  sizes := nofun
  waiting := Nat.zero_lt_succ 9

theorem partitioned_step {s t : BatchRun π} {l : Label π} (h : s.Partitioned)
    (hstep : s.step l = some t) : t.Partitioned := by
  obtain ⟨server, hserver, rfl⟩ := Option.map_eq_some_iff.mp hstep
  obtain ⟨hwaiting, hnew⟩ := WSServer.size_step hserver h.waiting
  refine ⟨?_, ?_, hwaiting⟩
  · calc s.accepted ++ l.accepts.toList
        = s.formed.flatMap Outgoing.events ++
            (s.server.store.bestEffortBatch ++ l.accepts.toList) := by
          rw [h.accepted, List.append_assoc]
      _ = s.formed.flatMap Outgoing.events ++
            ((s.server.forms l).toList.flatMap Outgoing.events ++
              server.store.bestEffortBatch) := by
          rw [WSServer.batch_step hserver]
      _ = (s.formed ++ (s.server.forms l).toList).flatMap Outgoing.events ++
            server.store.bestEffortBatch := by
          rw [List.flatMap_append, List.append_assoc]
  · intro o ho
    rcases List.mem_append.mp ho with hold | hformed
    · exact h.sizes o hold
    · exact hnew o (Option.mem_toList.mp hformed)

/-- **Batching.**  Between any two callbacks the messages accepted are the events of the
batch messages built, in order, and then the current batch. -/
theorem always_partitioned (labels : List (Label π)) :
    Always step Partitioned (init : BatchRun π) labels :=
  always_of_invariant step labels partitioned_init (fun _ h => h)
    fun _ _ _ h hstep => partitioned_step h hstep

end BatchRun

end Transport
end AvaListener
