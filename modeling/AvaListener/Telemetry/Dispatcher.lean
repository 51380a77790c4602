import Mathlib.Algebra.BigOperators.Group.List.Basic
import Mathlib.Algebra.Ring.Nat
import AvaListener.Library.BoundedQueue
import AvaListener.Library.Runs

/-!
# The telemetry dispatcher

`TelemetryDispatcher` of `runtime/telemetry/events.py`: any number of threads emit events
into a bounded queue that one worker drains.  Where the queue is full, `emit` removes the
oldest event, tries again and counts a drop.

Every queue operation is a step of its own, and so are the reading and the writing of
`dropped_count`.  What happens between them is lost from the count: an event removed by an
emitter whose second try fails, one whose emitter finds the queue emptied, and one counted
by two emitters at once (`accountsFor_iff_lossesCounted`).
-/

namespace AvaListener
namespace Telemetry

open Library

def maxsize : ℕ := 1000

variable {Event : Type*}

/-! ## One call of `emit` -/

/-- What a call of `emit` does next. -/
inductive EmitPhase where
  /-- The first `put_nowait`. -/
  | put
  /-- `get_nowait`, after `Full`. -/
  | get
  /-- The second `put_nowait`. -/
  | reput
  /-- Read `dropped_count`. -/
  | load
  /-- Write it back, one more than what was read. -/
  | store (seen : ℕ)
  | returned
  deriving DecidableEq

structure TelemetryDispatcher (Event : Type*) where
  queue : BoundedQueue Event maxsize
  droppedCount : ℕ

namespace TelemetryDispatcher

def init : TelemetryDispatcher Event := ⟨.empty, 0⟩

/-- The next step of a call of `emit`.  An exception of the second try ends the call. -/
def advance (d : TelemetryDispatcher Event) (event : Event) :
    EmitPhase → TelemetryDispatcher Event × EmitPhase
  | .put =>
      match d.queue.putNowait event with
      | some queue => ({ d with queue := queue }, .returned)
      | none => (d, .get)
  | .get =>
      match d.queue.getNowait with
      | some (_, queue) => ({ d with queue := queue }, .reput)
      | none => (d, .returned)
  | .reput =>
      match d.queue.putNowait event with
      | some queue => ({ d with queue := queue }, .load)
      | none => (d, .returned)
  | .load => (d, .store d.droppedCount)
  | .store seen => ({ d with droppedCount := seen + 1 }, .returned)
  | .returned => (d, .returned)

end TelemetryDispatcher

/-- The events that a call holds in its hands: its own until it is in the queue, and the
one that it has removed until that is counted. -/
def EmitPhase.holds : EmitPhase → ℕ
  | .put => 1
  | .get => 1
  | .reput => 2
  | .load => 1
  | .store _ => 1
  | .returned => 0

/-- The events that the next step of a call drops. -/
def EmitPhase.drops (d : TelemetryDispatcher Event) : EmitPhase → ℕ
  | .get => if d.queue.qsize = 0 then 1 else 0
  | .reput => if d.queue.qsize = maxsize then 2 else 0
  | .store _ => 1
  | .put | .load | .returned => 0

/-- The next step of a call counts what it drops. -/
def EmitPhase.LossCounted (d : TelemetryDispatcher Event) : EmitPhase → Prop
  | .get => d.queue.qsize ≠ 0
  | .reput => d.queue.qsize ≠ maxsize
  | .store seen => seen = d.droppedCount
  | .put | .load | .returned => True

/-- **A step moves events** between the queue and the hands of the call, or drops them. -/
theorem advance_moves (d : TelemetryDispatcher Event) (event : Event) (p : EmitPhase) :
    (d.advance event p).1.queue.qsize + (d.advance event p).2.holds + p.drops d =
      d.queue.qsize + p.holds := by
  cases p with
  | put =>
      cases hput : d.queue.putNowait event with
      | none => simp [TelemetryDispatcher.advance, hput, EmitPhase.holds, EmitPhase.drops]
      | some queue =>
          have hsize := BoundedQueue.qsize_of_putNowait hput
          simp [TelemetryDispatcher.advance, hput, EmitPhase.holds, EmitPhase.drops, hsize]
  | get =>
      cases hget : d.queue.getNowait with
      | none =>
          have hempty := BoundedQueue.getNowait_eq_none_iff.mp hget
          simp [TelemetryDispatcher.advance, hget, EmitPhase.holds, EmitPhase.drops, hempty]
      | some taken =>
          obtain ⟨oldest, queue⟩ := taken
          have hsize := BoundedQueue.qsize_of_getNowait hget
          have hnonempty : d.queue.qsize ≠ 0 := by omega
          simp only [TelemetryDispatcher.advance, hget, EmitPhase.holds, EmitPhase.drops,
            hnonempty, if_false]
          omega
  | reput =>
      cases hput : d.queue.putNowait event with
      | none =>
          have hfull := BoundedQueue.putNowait_eq_none_iff.mp hput
          simp [TelemetryDispatcher.advance, hput, EmitPhase.holds, EmitPhase.drops, hfull]
      | some queue =>
          have hsize := BoundedQueue.qsize_of_putNowait hput
          have hroom : d.queue.qsize ≠ maxsize := by
            intro hfull
            rw [BoundedQueue.putNowait_eq_none_iff.mpr hfull] at hput
            cases hput
          simp only [TelemetryDispatcher.advance, hput, EmitPhase.holds, EmitPhase.drops,
            hroom, if_false]
          omega
  | load => rfl
  | store seen => rfl
  | returned => rfl

/-! ## Emitters and the worker -/

structure EmitCall (Event : Type*) where
  event : Event
  phase : EmitPhase

/-- The dispatcher, every call of `emit` so far, and the events that the worker has
taken. -/
structure TelemetryRun (Event : Type*) where
  dispatcher : TelemetryDispatcher Event
  calls : List (EmitCall Event)
  taken : List Event

/-- A thread calls `emit`, the `n`-th call takes its next step, or the worker takes an
event. -/
inductive TelemetryStep (Event : Type*) where
  | emit (event : Event)
  | advance (n : ℕ)
  | take

namespace TelemetryRun

def start : TelemetryRun Event := ⟨.init, [], []⟩

def step (s : TelemetryRun Event) : TelemetryStep Event → Option (TelemetryRun Event)
  | .emit event => some { s with calls := s.calls ++ [⟨event, .put⟩] }
  | .advance n =>
      match s.calls[n]? with
      | none => none
      | some call =>
          if call.phase = .returned then none
          else
            some { s with
              dispatcher := (s.dispatcher.advance call.event call.phase).1
              calls := s.calls.set n
                ⟨call.event, (s.dispatcher.advance call.event call.phase).2⟩ }
  | .take =>
      match s.dispatcher.queue.getNowait with
      | none => none
      | some (event, queue) =>
          some { s with dispatcher.queue := queue, taken := s.taken ++ [event] }

/-- How many events have been emitted. -/
def emitted (s : TelemetryRun Event) : ℕ := s.calls.length

/-- The events that calls under way hold. -/
def held (s : TelemetryRun Event) : ℕ := (s.calls.map (·.phase.holds)).sum

/-- The events that are not dropped: taken, queued or held. -/
def kept (s : TelemetryRun Event) : ℕ := s.taken.length + s.dispatcher.queue.qsize + s.held

def AllReturned (s : TelemetryRun Event) : Prop := ∀ call ∈ s.calls, call.phase = .returned

/-- The step counts every event that it drops. -/
def LossCounted (s : TelemetryRun Event) : TelemetryStep Event → Prop
  | .advance n => ∀ call ∈ s.calls[n]?, call.phase.LossCounted s.dispatcher
  | .emit _ | .take => True

variable {s t : TelemetryRun Event}

theorem held_eq_zero (h : s.AllReturned) : s.held = 0 := by
  refine List.sum_eq_zero ?_
  intro n hn
  obtain ⟨call, hcall, rfl⟩ := List.mem_map.mp hn
  rw [h call hcall]
  rfl

/-- One call's share of what is held. -/
theorem sum_map_set {α : Type*} (f : α → ℕ) {xs : List α} {n : ℕ} {a : α} (h : xs[n]? = some a)
    (b : α) : ((xs.set n b).map f).sum + f a = (xs.map f).sum + f b := by
  induction xs generalizing n with
  | nil => cases h
  | cons x xs ih =>
      cases n with
      | zero =>
          obtain rfl := Option.some.inj h
          simp only [List.set_cons_zero, List.map_cons, List.sum_cons]
          omega
      | succ n =>
          have hrest := ih (n := n) (by simpa using h)
          simp only [List.set_cons_succ, List.map_cons, List.sum_cons]
          omega

theorem step_advance (hstep : s.step (.advance n) = some t) :
    ∃ call, s.calls[n]? = some call ∧
      t = { s with
        dispatcher := (s.dispatcher.advance call.event call.phase).1
        calls := s.calls.set n
          ⟨call.event, (s.dispatcher.advance call.event call.phase).2⟩ } := by
  rw [step] at hstep
  split at hstep
  · cases hstep
  next call hcall =>
    split at hstep
    · cases hstep
    · exact ⟨call, hcall, (Option.some.inj hstep).symm⟩

/-! ## Accounts -/

/-- At least `k` dropped events are not counted, and no call that is about to write the
count will make up for them. -/
structure Behind (k : ℕ) (s : TelemetryRun Event) : Prop where
  total : s.kept + s.dispatcher.droppedCount + k ≤ s.emitted
  seen : ∀ call ∈ s.calls, ∀ n, call.phase = .store n → s.kept + n + k ≤ s.emitted

/-- Every dropped event is counted: what is kept and what is counted make up what was
emitted. -/
structure Balanced (s : TelemetryRun Event) : Prop where
  behind : s.Behind 0
  total : s.kept + s.dispatcher.droppedCount = s.emitted

theorem balanced_start : (start : TelemetryRun Event).Balanced where
  behind := ⟨Nat.le_refl _, fun call hcall => by cases hcall⟩
  total := rfl

/-- What a step writes to the count, and what it leaves there. -/
theorem droppedCount_advance (d : TelemetryDispatcher Event) (event : Event) (p : EmitPhase) :
    (∃ n, p = .store n ∧ (d.advance event p).1.droppedCount = n + 1) ∨
      ((∀ n, p ≠ .store n) ∧ (d.advance event p).1.droppedCount = d.droppedCount) := by
  cases p with
  | put =>
      refine .inr ⟨nofun, ?_⟩
      simp only [TelemetryDispatcher.advance]
      split <;> rfl
  | get =>
      refine .inr ⟨nofun, ?_⟩
      simp only [TelemetryDispatcher.advance]
      split <;> rfl
  | reput =>
      refine .inr ⟨nofun, ?_⟩
      simp only [TelemetryDispatcher.advance]
      split <;> rfl
  | load => exact .inr ⟨nofun, rfl⟩
  | store seen => exact .inl ⟨seen, rfl, rfl⟩
  | returned => exact .inr ⟨nofun, rfl⟩

/-- A call that is about to write has just read the count. -/
theorem store_of_advance {d : TelemetryDispatcher Event} {event : Event} {p : EmitPhase} {n : ℕ}
    (h : (d.advance event p).2 = .store n) : p = .load ∧ n = d.droppedCount := by
  cases p with
  | load =>
      cases h
      exact ⟨rfl, rfl⟩
  | put | get | reput =>
      simp only [TelemetryDispatcher.advance] at h
      split at h
      · cases h
      · cases h
  | store seen => cases h
  | returned => cases h

/-- What a step of a call does to the accounts and to the calls under way. -/
structure AdvanceEffect (s t : TelemetryRun Event) (call : EmitCall Event) : Prop where
  emitted : t.emitted = s.emitted
  kept : t.kept + call.phase.drops s.dispatcher = s.kept
  mem : call ∈ s.calls
  count : (∃ n, call.phase = .store n ∧ t.dispatcher.droppedCount = n + 1) ∨
    ((∀ n, call.phase ≠ .store n) ∧ t.dispatcher.droppedCount = s.dispatcher.droppedCount)
  seen : ∀ other ∈ t.calls, ∀ n, other.phase = .store n →
    other ∈ s.calls ∨ (call.phase = .load ∧ n = s.dispatcher.droppedCount)

theorem advance_effect {n : ℕ} (hstep : s.step (.advance n) = some t) :
    ∃ call, s.calls[n]? = some call ∧ AdvanceEffect s t call := by
  obtain ⟨call, hcall, rfl⟩ := step_advance hstep
  refine ⟨call, hcall, by simp [emitted], ?_, List.mem_of_getElem? hcall,
    droppedCount_advance s.dispatcher call.event call.phase, ?_⟩
  · have hmoves := advance_moves s.dispatcher call.event call.phase
    have hheld := sum_map_set (fun c : EmitCall Event => c.phase.holds) hcall
      ⟨call.event, (s.dispatcher.advance call.event call.phase).2⟩
    dsimp only at hheld
    simp only [kept, held]
    omega
  · intro other hother m hstore
    rcases List.mem_or_eq_of_mem_set hother with hold | rfl
    · exact .inl hold
    · exact .inr (store_of_advance hstore)

/-- A new call holds its event. -/
theorem step_emit {event : Event} (hstep : s.step (.emit event) = some t) :
    t.emitted = s.emitted + 1 ∧ t.kept = s.kept + 1 ∧ t.dispatcher = s.dispatcher ∧
      t.calls = s.calls ++ [⟨event, .put⟩] := by
  obtain rfl := Option.some.inj hstep
  refine ⟨by simp [emitted], ?_, rfl, rfl⟩
  simp only [kept, held, List.map_append, List.sum_append, List.map_singleton,
    List.sum_singleton, EmitPhase.holds]
  omega

/-- What the worker takes was in the queue. -/
theorem step_take (hstep : s.step .take = some t) :
    t.emitted = s.emitted ∧ t.kept = s.kept ∧
      t.dispatcher.droppedCount = s.dispatcher.droppedCount ∧ t.calls = s.calls := by
  rw [step] at hstep
  split at hstep
  · cases hstep
  next event queue hget =>
    obtain rfl := Option.some.inj hstep
    have hsize := BoundedQueue.qsize_of_getNowait hget
    refine ⟨rfl, ?_, rfl, rfl⟩
    simp only [kept, held, List.length_append, List.length_singleton]
    omega

theorem drops_eq_zero_iff {d : TelemetryDispatcher Event} {p : EmitPhase}
    (h : ∀ n, p ≠ .store n) : p.drops d = 0 ↔ p.LossCounted d := by
  cases p with
  | get => simp [EmitPhase.drops, EmitPhase.LossCounted]
  | reput => simp [EmitPhase.drops, EmitPhase.LossCounted]
  | store seen => exact absurd rfl (h seen)
  | put | load | returned => exact iff_of_true rfl trivial

/-- What a call writes was true when it read it, so no write catches up. -/
theorem AdvanceEffect.behind {call : EmitCall Event} {k : ℕ} (h : AdvanceEffect s t call)
    (hs : s.Behind k) : t.Behind k := by
  have hkept := h.kept
  have hemitted := h.emitted
  have htotal := hs.total
  refine ⟨?_, ?_⟩
  · rcases h.count with ⟨n, hphase, hcount⟩ | ⟨hphase, hcount⟩
    · have hseen := hs.seen call h.mem n hphase
      rw [hphase] at hkept
      simp only [EmitPhase.drops] at hkept
      omega
    · omega
  · intro other hother n hstore
    rcases h.seen other hother n hstore with hold | ⟨-, hread⟩
    · have hseen := hs.seen other hold n hstore
      omega
    · omega

/-- **A step** that counts what it drops keeps the balance. -/
theorem AdvanceEffect.balanced {call : EmitCall Event} (h : AdvanceEffect s t call)
    (hs : s.Balanced) (hcounted : call.phase.LossCounted s.dispatcher) : t.Balanced := by
  refine ⟨h.behind hs.behind, ?_⟩
  have hkept := h.kept
  have hemitted := h.emitted
  have htotal := hs.total
  rcases h.count with ⟨n, hphase, hcount⟩ | ⟨hphase, hcount⟩
  · rw [hphase] at hcounted hkept
    have hcurrent : n = s.dispatcher.droppedCount := hcounted
    simp only [EmitPhase.drops] at hkept
    omega
  · have hnone := (drops_eq_zero_iff hphase).mpr hcounted
    omega

/-- One that does not leaves the count behind. -/
theorem AdvanceEffect.behind_one {call : EmitCall Event} (h : AdvanceEffect s t call)
    (hs : s.Balanced) (huncounted : ¬ call.phase.LossCounted s.dispatcher) : t.Behind 1 := by
  have hkept := h.kept
  have hemitted := h.emitted
  have htotal := hs.total
  have hdrops : 0 < call.phase.drops s.dispatcher := by
    rcases h.count with ⟨n, hphase, -⟩ | ⟨hphase, -⟩
    · rw [hphase]
      exact Nat.one_pos
    · exact Nat.pos_of_ne_zero (mt (drops_eq_zero_iff hphase).mp huncounted)
  refine ⟨?_, ?_⟩
  · rcases h.count with ⟨n, hphase, hcount⟩ | ⟨hphase, hcount⟩
    · -- The count that was read is out of date, so it was too low.
      have hseen := hs.behind.seen call h.mem n hphase
      rw [hphase] at huncounted hkept
      have hstale : n ≠ s.dispatcher.droppedCount := huncounted
      simp only [EmitPhase.drops] at hkept
      omega
    · omega
  · intro other hother n hstore
    rcases h.seen other hother n hstore with hold | ⟨hload, -⟩
    · have hseen := hs.behind.seen other hold n hstore
      omega
    · rw [hload] at huncounted
      exact absurd trivial huncounted

/-- A new call has read no count. -/
theorem mem_of_store {event : Event} {other : EmitCall Event} {n : ℕ}
    (hother : other ∈ s.calls ++ [⟨event, .put⟩]) (hstore : other.phase = .store n) :
    other ∈ s.calls := by
  rcases List.mem_append.mp hother with hold | hnew
  · exact hold
  · obtain rfl := List.mem_singleton.mp hnew
    cases hstore

theorem behind_step {k : ℕ} (hs : s.Behind k) (l : TelemetryStep Event)
    (hstep : s.step l = some t) : t.Behind k := by
  have htotal := hs.total
  cases l with
  | emit event =>
      obtain ⟨hemitted, hkept, hdispatcher, hcalls⟩ := step_emit hstep
      refine ⟨by rw [hdispatcher]; omega, ?_⟩
      rw [hcalls]
      intro other hother n hstore
      have hseen := hs.seen other (mem_of_store hother hstore) n hstore
      omega
  | advance n =>
      obtain ⟨call, -, heffect⟩ := advance_effect hstep
      exact heffect.behind hs
  | take =>
      obtain ⟨hemitted, hkept, hcount, hcalls⟩ := step_take hstep
      refine ⟨by omega, ?_⟩
      rw [hcalls, hkept, hemitted]
      exact hs.seen

theorem balanced_step (hs : s.Balanced) {l : TelemetryStep Event} (hcounted : s.LossCounted l)
    (hstep : s.step l = some t) : t.Balanced := by
  have htotal := hs.total
  cases l with
  | emit event =>
      obtain ⟨hemitted, hkept, hdispatcher, -⟩ := step_emit hstep
      exact ⟨behind_step hs.behind _ hstep, by rw [hdispatcher]; omega⟩
  | advance n =>
      obtain ⟨call, hcall, heffect⟩ := advance_effect hstep
      exact heffect.balanced hs (hcounted call hcall)
  | take =>
      obtain ⟨hemitted, hkept, hcount, -⟩ := step_take hstep
      exact ⟨behind_step hs.behind _ hstep, by omega⟩

theorem behind_of_uncounted (hs : s.Balanced) {l : TelemetryStep Event}
    (huncounted : ¬ s.LossCounted l) (hstep : s.step l = some t) : t.Behind 1 := by
  cases l with
  | emit event => exact absurd trivial huncounted
  | advance n =>
      obtain ⟨call, hcall, heffect⟩ := advance_effect hstep
      refine heffect.behind_one hs fun hcounted => huncounted ?_
      intro other hother
      obtain rfl : call = other := Option.some.inj (hcall.symm.trans hother)
      exact hcounted
  | take => exact absurd trivial huncounted

/-! ## Runs -/

/-- Every event is accounted for: emitted are those taken, queued and dropped. -/
def AccountsFor (s : TelemetryRun Event) : Prop :=
  s.emitted = s.taken.length + s.dispatcher.queue.qsize + s.dispatcher.droppedCount

/-- **The count of drops is right**, once all calls have returned, exactly if every step
has counted what it dropped. -/
theorem accountsFor_iff_lossesCounted {steps : List (TelemetryStep Event)}
    {u : TelemetryRun Event} (hrun : execute step start steps = some u)
    (hreturned : u.AllReturned) :
    u.AccountsFor ↔ MeetsAlong step LossCounted start steps := by
  have hkept : u.kept = u.taken.length + u.dispatcher.queue.qsize := by
    rw [kept, held_eq_zero hreturned, Nat.add_zero]
  constructor
  · intro haccounts
    refine meetsAlong_of_unharmed step Balanced (Behind 1) balanced_start
      (fun _ _ _ hs hcounted hstep => balanced_step hs hcounted hstep)
      (fun _ _ _ hs huncounted hstep => behind_of_uncounted hs huncounted hstep)
      (fun _ l _ hs hstep => behind_step hs l hstep) hrun ?_
    intro hbehind
    have hlt := hbehind.total
    rw [hkept, haccounts] at hlt
    exact Nat.lt_irrefl _ hlt
  · intro hmeets
    have hbalanced : u.Balanced := always_final step (always_of_meetsAlong step balanced_start
      (fun _ h => h) (fun _ _ _ hs hcounted hstep => balanced_step hs hcounted hstep) hmeets) hrun
    rw [AccountsFor, ← hkept, hbalanced.total]

/-! ## Emitters at a full queue -/

theorem step_advance_middle (d : TelemetryDispatcher Event) (before rest : List (EmitCall Event))
    (event : Event) {p : EmitPhase} (taken : List Event) (hlive : p ≠ .returned) :
    step ⟨d, before ++ ⟨event, p⟩ :: rest, taken⟩ (.advance before.length) =
      some ⟨(d.advance event p).1, before ++ ⟨event, (d.advance event p).2⟩ :: rest, taken⟩ := by
  simp [step, hlive]

/-- An emitter that finds room. -/
theorem execute_emit {d : TelemetryDispatcher Event} {queue : BoundedQueue Event maxsize}
    {event : Event} (hput : d.queue.putNowait event = some queue) (calls : List (EmitCall Event))
    (taken : List Event) :
    execute step ⟨d, calls, taken⟩ [.emit event, .advance calls.length] =
      some ⟨{ d with queue := queue }, calls ++ [⟨event, .returned⟩], taken⟩ := by
  have hadvance := step_advance_middle d calls [] event (p := .put) taken nofun
  simp only [TelemetryDispatcher.advance, hput] at hadvance
  rw [execute_cons, step, Option.bind_some, execute_cons, hadvance]
  rfl

/-- Fill the queue with `n` events. -/
def fill (event : Event) : ℕ → List (TelemetryStep Event)
  | 0 => []
  | n + 1 => fill event n ++ [.emit event, .advance n]

theorem execute_fill (event : Event) {n : ℕ} (hn : n ≤ maxsize) :
    ∃ queue : BoundedQueue Event maxsize, queue.qsize = n ∧
      execute step start (fill event n) =
        some ⟨⟨queue, 0⟩, List.replicate n ⟨event, .returned⟩, []⟩ := by
  induction n with
  | zero => exact ⟨.empty, rfl, rfl⟩
  | succ n ih =>
      obtain ⟨queue, hsize, hrun⟩ := ih (Nat.le_of_succ_le hn)
      obtain ⟨next, hput⟩ := BoundedQueue.exists_putNowait (hsize.trans_lt hn) event
      have hemit := execute_emit (d := ⟨queue, 0⟩) hput (List.replicate n ⟨event, .returned⟩) []
      rw [List.length_replicate, ← List.replicate_succ'] at hemit
      refine ⟨next, by rw [BoundedQueue.qsize_of_putNowait hput, hsize], ?_⟩
      rw [fill, execute_append step hrun, hemit]

/-- Call `n` removes an event, puts its own in the queue and counts the drop. -/
def countedDrop (event : Event) (n : ℕ) : List (TelemetryStep Event) :=
  [.emit event, .advance n, .advance n, .advance n, .advance n, .advance n]

/-- **One emitter at a full queue** drops the oldest event and counts it. -/
theorem execute_countedDrop {d : TelemetryDispatcher Event} (hfull : d.queue.qsize = maxsize)
    (calls : List (EmitCall Event)) (event : Event) (taken : List Event) :
    ∃ queue : BoundedQueue Event maxsize, queue.qsize = maxsize ∧
      execute step ⟨d, calls, taken⟩ (countedDrop event calls.length) =
        some ⟨⟨queue, d.droppedCount + 1⟩, calls ++ [⟨event, .returned⟩], taken⟩ := by
  have hblocked := (BoundedQueue.putNowait_eq_none_iff (a := event)).mpr hfull
  cases hget : d.queue.getNowait with
  | none =>
      have hempty := BoundedQueue.getNowait_eq_none_iff.mp hget
      rw [hfull] at hempty
      cases hempty
  | some removed =>
      obtain ⟨oldest, rest⟩ := removed
      have hrest := BoundedQueue.qsize_of_getNowait hget
      obtain ⟨queue, hput⟩ := BoundedQueue.exists_putNowait (q := rest) (by omega) event
      refine ⟨queue, by rw [BoundedQueue.qsize_of_putNowait hput, hrest, hfull], ?_⟩
      have hnext (d : TelemetryDispatcher Event) (p : EmitPhase) (hlive : p ≠ .returned) :=
        step_advance_middle d calls [] event taken hlive
      have hfirst := hnext d .put nofun
      have hremoved := hnext d .get nofun
      have hplaced := hnext { d with queue := rest } .reput nofun
      simp only [TelemetryDispatcher.advance, hblocked] at hfirst
      simp only [TelemetryDispatcher.advance, hget] at hremoved
      simp only [TelemetryDispatcher.advance, hput] at hplaced
      rw [countedDrop, execute_cons, step, Option.bind_some, execute_cons, hfirst,
        Option.bind_some, execute_cons, hremoved, Option.bind_some, execute_cons, hplaced,
        Option.bind_some, execute_cons, hnext _ .load nofun, Option.bind_some, execute_singleton]
      exact hnext _ (.store d.droppedCount) nofun

/-- A full queue of a thousand events and one emitter: of 1001 events a thousand are left,
and the count is right. -/
theorem countedDrop_accountsFor :
    ∃ u, execute step (start : TelemetryRun Unit) (fill () maxsize ++ countedDrop () maxsize) =
        some u ∧ u.emitted = maxsize + 1 ∧ u.dispatcher.droppedCount = 1 ∧ u.AccountsFor ∧
      MeetsAlong step LossCounted (start : TelemetryRun Unit)
        (fill () maxsize ++ countedDrop () maxsize) := by
  obtain ⟨queue, hsize, hfill⟩ := execute_fill () (Nat.le_refl maxsize)
  obtain ⟨left, hleft, hdrop⟩ := execute_countedDrop (d := ⟨queue, 0⟩) hsize
    (List.replicate maxsize ⟨(), .returned⟩) () []
  rw [List.length_replicate] at hdrop
  have hrun := (execute_append step hfill _).trans hdrop
  obtain ⟨u, hu⟩ : ∃ u : TelemetryRun Unit, u = ⟨⟨left, 1⟩,
      List.replicate maxsize ⟨(), .returned⟩ ++ [⟨(), .returned⟩], []⟩ := ⟨_, rfl⟩
  rw [Nat.zero_add, ← hu] at hrun
  have hreturned : u.AllReturned := by
    rw [hu]
    intro call hcall
    rcases List.mem_append.mp hcall with hold | hnew
    · rw [List.eq_of_mem_replicate hold]
    · rw [List.mem_singleton.mp hnew]
  have haccounts : u.AccountsFor := by simp [hu, AccountsFor, emitted, hleft]
  have hemitted : u.emitted = maxsize + 1 := by simp [hu, emitted]
  refine ⟨u, hrun, hemitted, by rw [hu], haccounts, ?_⟩
  rwa [← accountsFor_iff_lossesCounted hrun hreturned]

/-- Call `n` removes an event, and the next call takes its place in the queue. -/
def crossedPair (event : Event) (n : ℕ) : List (TelemetryStep Event) :=
  [.emit event, .advance n, .advance n] ++ [.emit event, .advance (n + 1)] ++ [.advance n]

/-- **Two emitters at a full queue** lose two events, and count none. -/
theorem execute_crossedPair {d : TelemetryDispatcher Event} (hfull : d.queue.qsize = maxsize)
    (calls : List (EmitCall Event)) (event : Event) (taken : List Event) :
    ∃ queue : BoundedQueue Event maxsize, queue.qsize = maxsize ∧
      execute step ⟨d, calls, taken⟩ (crossedPair event calls.length) =
        some ⟨{ d with queue := queue }, calls ++ [⟨event, .returned⟩, ⟨event, .returned⟩],
          taken⟩ := by
  have hfirst := (BoundedQueue.putNowait_eq_none_iff (a := event)).mpr hfull
  cases hget : d.queue.getNowait with
  | none =>
      have hempty := BoundedQueue.getNowait_eq_none_iff.mp hget
      rw [hfull] at hempty
      cases hempty
  | some removed =>
      obtain ⟨oldest, rest⟩ := removed
      have hrest := BoundedQueue.qsize_of_getNowait hget
      obtain ⟨queue, hput⟩ := BoundedQueue.exists_putNowait (q := rest) (by omega) event
      have hqueue : queue.qsize = maxsize := by
        rw [BoundedQueue.qsize_of_putNowait hput, hrest, hfull]
      have hagain := (BoundedQueue.putNowait_eq_none_iff (a := event)).mpr hqueue
      refine ⟨queue, hqueue, ?_⟩
      have hblocked := step_advance_middle d calls [] event (p := .put) taken nofun
      simp only [TelemetryDispatcher.advance, hfirst] at hblocked
      have hremoved := step_advance_middle d calls [] event (p := .get) taken nofun
      simp only [TelemetryDispatcher.advance, hget] at hremoved
      have hmade : execute step ⟨d, calls, taken⟩
          [.emit event, .advance calls.length, .advance calls.length] =
            some ⟨{ d with queue := rest }, calls ++ [⟨event, .reput⟩], taken⟩ := by
        rw [execute_cons, step, Option.bind_some, execute_cons, hblocked, Option.bind_some,
          execute_cons, hremoved]
        rfl
      have htaken := execute_emit (d := { d with queue := rest }) hput
        (calls ++ [⟨event, .reput⟩]) taken
      rw [List.length_append, List.length_singleton, List.append_assoc] at htaken
      have hlost := step_advance_middle { d with queue := queue } calls [⟨event, .returned⟩] event
        (p := .reput) taken nofun
      simp only [TelemetryDispatcher.advance, hagain] at hlost
      rw [crossedPair, execute_append step ((execute_append step hmade _).trans htaken),
        execute_cons]
      exact congrArg (Option.bind · _) hlost

/-- A full queue of a thousand events, and two emitters: 1002 events are emitted and a
thousand are left, with no drop counted. -/
theorem accountsFor_fails :
    ∃ u, execute step (start : TelemetryRun Unit) (fill () maxsize ++ crossedPair () maxsize) =
        some u ∧ u.AllReturned ∧ ¬ u.AccountsFor := by
  obtain ⟨queue, hsize, hfill⟩ := execute_fill () (Nat.le_refl maxsize)
  obtain ⟨left, hleft, hpair⟩ := execute_crossedPair (d := ⟨queue, 0⟩) hsize
    (List.replicate maxsize ⟨(), .returned⟩) () []
  rw [List.length_replicate] at hpair
  refine ⟨_, (execute_append step hfill _).trans hpair, ?_, ?_⟩
  · intro call hcall
    rcases List.mem_append.mp hcall with hold | hnew
    · rw [List.eq_of_mem_replicate hold]
    · simp only [List.mem_cons, List.not_mem_nil, or_false, or_self] at hnew
      rw [hnew]
  · simp [AccountsFor, emitted, hleft]

end TelemetryRun

end Telemetry
end AvaListener
