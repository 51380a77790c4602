import AvaListener.Library.Runs
import AvaListener.Sdk.Lifecycle
import AvaListener.Sdk.Transport

/-!
# What a reconnect restores

The life cycle with its listeners on the transport's events.  `recovering` is
emitted once for every attempt, and its listener remembers the current state each
time, so from the second attempt on the state remembered is `RECOVERING` itself.
-/

namespace AvaListener
namespace Sdk

open Library

structure Connection where
  lifecycle : Lifecycle
  transport : SdkTransport
  deriving DecidableEq

inductive ConnectionLabel where
  | transport (l : TransportLabel)
  | loadProfile (path : Text)
  | command (name : Text)
  deriving DecidableEq

/-- The step of the life cycle that listens to an event. -/
def TransportEvent.listener : TransportEvent → Option SdkStep
  | .connected => some .opened
  | .recovering _ _ => some .recovering
  | .reconnected _ => some .reconnected
  | .failed => some .reconnectFailed
  | .disconnected => none
  | .error => none

namespace Connection

/-- A call on the life cycle; one that throws changes nothing. -/
def call (c : Lifecycle) (l : SdkStep) : Lifecycle :=
  match c.step l with
  | none => c
  | some (next, _) => next

/-- The listeners of the emitted events, in order. -/
def notify (c : Lifecycle) (events : List TransportEvent) : Lifecycle :=
  (events.filterMap TransportEvent.listener).foldl call c

def step (c : Connection) : ConnectionLabel → Option Connection
  | .transport l =>
      (c.transport.step l).map fun answer => ⟨notify c.lifecycle answer.2, answer.1⟩
  | .loadProfile path => some { c with lifecycle := call c.lifecycle (.loadProfile path) }
  | .command name => some { c with lifecycle := call c.lifecycle (.command name) }

/-- The socket is open and the last series of attempts is over. -/
structure Established (c : Connection) : Prop where
  opened : c.transport.socket = some .opened
  attempts : c.transport.reconnectAttempts = 0
  timer : c.transport.reconnectTimer = none
  notStopped : c.transport.stopped = false

/-- What happens before an attempt succeeds: anything but an opened socket, another
first `connect` or a `close` of the transport. -/
def InOutage (l : ConnectionLabel) : Prop :=
  l ≠ .transport .opened ∧ l ≠ .transport .connect ∧ l ≠ .transport .close

/-- The socket of an attempt closes. -/
def AttemptFails (l : ConnectionLabel) : Prop := ∃ now, l = .transport (.closed now)

/-! ## The listeners -/

/-- Neither of the two calls gets through while the state is `RECOVERING`. -/
theorem call_of_recovering {c : Lifecycle} (hfsm : c.fsm = .recovering) :
    (∀ path, call c (.loadProfile path) = c) ∧ ∀ name, call c (.command name) = c := by
  have hinactive : ¬ c.fsm.isActive = true := by
    rw [hfsm]
    decide
  constructor
  · intro path
    simp only [call, Lifecycle.step, if_neg hinactive]
  · intro name
    simp only [call, Lifecycle.step, if_neg hinactive]

/-- The listener of `recovering`, in an active state and again in `RECOVERING`. -/
theorem call_recovering {c : Lifecycle} (h : c.fsm.isActive = true ∨ c.fsm = .recovering) :
    call c .recovering =
      { c with fsm := .recovering, isConnected := false, previousState := some c.fsm } := by
  rcases h with hactive | hrecovering
  · have hallowed : c.fsm.transition .recovering = some .recovering := by
      revert hactive
      cases c.fsm <;> decide
    simp only [call, Lifecycle.step, hactive, if_true, Lifecycle.enter, hallowed, Option.map_some]
  · have hinactive : ¬ c.fsm.isActive = true := by
      rw [hrecovering]
      decide
    simp only [call, Lifecycle.step, if_neg hinactive]
    rw [hrecovering]

/-- The listener of `reconnected`: back to `READY` first, then to `RUNNING` if that is
the state remembered. -/
theorem fsm_call_reconnected {c : Lifecycle} {remembered : SdkState}
    (hfsm : c.fsm = .recovering) (hremembered : c.previousState = some remembered) :
    (call c .reconnected).fsm =
      if c.startPaused = false ∧ remembered = .running then .running else .ready := by
  have hready : SdkState.transition .recovering .ready = some .ready := rfl
  have hrunning : SdkState.transition .ready .running = some .running := rfl
  simp only [call, Lifecycle.step, Lifecycle.enter, hfsm, if_true, hready, Option.map_some,
    Option.bind_some, hremembered, Option.some.injEq]
  by_cases hrestored : c.startPaused = false ∧ remembered = .running
  · rw [if_pos hrestored, if_pos hrestored, hrunning]
    rfl
  · rw [if_neg hrestored, if_neg hrestored]

/-! ## The outage -/

/-- The connection while an attempt is scheduled or under way: `remembered` is what the
last `recovering` event found. -/
structure Recovering (startPaused : Bool) (remembered : SdkState) (c : Connection) : Prop where
  fsm : c.lifecycle.fsm = .recovering
  startPaused : c.lifecycle.startPaused = startPaused
  remembered : c.lifecycle.previousState = some remembered
  notStopped : c.transport.stopped = false
  pending : (c.transport.socket = none ∧ c.transport.reconnectTimer ≠ none) ∨
    (c.transport.socket = some (.connecting true) ∧ c.transport.reconnectTimer = none)

/-- The last attempt has failed; nothing is scheduled any more. -/
structure Exhausted (c : Connection) : Prop where
  socket : c.transport.socket = none
  timer : c.transport.reconnectTimer = none

/-- A socket that closes leads to another attempt or, after the last one, to nothing. -/
theorem closed_cases {c u : Connection} {now : ℕ} (hsocket : c.transport.socket ≠ none)
    (htimer : c.transport.reconnectTimer = none) (hstopped : c.transport.stopped = false)
    (hfsm : c.lifecycle.fsm.isActive = true ∨ c.lifecycle.fsm = .recovering)
    (h : c.step (.transport (.closed now)) = some u) :
    (c.transport.reconnectAttempts < 5 ∧
        u.Recovering c.lifecycle.startPaused c.lifecycle.fsm) ∨
      (5 ≤ c.transport.reconnectAttempts ∧ u.Exhausted) := by
  obtain ⟨answer, hanswer, rfl⟩ := Option.map_eq_some_iff.mp h
  simp only [SdkTransport.step, if_neg hsocket, hstopped, Bool.false_eq_true, if_false,
    Option.some.injEq] at hanswer
  subst hanswer
  by_cases hleft : c.transport.reconnectAttempts < 5
  · refine .inl ⟨hleft, ?_⟩
    have hdelay : reconnectDelays[c.transport.reconnectAttempts]? =
        some reconnectDelays[c.transport.reconnectAttempts] := List.getElem?_eq_getElem hleft
    simp only [SdkTransport.scheduleReconnect, hdelay, notify, TransportEvent.listener,
      List.filterMap_cons, List.filterMap_nil, List.foldl_cons, List.foldl_nil,
      call_recovering hfsm]
    exact ⟨rfl, rfl, rfl, rfl, .inl ⟨rfl, nofun⟩⟩
  · refine .inr ⟨Nat.le_of_not_lt hleft, ?_⟩
    have hnone : reconnectDelays[c.transport.reconnectAttempts]? = none :=
      List.getElem?_eq_none (Nat.le_of_not_lt hleft)
    simp only [SdkTransport.scheduleReconnect, hnone]
    exact ⟨rfl, htimer⟩

/-- One step of an outage: a failed attempt makes the listener remember `RECOVERING`,
anything else leaves what it remembers. -/
theorem recovering_step {c u : Connection} {startPaused : Bool} {remembered : SdkState}
    {l : ConnectionLabel} (hc : c.Recovering startPaused remembered) (hl : InOutage l)
    (h : c.step l = some u) :
    (AttemptFails l ∧ (u.Recovering startPaused .recovering ∨ u.Exhausted)) ∨
      (¬ AttemptFails l ∧ u.Recovering startPaused remembered) := by
  cases l with
  | loadProfile path =>
      refine .inr ⟨nofun, ?_⟩
      obtain rfl := Option.some.inj h
      rw [(call_of_recovering hc.fsm).1 path]
      exact hc
  | command name =>
      refine .inr ⟨nofun, ?_⟩
      obtain rfl := Option.some.inj h
      rw [(call_of_recovering hc.fsm).2 name]
      exact hc
  | transport l =>
      cases l with
      | connect => exact absurd rfl hl.2.1
      | opened => exact absurd rfl hl.1
      | close => exact absurd rfl hl.2.2
      | closed now =>
          refine .inl ⟨⟨now, rfl⟩, ?_⟩
          rcases hc.pending with ⟨hnone, -⟩ | ⟨hconnecting, htimer⟩
          · simp [step, SdkTransport.step, hnone] at h
          · have hsocket : c.transport.socket ≠ none := by
              rw [hconnecting]
              nofun
            rcases closed_cases hsocket htimer hc.notStopped (.inr hc.fsm) h with
              ⟨-, hagain⟩ | ⟨-, hexhausted⟩
            · rw [hc.fsm, hc.startPaused] at hagain
              exact .inl hagain
            · exact .inr hexhausted
      | errored =>
          refine .inr ⟨nofun, ?_⟩
          simp only [step, SdkTransport.step] at h
          split at h
          · cases h
          · obtain rfl := Option.some.inj h
            exact hc
      | fire now =>
          refine .inr ⟨nofun, ?_⟩
          simp only [step, SdkTransport.step] at h
          split at h
          · cases h
          · split at h
            · obtain rfl := Option.some.inj h
              exact ⟨hc.fsm, hc.startPaused, hc.remembered, hc.notStopped, .inr ⟨rfl, rfl⟩⟩
            · cases h

/-- After the last attempt nothing happens to the transport. -/
theorem exhausted_step {c u : Connection} {l : ConnectionLabel} (hc : c.Exhausted)
    (hl : InOutage l) (h : c.step l = some u) : u.Exhausted := by
  cases l with
  | loadProfile path =>
      obtain rfl := Option.some.inj h
      exact ⟨hc.socket, hc.timer⟩
  | command name =>
      obtain rfl := Option.some.inj h
      exact ⟨hc.socket, hc.timer⟩
  | transport l =>
      cases l with
      | connect => exact absurd rfl hl.2.1
      | opened => exact absurd rfl hl.1
      | close => exact absurd rfl hl.2.2
      | closed now => simp [step, SdkTransport.step, hc.socket] at h
      | errored => simp [step, SdkTransport.step, hc.socket] at h
      | fire now => simp [step, SdkTransport.step, hc.timer] at h

/-- A whole outage: what is remembered at its end tells whether an attempt failed. -/
theorem recovering_run {c u : Connection} {startPaused : Bool} {remembered : SdkState}
    {middle : List ConnectionLabel} (hc : c.Recovering startPaused remembered)
    (hmiddle : ∀ l ∈ middle, InOutage l) (hrun : execute step c middle = some u) :
    u.Exhausted ∨ ∃ last, u.Recovering startPaused last ∧
      ((∃ l ∈ middle, AttemptFails l) → last = .recovering) ∧
      ((¬ ∃ l ∈ middle, AttemptFails l) → last = remembered) := by
  induction middle generalizing c remembered with
  | nil =>
      obtain rfl := Option.some.inj hrun
      exact .inr ⟨remembered, hc, by simp, fun _ => rfl⟩
  | cons l rest ih =>
      obtain ⟨d, hstep, hrest⟩ := execute_cons_eq_some step hrun
      have hlater : ∀ m ∈ rest, InOutage m := fun m hm => hmiddle m (List.mem_cons_of_mem _ hm)
      rcases recovering_step hc (hmiddle l (List.mem_cons_self ..)) hstep with
        ⟨hfails, hagain | hexhausted⟩ | ⟨hkeeps, hsame⟩
      · rcases ih hagain hlater hrest with hend | ⟨last, hlast, hsome, hnone⟩
        · exact .inl hend
        · refine .inr ⟨last, hlast, ?_, ?_⟩
          · intro _
            by_cases hmore : ∃ m ∈ rest, AttemptFails m
            · exact hsome hmore
            · exact hnone hmore
          · intro hno
            exact absurd ⟨l, List.mem_cons_self .., hfails⟩ hno
      · refine .inl (execute_invariant step Exhausted hexhausted ?_ hrest)
        intro a m b ha hm hab
        exact exhausted_step ha (hlater m hm) hab
      · rcases ih hsame hlater hrest with hend | ⟨last, hlast, hsome, hnone⟩
        · exact .inl hend
        · refine .inr ⟨last, hlast, ?_, ?_⟩
          · rintro ⟨m, hm, hfails⟩
            rcases List.mem_cons.mp hm with rfl | hm
            · exact absurd hfails hkeeps
            · exact hsome ⟨m, hm, hfails⟩
          · intro hno
            apply hnone
            rintro ⟨m, hm, hfails⟩
            exact hno ⟨m, List.mem_cons_of_mem _ hm, hfails⟩

/-- The attempt that succeeds. -/
theorem opened_of_recovering {c u : Connection} {startPaused : Bool} {remembered : SdkState}
    (hc : c.Recovering startPaused remembered) (h : c.step (.transport .opened) = some u) :
    u.lifecycle.fsm =
      if startPaused = false ∧ remembered = .running then .running else .ready := by
  rcases hc.pending with ⟨hnone, -⟩ | ⟨hconnecting, -⟩
  · simp [step, SdkTransport.step, hnone] at h
  · simp only [step, SdkTransport.step, hconnecting, hc.notStopped, Bool.false_eq_true, if_false,
      if_true, Option.map_some, Option.some.injEq] at h
    subst h
    have hopened : call c.lifecycle .opened = { c.lifecycle with isConnected := true } := rfl
    simp only [notify, TransportEvent.listener, List.filterMap_cons, List.filterMap_nil,
      List.foldl_cons, List.foldl_nil, hopened]
    rw [fsm_call_reconnected (c := { c.lifecycle with isConnected := true }) hc.fsm hc.remembered,
      hc.startPaused]

/-- **Exactly when a reconnect restores the state**: the state before the disconnect
comes back if and only if it was `READY`, or it was `RUNNING`, the SDK had not been
started paused and no attempt failed. -/
theorem restored_iff {c u : Connection} {before : SdkState} {now : ℕ}
    {middle : List ConnectionLabel} (hc : c.Established) (hbefore : c.lifecycle.fsm = before)
    (hactive : before.isActive = true) (hmiddle : ∀ l ∈ middle, InOutage l)
    (hrun : execute step c
      (.transport (.closed now) :: middle ++ [.transport .opened]) = some u) :
    u.lifecycle.fsm = before ↔
      before = .ready ∨ (before = .running ∧ c.lifecycle.startPaused = false ∧
        ¬ ∃ l ∈ middle, AttemptFails l) := by
  obtain ⟨c₁, hclosed, hrest⟩ := execute_cons_eq_some step hrun
  obtain ⟨c₂, houtage, hlast⟩ := execute_append_eq_some step hrest
  obtain ⟨_, hopened, hnil⟩ := execute_cons_eq_some step hlast
  obtain rfl := Option.some.inj hnil
  have hsocket : c.transport.socket ≠ none := by
    rw [hc.opened]
    nofun
  subst hbefore
  -- The first `recovering` event remembers the state before the disconnect.
  rcases closed_cases hsocket hc.timer hc.notStopped (.inl hactive) hclosed with
    ⟨-, hrecovering⟩ | ⟨hmany, -⟩
  · rcases recovering_run hrecovering hmiddle houtage with hexhausted | ⟨last, hfinal, hsome, hnone⟩
    · simp [step, SdkTransport.step, hexhausted.socket] at hopened
    · rw [opened_of_recovering hfinal hopened]
      by_cases hfails : ∃ l ∈ middle, AttemptFails l
      · rw [hsome hfails, if_neg (by rintro ⟨-, h⟩; cases h)]
        constructor
        · intro hready
          exact .inl hready.symm
        · rintro (hready | ⟨-, -, hno⟩)
          · exact hready.symm
          · exact absurd hfails hno
      · rw [hnone hfails]
        split
        next hrestored =>
          exact ⟨fun _ => .inr ⟨hrestored.2, hrestored.1, hfails⟩, fun _ => hrestored.2.symm⟩
        next hlost =>
          constructor
          · intro hready
            exact .inl hready.symm
          · rintro (hready | ⟨hrunning, hstarted, -⟩)
            · exact hready.symm
            · exact absurd ⟨hstarted, hrunning⟩ hlost
  · rw [hc.attempts] at hmany
    exact absurd hmany (by decide)

/-! ## One disconnect while running -/

/-- `start` is over and detection is on. -/
def running : Connection := ⟨⟨.running, true, none, false⟩, ⟨some .opened, true, 0, none, false⟩⟩

theorem running_established : running.Established := ⟨rfl, rfl, rfl, rfl⟩

/-- The first attempt succeeds, and `RUNNING` comes back. -/
theorem first_attempt_restores :
    ∃ u, execute step running
        [.transport (.closed 0), .transport (.fire 200), .transport .opened] = some u ∧
      u.lifecycle.fsm = .running := by
  have hrun : execute step running
      [.transport (.closed 0), .transport (.fire 200), .transport .opened] ≠ none := by decide
  obtain ⟨u, hu⟩ := Option.ne_none_iff_exists'.mp hrun
  have hmiddle : ∀ l ∈ [ConnectionLabel.transport (.fire 200)], InOutage l := by
    intro l hl
    obtain rfl := List.mem_singleton.mp hl
    exact ⟨nofun, nofun, nofun⟩
  have hnoFailure : ¬ ∃ l ∈ [ConnectionLabel.transport (.fire 200)], AttemptFails l := by
    rintro ⟨l, hl, now, rfl⟩
    cases List.mem_singleton.mp hl
  exact ⟨u, hu, (restored_iff running_established rfl rfl hmiddle hu).mpr
    (.inr ⟨rfl, rfl, hnoFailure⟩)⟩

/-- The first attempt fails, the second succeeds, and the SDK stays in `READY`. -/
theorem second_attempt_forgets :
    running.lifecycle.fsm = .running ∧
      (execute step running
        [.transport (.closed 0), .transport (.fire 200), .transport .errored,
          .transport (.closed 210), .transport (.fire 610), .transport .opened]).map
        (fun u => u.lifecycle.fsm) = some .ready := by
  decide

end Connection

end Sdk
end AvaListener
