import AvaListener.Library.Runs
import AvaListener.Sdk.Transport
import Mathlib.Algebra.Ring.Nat

/-!
# Reconnect series

The transport of `node/transport.js` after its `connect`, with a log of what can be seen
from outside.  `Sdk/Transport.lean` runs a callback with everything that follows from it;
here the promise continuation of a reconnect is a callback of its own, which comes before
any timer, and a listener of `disconnected` or `recovering` may call `close` while
`_scheduleReconnect` has still to go on.  A `close` by any other listener comes to the same
as one right after the callback.

`connect` is called once, as `lifecycle.js` does.
-/

namespace AvaListener
namespace Sdk

open Library

/-! ## Logs -/

inductive LogEntry where
  /-- A socket opens. -/
  | opened
  /-- A socket closes. -/
  | closed (now : ℕ)
  /-- The timer, due at `due`, runs out and a reconnect attempt makes its socket. -/
  | attempt (due now : ℕ)
  | emitted (e : TransportEvent)
  /-- `close` is called. -/
  | stop
  deriving DecidableEq

/-- Logs have the newest entry first. -/
abbrev SeriesLog : Type := List LogEntry

namespace SeriesLog

/-- Reconnect attempts since the last opened socket. -/
def attempts : SeriesLog → ℕ
  | [] => 0
  | .opened :: _ => 0
  | .attempt _ _ :: past => attempts past + 1
  | .closed _ :: past => attempts past
  | .emitted _ :: past => attempts past
  | .stop :: past => attempts past

/-- When the last socket closed, if it has. -/
def lastClosed : SeriesLog → Option ℕ
  | [] => none
  | .opened :: _ => none
  | .attempt _ _ :: _ => none
  | .closed now :: _ => some now
  | .emitted _ :: past => lastClosed past
  | .stop :: past => lastClosed past

/-- `failed` events since the last opened socket. -/
def failures : SeriesLog → ℕ
  | [] => 0
  | .opened :: _ => 0
  | .emitted .failed :: past => failures past + 1
  | .emitted _ :: past => failures past
  | .attempt _ _ :: past => failures past
  | .closed _ :: past => failures past
  | .stop :: past => failures past

/-- What the reconnect contract asks of an entry after the entries before it: at most five
attempts, the next of them `200 * 2 ^ k` ms after the close; `failed` once and after the
fifth attempt's socket has closed; nothing of this after `close`. -/
def Allowed (past : SeriesLog) : LogEntry → Prop
  | .attempt due now =>
      .stop ∉ past ∧ attempts past < 5 ∧ due ≤ now ∧
        ∃ closedAt, lastClosed past = some closedAt ∧ due = closedAt + 200 * 2 ^ attempts past
  | .emitted (.recovering _ _) => .stop ∉ past
  | .emitted .failed =>
      .stop ∉ past ∧ attempts past = 5 ∧ lastClosed past ≠ none ∧ failures past = 0
  | _ => True

/-- Every entry is as the contract asks. -/
def Contract : SeriesLog → Prop
  | [] => True
  | e :: past => Allowed past e ∧ Contract past

/-- An exhausted series has been reported, unless `close` came before. -/
def Reported (log : SeriesLog) : Prop :=
  attempts log = 5 → lastClosed log ≠ none → .stop ∉ log → failures log = 1

/-- The events emitted, oldest first. -/
def emissions (log : SeriesLog) : List TransportEvent :=
  log.reverse.filterMap fun
    | .emitted e => some e
    | _ => none

end SeriesLog

/-! ## Runs -/

/-- The listeners that can call `close` before `_scheduleReconnect` is over. -/
inductive ClosingListener where
  | disconnected
  | recovering
  deriving DecidableEq

inductive Callback where
  /-- The events of the socket. -/
  | opened
  | errored
  | closed (now : ℕ) (closing : Option ClosingListener)
  /-- The `then` of a reconnect. -/
  | continued
  /-- The reconnect timer fires. -/
  | fire (now : ℕ)
  /-- `close`, from anywhere else. -/
  | close
  deriving DecidableEq

structure ReconnectSeries where
  transport : SdkTransport
  /-- The `then` of a reconnect is due. -/
  continuation : Bool
  /-- The timer was set after the listener of its `recovering` event had called `close`. -/
  late : Bool
  log : SeriesLog
  deriving DecidableEq

/-- `close`. -/
def SdkTransport.stop (t : SdkTransport) : SdkTransport :=
  { t with stopped := true, reconnectTimer := none, isConnected := false }

namespace ReconnectSeries

open SeriesLog

/-- `connect` has made the first socket. -/
def start : ReconnectSeries where
  transport := { SdkTransport.init with socket := some (.connecting false) }
  continuation := false
  late := false
  log := []

/-- `_scheduleReconnect`, of a transport that is not stopped. -/
def scheduleReconnect (s : ReconnectSeries) (now : ℕ) (closing : Option ClosingListener) :
    ReconnectSeries :=
  match reconnectDelays[s.transport.reconnectAttempts]? with
  | none => { s with log := .emitted .failed :: s.log }
  | some delay =>
      let log := .emitted (.recovering (s.transport.reconnectAttempts + 1) delay) :: s.log
      -- The timer is set whatever the listeners have done.
      if closing = some .recovering then
        { s with
          transport := { s.transport.stop with reconnectTimer := some (now + delay) }
          late := true
          log := .stop :: log }
      else
        { s with
          transport := { s.transport with reconnectTimer := some (now + delay) }
          late := false
          log := log }

def step (s : ReconnectSeries) : Callback → Option ReconnectSeries
  | .opened =>
      match s.transport.socket with
      | some (.connecting reconnect) =>
          some { s with
            transport :=
              { s.transport with
                socket := some .opened
                isConnected := true
                reconnectAttempts := 0 }
            continuation := reconnect
            log := .emitted .connected :: .opened :: s.log }
      | _ => none
  | .errored =>
      if s.transport.socket = none then none else some { s with log := .emitted .error :: s.log }
  | .closed now closing =>
      if s.transport.socket = none then none
      else
        let s := { s with
          transport := { s.transport with socket := none, isConnected := false }
          log := .closed now :: s.log }
        if s.transport.stopped then some s
        else
          let s := { s with log := .emitted .disconnected :: s.log }
          if closing = some .disconnected then
            some { s with transport := s.transport.stop, log := .stop :: s.log }
          else some (s.scheduleReconnect now closing)
  | .continued =>
      if s.continuation then
        some { s with
          transport := { s.transport with reconnectAttempts := 0 }
          continuation := false
          log := .emitted (.reconnected s.transport.reconnectAttempts) :: s.log }
      else none
  | .fire now =>
      match s.transport.reconnectTimer with
      | none => none
      | some due =>
          if s.continuation = false ∧ due ≤ now then
            some { s with
              transport :=
                { s.transport with
                  reconnectTimer := none
                  reconnectAttempts := s.transport.reconnectAttempts + 1
                  socket := some (.connecting true) }
              log := .attempt due now :: s.log }
          else none
  | .close => some { s with transport := s.transport.stop, log := .stop :: s.log }

/-- The contract, at a point between callbacks. -/
def KeepsContract (s : ReconnectSeries) : Prop :=
  Contract s.log ∧ Reported s.log

/-- A timer that runs out was not set after a `close` by the listener of its `recovering`
event. -/
def TimerInTime (s : ReconnectSeries) : Callback → Prop
  | .fire _ => s.late = false
  | _ => True

instance (s : ReconnectSeries) : ∀ l, Decidable (s.TimerInTime l)
  | .opened | .errored | .closed _ _ | .continued | .close => inferInstanceAs (Decidable True)
  | .fire _ => inferInstanceAs (Decidable (s.late = false))

/-! ## The invariant -/

theorem reconnectDelays_of_lt {k : ℕ} (h : k < 5) : reconnectDelays[k]? = some (200 * 2 ^ k) := by
  revert k
  decide

/-- Where the current socket, or the wait for the next one, stands. -/
inductive Phase (s : ReconnectSeries) : Prop where
  | connected (socket : s.transport.socket ≠ none) (timer : s.transport.reconnectTimer = none)
      (notClosed : lastClosed s.log = none) (failures : failures s.log = 0)
  | waiting (due closedAt : ℕ) (socket : s.transport.socket = none)
      (timer : s.transport.reconnectTimer = some due)
      (closed : lastClosed s.log = some closedAt)
      (delay : due = closedAt + 200 * 2 ^ attempts s.log) (left : attempts s.log < 5)
      (failures : failures s.log = 0) (late : s.late = s.transport.stopped)
  | ended (socket : s.transport.socket = none) (timer : s.transport.reconnectTimer = none)
      (closed : lastClosed s.log ≠ none) (reported : .stop ∈ s.log ∨ failures s.log = 1)

/-- The transport agrees with its log. -/
structure Coherent (s : ReconnectSeries) : Prop where
  contract : Contract s.log
  stopped : s.transport.stopped = true ↔ .stop ∈ s.log
  attempts : s.transport.reconnectAttempts = attempts s.log
  bound : SeriesLog.attempts s.log ≤ 5
  continuation : s.continuation = true → SeriesLog.attempts s.log = 0
  phase : s.Phase

theorem coherent_start : start.Coherent where
  contract := trivial
  stopped := by decide
  attempts := rfl
  bound := Nat.zero_le 5
  continuation := nofun
  phase := .connected nofun rfl rfl rfl

/-- An exhausted series is over, and over without `close` it has been reported. -/
theorem Coherent.keepsContract {s : ReconnectSeries} (h : s.Coherent) : s.KeepsContract := by
  refine ⟨h.contract, fun hattempts hclosed hstop => ?_⟩
  cases h.phase with
  | connected socket timer notClosed failures => exact absurd notClosed hclosed
  | waiting due closedAt socket timer closed delay left failures late => omega
  | ended socket timer closed reported => exact reported.resolve_left hstop

variable {s t : ReconnectSeries}

/-- While there is a socket there is no timer, and the series has not failed. -/
theorem Coherent.of_socket (h : s.Coherent) (hsocket : s.transport.socket ≠ none) :
    s.transport.reconnectTimer = none ∧ SeriesLog.failures s.log = 0 := by
  cases h.phase with
  | connected socket timer notClosed failures => exact ⟨timer, failures⟩
  | waiting due closedAt socket timer closed delay left failures late =>
      exact absurd socket hsocket
  | ended socket timer closed reported => exact absurd socket hsocket

/-- A timer runs from the last close for the delay of the next attempt. -/
theorem Coherent.of_timer {due : ℕ} (h : s.Coherent)
    (htimer : s.transport.reconnectTimer = some due) :
    (∃ closedAt, lastClosed s.log = some closedAt ∧
        due = closedAt + 200 * 2 ^ SeriesLog.attempts s.log) ∧
      SeriesLog.attempts s.log < 5 ∧ SeriesLog.failures s.log = 0 ∧
      s.late = s.transport.stopped := by
  cases h.phase with
  | connected socket timer notClosed failures => cases htimer.symm.trans timer
  | waiting due' closedAt socket timer closed delay left failures late =>
      obtain rfl := Option.some.inj (htimer.symm.trans timer)
      exact ⟨⟨closedAt, closed, delay⟩, left, failures, late⟩
  | ended socket timer closed reported => cases htimer.symm.trans timer

theorem coherent_opened (h : s.Coherent) (hstep : s.step .opened = some t) : t.Coherent := by
  simp only [step] at hstep
  split at hstep
  next reconnect hsocket =>
    obtain rfl := Option.some.inj hstep
    obtain ⟨htimer, -⟩ := h.of_socket (by rw [hsocket]; nofun)
    refine ⟨⟨trivial, trivial, h.contract⟩, ?_, rfl, Nat.zero_le 5, fun _ => rfl, ?_⟩
    · simpa using h.stopped
    · exact .connected nofun htimer rfl rfl
  · cases hstep

/-- An event that concerns nobody. -/
theorem Coherent.emit {e : TransportEvent} (h : s.Coherent)
    (hrecovering : ∀ k delay, e ≠ .recovering k delay) (hfailed : e ≠ .failed) :
    ({ s with log := .emitted e :: s.log } : ReconnectSeries).Coherent := by
  have hfailures : failures (.emitted e :: s.log) = failures s.log := by
    cases e <;> first | rfl | exact absurd rfl hfailed
  have hallowed : Allowed s.log (.emitted e) := by
    cases e <;> first | trivial | exact absurd rfl hfailed | exact absurd rfl (hrecovering _ _)
  refine ⟨⟨hallowed, h.contract⟩, ?_, h.attempts, h.bound, h.continuation, ?_⟩
  · simpa using h.stopped
  · cases h.phase with
    | connected socket timer notClosed failures =>
        exact .connected socket timer notClosed (hfailures.trans failures)
    | waiting due closedAt socket timer closed delay left failures late =>
        exact .waiting due closedAt socket timer closed delay left (hfailures.trans failures) late
    | ended socket timer closed reported =>
        refine .ended socket timer closed ?_
        rw [hfailures]
        exact reported.imp_left (List.mem_cons_of_mem _)

/-- `close` ends the wait for the next attempt. -/
theorem Coherent.stop (h : s.Coherent) :
    ({ s with transport := s.transport.stop, log := .stop :: s.log } : ReconnectSeries).Coherent := by
  refine ⟨⟨trivial, h.contract⟩, ?_, h.attempts, h.bound, h.continuation, ?_⟩
  · simp [SdkTransport.stop]
  · cases h.phase with
    | connected socket timer notClosed failures => exact .connected socket rfl notClosed failures
    | waiting due closedAt socket timer closed delay left failures late =>
        refine .ended socket rfl ?_ (.inl (List.mem_cons_self ..))
        show lastClosed s.log ≠ none
        rw [closed]
        nofun
    | ended socket timer closed reported =>
        exact .ended socket rfl closed (.inl (List.mem_cons_self ..))

/-- A socket has closed and the transport is not stopped. -/
structure JustClosed (s : ReconnectSeries) (now : ℕ) : Prop where
  contract : Contract s.log
  running : s.transport.stopped = false
  noStop : .stop ∉ s.log
  attempts : s.transport.reconnectAttempts = SeriesLog.attempts s.log
  bound : SeriesLog.attempts s.log ≤ 5
  continuation : s.continuation = true → SeriesLog.attempts s.log = 0
  socket : s.transport.socket = none
  timer : s.transport.reconnectTimer = none
  closed : lastClosed s.log = some now
  failures : SeriesLog.failures s.log = 0

theorem JustClosed.coherent {now : ℕ} (h : s.JustClosed now) (closing : Option ClosingListener) :
    (s.scheduleReconnect now closing).Coherent := by
  have hclosed : lastClosed s.log ≠ none := by
    rw [h.closed]
    nofun
  unfold scheduleReconnect
  rw [h.attempts]
  rcases Nat.lt_or_eq_of_le h.bound with hleft | hexhausted
  · rw [reconnectDelays_of_lt hleft]
    dsimp only
    split
    · -- Stopped with a timer running: only `late` remembers it.
      refine ⟨⟨trivial, h.noStop, h.contract⟩, ?_, h.attempts, h.bound, h.continuation, ?_⟩
      · simp [SdkTransport.stop]
      · exact .waiting _ now h.socket rfl h.closed rfl hleft h.failures rfl
    · refine ⟨⟨h.noStop, h.contract⟩, ?_, h.attempts, h.bound, h.continuation, ?_⟩
      · simp [h.running, h.noStop]
      · exact .waiting _ now h.socket rfl h.closed rfl hleft h.failures h.running.symm
  · have hnone : reconnectDelays[SeriesLog.attempts s.log]? = none := by
      rw [hexhausted]
      rfl
    rw [hnone]
    refine ⟨⟨⟨h.noStop, hexhausted, hclosed, h.failures⟩, h.contract⟩, ?_, h.attempts, h.bound,
      h.continuation, ?_⟩
    · simp [h.running, h.noStop]
    · exact .ended h.socket h.timer hclosed (.inr (congrArg (· + 1) h.failures))

theorem coherent_closed {now : ℕ} {closing : Option ClosingListener} (h : s.Coherent)
    (hstep : s.step (.closed now closing) = some t) : t.Coherent := by
  simp only [step] at hstep
  split at hstep
  · cases hstep
  next hsocket =>
    obtain ⟨htimer, hfailures⟩ := h.of_socket hsocket
    split at hstep
    next hstopped =>
      obtain rfl := Option.some.inj hstep
      have hstop : LogEntry.stop ∈ .closed now :: s.log :=
        List.mem_cons_of_mem _ (h.stopped.mp hstopped)
      exact ⟨⟨trivial, h.contract⟩, ⟨fun _ => hstop, fun _ => hstopped⟩, h.attempts, h.bound,
        h.continuation, .ended rfl htimer nofun (.inl hstop)⟩
    next hrunning =>
      have hnoStop : LogEntry.stop ∉ s.log := fun hstop => hrunning (h.stopped.mpr hstop)
      split at hstep
      · obtain rfl := Option.some.inj hstep
        refine ⟨⟨trivial, trivial, trivial, h.contract⟩, ?_, h.attempts, h.bound, h.continuation,
          .ended rfl rfl nofun (.inl (List.mem_cons_self ..))⟩
        simp [SdkTransport.stop]
      · obtain rfl := Option.some.inj hstep
        refine JustClosed.coherent ?_ closing
        exact ⟨⟨trivial, trivial, h.contract⟩, by simpa using hrunning, by simpa using hnoStop,
          h.attempts, h.bound, h.continuation, rfl, htimer, rfl, hfailures⟩

theorem coherent_continued (h : s.Coherent) (hstep : s.step .continued = some t) :
    t.Coherent := by
  simp only [step] at hstep
  split at hstep
  next hcontinuation =>
    obtain rfl := Option.some.inj hstep
    have hzero := h.continuation hcontinuation
    have hemit := h.emit (e := .reconnected s.transport.reconnectAttempts) nofun nofun
    refine ⟨hemit.contract, hemit.stopped, hzero.symm, hemit.bound, nofun, ?_⟩
    cases hemit.phase with
    | connected socket timer notClosed failures =>
        exact .connected socket timer notClosed failures
    | waiting due closedAt socket timer closed delay left failures late =>
        exact .waiting due closedAt socket timer closed delay left failures late
    | ended socket timer closed reported => exact .ended socket timer closed reported
  · cases hstep

/-- The timer runs out: an attempt is due where the timer was set in time. -/
theorem coherent_fire {now : ℕ} (h : s.Coherent) (hlate : s.late = false)
    (hstep : s.step (.fire now) = some t) : t.Coherent := by
  simp only [step] at hstep
  split at hstep
  · cases hstep
  next due htimer =>
    split at hstep
    next hready =>
      obtain rfl := Option.some.inj hstep
      obtain ⟨hdue, hleft, hfailures, hstopped⟩ := h.of_timer htimer
      -- Set in time, the timer would have been cleared by a `close`.
      have hrunning : s.transport.stopped = false := hstopped.symm.trans hlate
      have hnoStop : LogEntry.stop ∉ s.log := fun hstop => by
        rw [h.stopped.mpr hstop] at hrunning
        cases hrunning
      refine ⟨⟨⟨hnoStop, hleft, hready.2, hdue⟩, h.contract⟩, ?_,
        congrArg (· + 1) h.attempts, hleft, ?_, .connected nofun rfl rfl hfailures⟩
      · simp [hrunning, hnoStop]
      · intro hcontinuation
        rw [hready.1] at hcontinuation
        cases hcontinuation
    · cases hstep

/-- **One callback** keeps the transport and its log in agreement unless a late timer runs
out. -/
theorem coherent_step {l : Callback} (h : s.Coherent) (htime : s.TimerInTime l)
    (hstep : s.step l = some t) : t.Coherent := by
  cases l with
  | opened => exact coherent_opened h hstep
  | errored =>
      simp only [step] at hstep
      split at hstep
      · cases hstep
      · obtain rfl := Option.some.inj hstep
        exact h.emit nofun nofun
  | closed now closing => exact coherent_closed h hstep
  | continued => exact coherent_continued h hstep
  | fire now => exact coherent_fire h htime hstep
  | close =>
      obtain rfl := Option.some.inj hstep
      exact h.stop

/-- A late timer that runs out starts an attempt after `close`. -/
theorem not_keepsContract_of_late {l : Callback} (h : s.Coherent) (htime : ¬ s.TimerInTime l)
    (hstep : s.step l = some t) : ¬ t.KeepsContract := by
  cases l with
  | fire now =>
      have hlate : s.late = true := by simpa [TimerInTime] using htime
      simp only [step] at hstep
      split at hstep
      · cases hstep
      next due htimer =>
        split at hstep
        · obtain rfl := Option.some.inj hstep
          rintro ⟨⟨⟨hnoStop, -⟩, -⟩, -⟩
          obtain ⟨-, -, -, hstopped⟩ := h.of_timer htimer
          exact hnoStop (h.stopped.mp (hstopped.symm.trans hlate))
        · cases hstep
  | _ => exact absurd trivial htime

/-! ## All runs -/

/-- **The reconnect contract.**  A run keeps it exactly when no timer runs out that was set
after the listener of its `recovering` event had called `close`. -/
theorem keepsContract_iff (callbacks : List Callback) (u : ReconnectSeries)
    (hrun : execute step start callbacks = some u) :
    Always step KeepsContract start callbacks ↔ MeetsAlong step TimerInTime start callbacks :=
  always_iff_meetsAlong step Coherent coherent_start (fun _ h => h.keepsContract)
    (fun _ _ _ h _ htime hstep => coherent_step h htime hstep)
    (fun _ _ _ h _ htime hstep => not_keepsContract_of_late h htime hstep) hrun

/-- Where no listener of `recovering` calls `close`, every timer is set in time. -/
theorem timerInTime_of_listeners {callbacks : List Callback}
    (h : ∀ now, .closed now (some .recovering) ∉ callbacks) :
    MeetsAlong step TimerInTime start callbacks := by
  refine meetsAlong_of_invariant step (fun s => s.late = false) rfl ?_ ?_
  · intro s l hs _
    cases l <;> first | exact hs | trivial
  · intro s l t hs hl hstep
    cases l with
    | closed now closing =>
        have hne : closing ≠ some .recovering := by
          rintro rfl
          exact h now hl
        simp only [step] at hstep
        repeat' split at hstep
        · cases hstep
        · exact Option.some.inj hstep ▸ hs
        · exact Option.some.inj hstep ▸ hs
        · obtain rfl := Option.some.inj hstep
          simp only [scheduleReconnect]
          split
          · exact hs
          · rw [if_neg hne]
    | opened =>
        simp only [step] at hstep
        split at hstep
        · exact Option.some.inj hstep ▸ hs
        · cases hstep
    | errored =>
        simp only [step] at hstep
        split at hstep
        · cases hstep
        · exact Option.some.inj hstep ▸ hs
    | continued =>
        simp only [step] at hstep
        split at hstep
        · exact Option.some.inj hstep ▸ hs
        · cases hstep
    | fire now =>
        simp only [step] at hstep
        split at hstep
        · cases hstep
        · split at hstep
          · exact Option.some.inj hstep ▸ hs
          · cases hstep
    | close => exact Option.some.inj hstep ▸ hs

/-- An opened socket closes, five attempts fail in their various ways and the sixth `close`
ends the series; then `close` is called. -/
def exhaustedSeries : List Callback :=
  [.opened, .closed 1000 none, .fire 1200, .errored, .closed 1210 none, .fire 1610,
    .closed 1610 none, .fire 2410, .errored, .closed 2500 none, .fire 4101, .closed 4200 none,
    .fire 7400, .errored, .closed 7500 none, .close]

theorem exhaustedSeries_keepsContract :
    Always step KeepsContract start exhaustedSeries := by
  have hrun : (execute step start exhaustedSeries).isSome := by decide +kernel
  obtain ⟨u, hu⟩ := Option.isSome_iff_exists.mp hrun
  exact (keepsContract_iff exhaustedSeries u hu).mpr (by decide +kernel)

/-- A listener of `recovering` calls `close`, and the attempt is started all the same. -/
theorem closedWhileRecovering_fails :
    ∃ u, execute step start [.opened, .closed 1000 (some .recovering), .fire 1200] = some u ∧
      u.log = [.attempt 1200 1200, .stop, .emitted (.recovering 1 200), .emitted .disconnected,
        .closed 1000, .emitted .connected, .opened] ∧
      ¬ Always step KeepsContract start
        [.opened, .closed 1000 (some .recovering), .fire 1200] := by
  have hlog : (execute step start [.opened, .closed 1000 (some .recovering), .fire 1200]).map
      ReconnectSeries.log = some [.attempt 1200 1200, .stop, .emitted (.recovering 1 200),
        .emitted .disconnected, .closed 1000, .emitted .connected, .opened] := by decide +kernel
  obtain ⟨u, hu, hlog⟩ := Option.map_eq_some_iff.mp hlog
  refine ⟨u, hu, hlog, fun halways => ?_⟩
  have hcontract := (always_final step halways hu).1
  rw [hlog] at hcontract
  exact hcontract.1.1 (List.mem_cons_self ..)

/-! ## Whole callbacks -/

theorem emissions_cons_emitted (e : TransportEvent) (log : SeriesLog) :
    emissions (.emitted e :: log) = emissions log ++ [e] := by
  simp [emissions]

theorem emissions_cons_of_silent {e : LogEntry} (log : SeriesLog) (h : ∀ v, e ≠ .emitted v) :
    emissions (e :: log) = emissions log := by
  cases e with
  | emitted v => exact absurd rfl (h v)
  | _ => simp [emissions]

theorem scheduleReconnect_none (s : ReconnectSeries) (now : ℕ) :
    (s.scheduleReconnect now none).transport = (s.transport.scheduleReconnect now).1 ∧
      (s.scheduleReconnect now none).continuation = s.continuation ∧
      emissions (s.scheduleReconnect now none).log =
        emissions s.log ++ (s.transport.scheduleReconnect now).2 := by
  unfold scheduleReconnect SdkTransport.scheduleReconnect
  cases reconnectDelays[s.transport.reconnectAttempts]? with
  | none => exact ⟨rfl, rfl, emissions_cons_emitted _ _⟩
  | some delay => exact ⟨rfl, rfl, emissions_cons_emitted _ _⟩

/-- `open`.  After a reconnect the continuation of the timer callback follows it. -/
theorem exists_execute_of_opened {c : SdkTransport} {events : List TransportEvent}
    (hstep : s.transport.step .opened = some (c, events)) :
    ∃ callbacks u, execute step s callbacks = some u ∧ u.transport = c ∧
      u.continuation = false ∧ emissions u.log = emissions s.log ++ events := by
  simp only [SdkTransport.step] at hstep
  split at hstep
  next reconnect hsocket =>
    split at hstep
    · cases hstep
    · obtain ⟨rfl, rfl⟩ := Prod.mk.inj (Option.some.inj hstep)
      have hopened : step s .opened = some { s with
          transport :=
            { s.transport with
              socket := some .opened
              isConnected := true
              reconnectAttempts := 0 }
          continuation := reconnect
          log := .emitted .connected :: .opened :: s.log } := by
        simp only [step, hsocket]
      have hlog : emissions (.emitted .connected :: .opened :: s.log) =
          emissions s.log ++ [.connected] := by
        rw [emissions_cons_emitted, emissions_cons_of_silent (e := .opened) s.log nofun]
      cases reconnect with
      | false =>
          refine ⟨[.opened], _, (execute_singleton ..).trans hopened, rfl, rfl, hlog⟩
      | true =>
          -- The continuation has nothing left to reset.
          refine ⟨[.opened, .continued], { s with
              transport :=
                { s.transport with
                  socket := some .opened
                  isConnected := true
                  reconnectAttempts := 0 }
              continuation := false
              log := .emitted (.reconnected 0) :: .emitted .connected :: .opened :: s.log },
            ?_, rfl, rfl, ?_⟩
          · rw [execute_cons, hopened]
            rfl
          · rw [emissions_cons_emitted, hlog, List.append_assoc]
            rfl
  · cases hstep

/-- `close`.  The reconnect is scheduled with no listener in the way. -/
theorem exists_execute_of_closed {c : SdkTransport} {events : List TransportEvent} {now : ℕ}
    (hcontinuation : s.continuation = false)
    (hstep : s.transport.step (.closed now) = some (c, events)) :
    ∃ callbacks u, execute step s callbacks = some u ∧ u.transport = c ∧
      u.continuation = false ∧ emissions u.log = emissions s.log ++ events := by
  simp only [SdkTransport.step] at hstep
  split at hstep
  · cases hstep
  next hsocket =>
    have hclosed : emissions (.closed now :: s.log) = emissions s.log :=
      emissions_cons_of_silent s.log nofun
    split at hstep
    next hstopped =>
      obtain ⟨rfl, rfl⟩ := Prod.mk.inj (Option.some.inj hstep)
      refine ⟨[.closed now none], { s with
          transport := { s.transport with socket := none, isConnected := false }
          log := .closed now :: s.log }, ?_, rfl, hcontinuation, ?_⟩
      · rw [execute_singleton, step, if_neg hsocket]
        exact if_pos hstopped
      · rw [hclosed, List.append_nil]
    next hrunning =>
      obtain ⟨rfl, rfl⟩ := Prod.mk.inj (Option.some.inj hstep)
      obtain ⟨htransport, hsame, hemissions⟩ := scheduleReconnect_none { s with
          transport := { s.transport with socket := none, isConnected := false }
          log := .emitted .disconnected :: .closed now :: s.log } now
      refine ⟨[.closed now none], scheduleReconnect { s with
          transport := { s.transport with socket := none, isConnected := false }
          log := .emitted .disconnected :: .closed now :: s.log } now none, ?_, ?_, ?_, ?_⟩
      · rw [execute_singleton, step, if_neg hsocket]
        exact if_neg hrunning
      · rw [htransport]
      · exact hsame.trans hcontinuation
      · rw [hemissions, emissions_cons_emitted, hclosed, List.append_assoc]
        rfl

/-- The timer.  Its callback runs up to the `await` of `connect`. -/
theorem exists_execute_of_fire {c : SdkTransport} {events : List TransportEvent} {now : ℕ}
    (hcontinuation : s.continuation = false)
    (hstep : s.transport.step (.fire now) = some (c, events)) :
    ∃ callbacks u, execute step s callbacks = some u ∧ u.transport = c ∧
      u.continuation = false ∧ emissions u.log = emissions s.log ++ events := by
  simp only [SdkTransport.step] at hstep
  split at hstep
  · cases hstep
  next due htimer =>
    split at hstep
    next hdue =>
      obtain ⟨rfl, rfl⟩ := Prod.mk.inj (Option.some.inj hstep)
      refine ⟨[.fire now], { s with
          transport :=
            { s.transport with
              reconnectTimer := none
              reconnectAttempts := s.transport.reconnectAttempts + 1
              socket := some (.connecting true) }
          log := .attempt due now :: s.log }, ?_, rfl, hcontinuation, ?_⟩
      · rw [execute_singleton, step]
        simp only [htimer, hcontinuation, hdue, and_self, if_true]
      · rw [List.append_nil]
        exact emissions_cons_of_silent s.log nofun
    · cases hstep

/-- **Simulation.**  A callback of `Sdk/Transport.lean`, with all that follows from it, is a
run of callbacks here in which no listener calls `close`, and emits the same events. -/
theorem exists_execute_of_step {c : SdkTransport} {l : TransportLabel}
    {events : List TransportEvent} (hl : l ≠ .connect) (hcontinuation : s.continuation = false)
    (hstep : s.transport.step l = some (c, events)) :
    ∃ callbacks u, execute step s callbacks = some u ∧ u.transport = c ∧
      u.continuation = false ∧ emissions u.log = emissions s.log ++ events := by
  cases l with
  | connect => exact absurd rfl hl
  | opened => exact exists_execute_of_opened hstep
  | errored =>
      simp only [SdkTransport.step] at hstep
      split at hstep
      · cases hstep
      next hsocket =>
        obtain ⟨rfl, rfl⟩ := Prod.mk.inj (Option.some.inj hstep)
        refine ⟨[.errored], { s with log := .emitted .error :: s.log }, ?_, rfl, hcontinuation,
          emissions_cons_emitted _ _⟩
        rw [execute_singleton, step, if_neg hsocket]
  | closed now => exact exists_execute_of_closed hcontinuation hstep
  | fire now => exact exists_execute_of_fire hcontinuation hstep
  | close =>
      obtain ⟨rfl, rfl⟩ := Prod.mk.inj (Option.some.inj hstep)
      refine ⟨[.close], { s with transport := s.transport.stop, log := .stop :: s.log }, rfl, rfl,
        hcontinuation, ?_⟩
      rw [List.append_nil]
      exact emissions_cons_of_silent s.log nofun

end ReconnectSeries

end Sdk
end AvaListener
