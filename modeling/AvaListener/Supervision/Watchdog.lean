import AvaListener.Library.OrderedDict
import AvaListener.Library.PyText
import AvaListener.Library.Rounding
import AvaListener.Library.Runs

/-!
# The runtime watchdog

`RuntimeWatchdog` of `runtime/supervisor/watchdog.py` with the `RecoveryPolicy` of
`runtime/hardening/recovery_policy.py` and the classes of
`runtime/hardening/fault_classifier.py`.  One pass of the monitor loop is a step; a pass
carries what its three checks see of the streamer and the clock readings they take.
The division and the sum that give the time of the next reset are rounded to doubles; the
delays themselves are whole milliseconds.

A reset of the stream that returns counts as a successful recovery for every reason the
watchdog has.  So the counters are back at zero after each, whether or not the fault is
still there (`not_escalates_of_persistent`).
-/

namespace AvaListener
namespace Supervision
namespace Hardening

open Library

/-! ## Faults -/

inductive FaultType where
  | transient
  | recoverable
  | critical
  deriving DecidableEq, Repr

def workerDead : Text := "worker_dead".toList
def workerHang : Text := "worker_hang".toList
def queueOverflow : Text := "queue_overflow".toList
def vadFailure : Text := "vad_failure".toList

def criticalTriggers : List Text := ["model_corrupted".toList, "memory_exhausted".toList]
def transientTriggers : List Text := [workerHang, queueOverflow, "inactivity".toList]

/-- `classify_watchdog_trigger`. -/
def classifyWatchdogTrigger (reason : Text) : FaultType :=
  if reason ∈ criticalTriggers then .critical
  else if reason ∈ transientTriggers then .transient
  else .recoverable

/-- The reasons with which the watchdog's own checks reset the stream. -/
def watchdogReasons : List Text := [workerDead, workerHang, queueOverflow, vadFailure]

theorem classify_ne_critical :
    ∀ reason ∈ watchdogReasons, classifyWatchdogTrigger reason ≠ .critical := by decide

/-! ## The recovery policy -/

/-- Durations are in milliseconds.  A bound below zero acts as zero does, since no count is
below zero. -/
structure RecoveryPolicy where
  maxRetries : ℕ
  backoffInitialMs : ℚ
  backoffMaxMs : ℚ
  escalationThreshold : ℕ
  retries : ℕ
  atMaxCount : ℕ
  deriving DecidableEq

namespace RecoveryPolicy

def recordFailure (p : RecoveryPolicy) : RecoveryPolicy :=
  { p with retries := p.retries + 1 }

/-- `backoff_initial_ms * 2 ** (retries - 1)`, at most `backoff_max_ms`. -/
def delay (p : RecoveryPolicy) : ℚ :=
  min (p.backoffInitialMs * (2 ^ p.retries / 2)) p.backoffMaxMs

/-- `next_backoff`. -/
def nextBackoff (p : RecoveryPolicy) : ℚ × RecoveryPolicy :=
  (p.delay,
    if p.backoffMaxMs ≤ p.delay then { p with atMaxCount := p.atMaxCount + 1 } else p)

def shouldEscalate (p : RecoveryPolicy) : Bool :=
  p.maxRetries ≤ p.retries ∨ p.escalationThreshold ≤ p.atMaxCount

def reset (p : RecoveryPolicy) : RecoveryPolicy :=
  { p with retries := 0, atMaxCount := 0 }

/-- The policy that the watchdog makes. -/
def ofWatchdog : RecoveryPolicy := ⟨8, 100, 8000, 4, 0, 0⟩

/-- `__init__`: nothing is counted yet. -/
def make (maxRetries : ℕ) (backoffInitialMs backoffMaxMs : ℚ) (escalationThreshold : ℕ) :
    RecoveryPolicy :=
  ⟨maxRetries, backoffInitialMs, backoffMaxMs, escalationThreshold, 0, 0⟩

end RecoveryPolicy

/-! ## The watchdog -/

/-- The arguments of the constructor, in seconds. -/
structure WatchdogConfig where
  interval : ℚ
  workerTimeout : ℚ
  queueThreshold : ℕ

def WatchdogConfig.default : WatchdogConfig := ⟨5, 4, 18⟩

structure RuntimeWatchdog where
  resetsTotal : ℕ
  resetsByReason : Dict Text ℕ
  recoveryPolicy : RecoveryPolicy
  escalated : Bool
  nextAllowedReset : ℚ
  /-- The end of the loop's sleep, as the clock reads it. -/
  wakes : ℚ
  deriving DecidableEq

/-- A call of `_recover_stream`: its clock reading, and whether `_reset_stream` would
return or raise. -/
structure Recovery where
  now : ℚ
  returns : Bool

/-- What `_check_worker` sees of the worker thread, its age taken at the check. -/
structure WorkerView where
  alive : Bool
  age : ℚ
  processingActive : Bool

/-- What `_check_vad` sees of the detector. -/
structure VadView where
  sileroLoaded : Bool
  sileroDropped : ℕ

/-- One pass of the loop. -/
structure Pass where
  worker : Option WorkerView
  queueSize : ℕ
  vad : Option VadView
  workerRecovery : Recovery
  queueRecovery : Recovery
  vadRecovery : Recovery

namespace RuntimeWatchdog

def init : RuntimeWatchdog where
  resetsTotal := 0
  resetsByReason := Dict.empty.setAll (watchdogReasons.map fun reason => (reason, 0))
  recoveryPolicy := .ofWatchdog
  escalated := false
  nextAllowedReset := 0
  wakes := 0

/-- The reset is counted under its reason. -/
def countReset (w : RuntimeWatchdog) (reason : Text) : RuntimeWatchdog :=
  { w with
    resetsTotal := w.resetsTotal + 1
    resetsByReason := w.resetsByReason.set reason ((w.resetsByReason.get? reason).getD 0 + 1) }

/-- `_recover_stream`. -/
def recoverStream (w : RuntimeWatchdog) (reason : Text) (r : Recovery) : RuntimeWatchdog :=
  if w.escalated then w
  else if r.now < w.nextAllowedReset then w
  else
    let (delayMs, policy) := w.recoveryPolicy.recordFailure.nextBackoff
    let w := { w with
      recoveryPolicy := policy
      nextAllowedReset := binary64 (r.now + binary64 (delayMs / 1000)) }
    if policy.shouldEscalate then { w with escalated := true }
    else
      let w := w.countReset reason
      if r.returns ∧ classifyWatchdogTrigger reason ≠ .critical then
        { w with recoveryPolicy := w.recoveryPolicy.reset, escalated := false }
      else w

/-- `reset_recovery_state`. -/
def resetRecoveryState (w : RuntimeWatchdog) : RuntimeWatchdog :=
  { w with recoveryPolicy := w.recoveryPolicy.reset, escalated := false, nextAllowedReset := 0 }

/-- The reason for which `_check_worker` resets the stream. -/
def workerFault (c : WatchdogConfig) : Option WorkerView → Option Text
  | none => none
  | some view =>
      if view.alive then
        if view.processingActive ∧ c.workerTimeout < view.age then some workerHang else none
      else some workerDead

def queueFault (c : WatchdogConfig) (queueSize : ℕ) : Option Text :=
  if c.queueThreshold < queueSize then some queueOverflow else none

def vadFault : Option VadView → Option Text
  | none => none
  | some view =>
      if view.sileroLoaded = false ∧ 100 < view.sileroDropped then some vadFailure else none

/-- A check recovers the stream if it finds a fault. -/
def check (w : RuntimeWatchdog) (fault : Option Text) (r : Recovery) : RuntimeWatchdog :=
  match fault with
  | none => w
  | some reason => w.recoverStream reason r

/-- The three checks of `_monitor_loop`. -/
def checks (c : WatchdogConfig) (w : RuntimeWatchdog) (p : Pass) : RuntimeWatchdog :=
  ((w.check (workerFault c p.worker) p.workerRecovery).check (queueFault c p.queueSize)
    p.queueRecovery).check (vadFault p.vad) p.vadRecovery

/-- The clock does not run backwards, and a pass begins after the sleep. -/
def InTime (w : RuntimeWatchdog) (p : Pass) : Prop :=
  w.wakes ≤ p.workerRecovery.now ∧ p.workerRecovery.now ≤ p.queueRecovery.now ∧
    p.queueRecovery.now ≤ p.vadRecovery.now

instance (w : RuntimeWatchdog) (p : Pass) : Decidable (w.InTime p) :=
  inferInstanceAs (Decidable (_ ∧ _))

def step (c : WatchdogConfig) (w : RuntimeWatchdog) (p : Pass) : Option RuntimeWatchdog :=
  if w.InTime p then
    some { checks c w p with wakes := binary64 (p.vadRecovery.now + binary64 c.interval) }
  else none

/-! ## One recovery -/

/-- The failure is counted, and the gate closed for the delay after it. -/
def countFailure (w : RuntimeWatchdog) (now : ℚ) : RuntimeWatchdog :=
  { w with
    recoveryPolicy := w.recoveryPolicy.recordFailure.nextBackoff.2
    nextAllowedReset :=
      binary64 (now + binary64 (w.recoveryPolicy.recordFailure.nextBackoff.1 / 1000)) }

def escalate (w : RuntimeWatchdog) : RuntimeWatchdog := { w with escalated := true }

section Recover

variable {w : RuntimeWatchdog} {r : Recovery} (reason : Text)

theorem recoverStream_held (h : w.escalated = true ∨ r.now < w.nextAllowedReset) :
    w.recoverStream reason r = w := by
  unfold recoverStream
  rcases h with hescalated | hheld
  · rw [if_pos hescalated]
  · rw [if_pos hheld, ite_self]

/-- The watchdog gives up. -/
theorem recoverStream_of_exhausted (hescalated : w.escalated = false)
    (hopen : w.nextAllowedReset ≤ r.now)
    (hexhausted : (w.countFailure r.now).recoveryPolicy.shouldEscalate = true) :
    w.recoverStream reason r = (w.countFailure r.now).escalate := by
  unfold recoverStream
  rw [if_neg (by simp [hescalated]), if_neg (not_lt.mpr hopen)]
  exact if_pos hexhausted

/-- The reset is attempted. -/
theorem recoverStream_of_tolerated (hescalated : w.escalated = false)
    (hopen : w.nextAllowedReset ≤ r.now)
    (htolerated : (w.countFailure r.now).recoveryPolicy.shouldEscalate = false) :
    w.recoverStream reason r =
      if r.returns ∧ classifyWatchdogTrigger reason ≠ .critical then
        { (w.countFailure r.now).countReset reason with
          recoveryPolicy := (w.countFailure r.now).recoveryPolicy.reset
          escalated := false }
      else (w.countFailure r.now).countReset reason := by
  unfold recoverStream
  rw [if_neg (by simp [hescalated]), if_neg (not_lt.mpr hopen)]
  exact if_neg (Bool.eq_false_iff.mp htolerated)

end Recover

/-! ## A reset that returns -/

/-- Nothing is counted. -/
structure Calm (w : RuntimeWatchdog) : Prop where
  notEscalated : w.escalated = false
  policy : w.recoveryPolicy = .ofWatchdog

theorem calm_init : init.Calm := ⟨rfl, rfl⟩

/-- The first failure asks for a delay of a tenth of a second and no escalation. -/
theorem first_failure :
    RecoveryPolicy.ofWatchdog.recordFailure.nextBackoff =
        (100, { RecoveryPolicy.ofWatchdog with retries := 1 }) ∧
      RecoveryPolicy.shouldEscalate { RecoveryPolicy.ofWatchdog with retries := 1 } = false ∧
      RecoveryPolicy.reset { RecoveryPolicy.ofWatchdog with retries := 1 } = .ofWatchdog := by
  decide +kernel

/-- **A recovery of a calm watchdog** is held back, or it resets the stream and leaves the
watchdog calm. -/
theorem recoverStream_cases {w : RuntimeWatchdog} {reason : Text} {r : Recovery} (h : w.Calm)
    (hreason : reason ∈ watchdogReasons) (hreturns : r.returns = true) :
    (r.now < w.nextAllowedReset ∧ w.recoverStream reason r = w) ∨
      (w.nextAllowedReset ≤ r.now ∧ (w.recoverStream reason r).Calm ∧
        (w.recoverStream reason r).resetsTotal = w.resetsTotal + 1 ∧
        (w.recoverStream reason r).nextAllowedReset = binary64 (r.now + binary64 (1 / 10))) := by
  obtain ⟨hbackoff, hescalate, hreset⟩ := first_failure
  by_cases hheld : r.now < w.nextAllowedReset
  · exact .inl ⟨hheld, recoverStream_held reason (.inr hheld)⟩
  · have hopen := not_lt.mp hheld
    have hcounted : w.countFailure r.now =
        { w with
          recoveryPolicy := { RecoveryPolicy.ofWatchdog with retries := 1 }
          nextAllowedReset := binary64 (r.now + binary64 (100 / 1000)) } := by
      rw [countFailure, h.policy, hbackoff]
    refine .inr ⟨hopen, ?_⟩
    rw [recoverStream_of_tolerated reason h.notEscalated hopen (by rw [hcounted]; exact hescalate),
      if_pos ⟨hreturns, classify_ne_critical reason hreason⟩, hcounted]
    refine ⟨⟨rfl, hreset⟩, rfl, ?_⟩
    show binary64 (r.now + binary64 (100 / 1000)) = binary64 (r.now + binary64 (1 / 10))
    norm_num

/-- What a check does to a calm watchdog. -/
structure CheckEffect (w t : RuntimeWatchdog) (fault : Option Text) (now : ℚ) : Prop where
  calm : t.Calm
  /-- Held back, or a reset. -/
  resets : (t.resetsTotal = w.resetsTotal ∧ t.nextAllowedReset = w.nextAllowedReset) ∨
    (w.resetsTotal < t.resetsTotal ∧ t.nextAllowedReset = binary64 (now + binary64 (1 / 10)))
  found : fault ≠ none → w.nextAllowedReset ≤ now → w.resetsTotal < t.resetsTotal

theorem check_effect {w : RuntimeWatchdog} {r : Recovery} (h : w.Calm) (fault : Option Text)
    (hfault : ∀ reason ∈ fault, reason ∈ watchdogReasons) (hreturns : r.returns = true) :
    w.CheckEffect (w.check fault r) fault r.now := by
  cases fault with
  | none => exact ⟨h, .inl ⟨rfl, rfl⟩, fun hne => absurd rfl hne⟩
  | some reason =>
      rcases recoverStream_cases h (hfault reason rfl) hreturns with
        ⟨hheld, hsame⟩ | ⟨hopen, hcalm, htotal, hnext⟩
      · have hcheck : w.check (some reason) r = w := hsame
        rw [hcheck]
        exact ⟨h, .inl ⟨rfl, rfl⟩, fun _ hle => absurd hheld (not_lt.mpr hle)⟩
      · have hlt : w.resetsTotal < (w.check (some reason) r).resetsTotal := by
          show w.resetsTotal < (w.recoverStream reason r).resetsTotal
          omega
        exact ⟨hcalm, .inr ⟨hlt, hnext⟩, fun _ _ => hlt⟩

theorem CheckEffect.total_le {w t : RuntimeWatchdog} {fault : Option Text} {now : ℚ}
    (h : w.CheckEffect t fault now) : w.resetsTotal ≤ t.resetsTotal := by
  rcases h.resets with ⟨hsame, -⟩ | ⟨hlt, -⟩
  · exact hsame.ge
  · exact hlt.le

/-- A check that makes a reset closes the gate for the delay after a first failure. -/
theorem CheckEffect.gate {v w t : RuntimeWatchdog} {fault : Option Text} {now last : ℚ}
    (h : w.CheckEffect t fault now) (hnow : now ≤ last)
    (hbefore : w.resetsTotal = v.resetsTotal ∨
      w.nextAllowedReset ≤ binary64 (last + binary64 (1 / 10))) :
    t.resetsTotal = v.resetsTotal ∨
      t.nextAllowedReset ≤ binary64 (last + binary64 (1 / 10)) := by
  rcases h.resets with ⟨htotal, hsame⟩ | ⟨-, hnext⟩
  · rw [htotal, hsame]
    exact hbefore
  · rw [hnext]
    exact .inr (binary64_mono (add_le_add_left hnow _))

/-! ## One pass -/

/-- A check of the pass finds a fault with this reason. -/
def Shows (c : WatchdogConfig) (reason : Text) (p : Pass) : Prop :=
  workerFault c p.worker = some reason ∨ queueFault c p.queueSize = some reason ∨
    vadFault p.vad = some reason

/-- Every reset in the pass would return. -/
def ResetsReturn (p : Pass) : Prop :=
  p.workerRecovery.returns = true ∧ p.queueRecovery.returns = true ∧
    p.vadRecovery.returns = true

theorem workerFault_mem (c : WatchdogConfig) (view : Option WorkerView) :
    ∀ reason ∈ workerFault c view, reason ∈ watchdogReasons := by
  intro reason hreason
  unfold workerFault at hreason
  split at hreason
  · cases hreason
  · split at hreason
    · split at hreason
      · obtain rfl := Option.some.inj hreason
        decide
      · cases hreason
    · obtain rfl := Option.some.inj hreason
      decide

theorem queueFault_mem (c : WatchdogConfig) (queueSize : ℕ) :
    ∀ reason ∈ queueFault c queueSize, reason ∈ watchdogReasons := by
  intro reason hreason
  unfold queueFault at hreason
  split at hreason
  · obtain rfl := Option.some.inj hreason
    decide
  · cases hreason

theorem vadFault_mem (view : Option VadView) :
    ∀ reason ∈ vadFault view, reason ∈ watchdogReasons := by
  intro reason hreason
  unfold vadFault at hreason
  split at hreason
  · cases hreason
  · split at hreason
    · obtain rfl := Option.some.inj hreason
      decide
    · cases hreason

/-- **One pass leaves the watchdog calm**, and a pass that begins with the gate open and
shows a fault makes a reset. -/
theorem checks_effect (c : WatchdogConfig) {w : RuntimeWatchdog} {p : Pass} (h : w.Calm)
    (hreturns : ResetsReturn p) (hintime : w.InTime p) :
    (checks c w p).Calm ∧
      (w.nextAllowedReset ≤ w.wakes → ∀ reason, Shows c reason p →
        w.resetsTotal < (checks c w p).resetsTotal ∧
          (checks c w p).nextAllowedReset ≤
            binary64 (p.vadRecovery.now + binary64 (1 / 10))) := by
  obtain ⟨hwakes, hqueueNow, hvadNow⟩ := hintime
  obtain ⟨hworkerReturns, hqueueReturns, hvadReturns⟩ := hreturns
  have hworker := check_effect h _ (workerFault_mem c p.worker) hworkerReturns
  have hqueue := check_effect hworker.calm _ (queueFault_mem c p.queueSize) hqueueReturns
  have hvad := check_effect hqueue.calm _ (vadFault_mem p.vad) hvadReturns
  refine ⟨hvad.calm, ?_⟩
  intro hopen reason hshows
  have htotal₁ := hworker.total_le
  have htotal₂ := hqueue.total_le
  have htotal₃ := hvad.total_le
  have hreset : w.resetsTotal < (checks c w p).resetsTotal := by
    -- Where no earlier check has made a reset the gate is still open.
    rcases hshows with hfault | hfault | hfault
    · have hreset := hworker.found (by simp [hfault]) (by linarith)
      exact hreset.trans_le (htotal₂.trans htotal₃)
    · rcases hworker.resets with ⟨-, hsame⟩ | ⟨hreset, -⟩
      · have hreset := hqueue.found (by simp [hfault]) (by rw [hsame]; linarith)
        exact htotal₁.trans_lt (hreset.trans_le htotal₃)
      · exact hreset.trans_le (htotal₂.trans htotal₃)
    · rcases hworker.resets with ⟨-, hsame₁⟩ | ⟨hreset, -⟩
      · rcases hqueue.resets with ⟨-, hsame₂⟩ | ⟨hreset, -⟩
        · have hreset := hvad.found (by simp [hfault]) (by rw [hsame₂, hsame₁]; linarith)
          exact htotal₁.trans_lt (htotal₂.trans_lt hreset)
        · exact htotal₁.trans_lt (hreset.trans_le htotal₃)
      · exact hreset.trans_le (htotal₂.trans htotal₃)
  refine ⟨hreset, ?_⟩
  have hgate := hvad.gate (v := w) le_rfl
    (hqueue.gate hvadNow (hworker.gate (hqueueNow.trans hvadNow) (.inl rfl)))
  exact hgate.resolve_left hreset.ne'

/-! ## Runs with a fault that resets do not cure -/

/-- A run of the loop that shows the same fault in every pass, all of whose resets
return. -/
structure PersistentFault (c : WatchdogConfig) (reason : Text) extends
    InfiniteRun (step c) init where
  shows : ∀ n, Shows c reason (labels n)
  resetsReturn : ∀ n, ResetsReturn (labels n)

namespace PersistentFault

variable {c : WatchdogConfig} {reason : Text}

/-- At most `max_retries` resets, and then the escalation. -/
def EscalatesInTime (r : PersistentFault c reason) : Prop :=
  (∀ n, (r.states n).resetsTotal ≤ RecoveryPolicy.ofWatchdog.maxRetries) ∧
    ∃ n, (r.states n).escalated = true

theorem calm (r : PersistentFault c reason) (n : ℕ) : (r.states n).Calm := by
  induction n with
  | zero =>
      rw [r.starts]
      exact calm_init
  | succ n ih =>
      have hstep := r.steps n
      unfold step at hstep
      split at hstep
      next hintime =>
        have hnext := Option.some.inj hstep
        have hcalm := (checks_effect c ih (r.resetsReturn n) hintime).1
        rw [← hnext]
        exact ⟨hcalm.notEscalated, hcalm.policy⟩
      · cases hstep

/-- **A reset a pass**, where the loop sleeps for as long as the delay after a first
failure. -/
theorem le_resetsTotal (r : PersistentFault c reason) (hinterval : 1 / 10 ≤ c.interval) (n : ℕ) :
    n ≤ (r.states n).resetsTotal ∧ (r.states n).nextAllowedReset ≤ (r.states n).wakes := by
  induction n with
  | zero =>
      rw [r.starts]
      exact ⟨Nat.zero_le _, le_rfl⟩
  | succ n ih =>
      obtain ⟨hcount, hopen⟩ := ih
      have hstep := r.steps n
      unfold step at hstep
      split at hstep
      next hintime =>
        have hnext := Option.some.inj hstep
        obtain ⟨hlt, hgate⟩ := (checks_effect c (r.calm n) (r.resetsReturn n) hintime).2 hopen
          reason (r.shows n)
        rw [← hnext]
        refine ⟨?_, ?_⟩
        · show n + 1 ≤ (checks c (r.states n) (r.labels n)).resetsTotal
          omega
        · exact hgate.trans (binary64_mono (add_le_add_right (binary64_mono hinterval) _))
      · cases hstep

/-- **A fault that resets do not cure is never given up**: the watchdog does not escalate,
and resets the stream without end. -/
theorem not_escalates_of_persistent (r : PersistentFault c reason) :
    ¬ r.EscalatesInTime ∧ (∀ n, (r.states n).escalated = false) ∧
      (1 / 10 ≤ c.interval → ∀ n, n ≤ (r.states n).resetsTotal) := by
  refine ⟨?_, fun n => (r.calm n).notEscalated, fun hinterval n => (r.le_resetsTotal hinterval n).1⟩
  rintro ⟨-, n, hescalated⟩
  rw [(r.calm n).notEscalated] at hescalated
  cases hescalated

end PersistentFault

/-- A dead worker thread, seen as soon as the loop wakes. -/
def deadWorker (w : RuntimeWatchdog) : Pass where
  worker := some ⟨false, 0, false⟩
  queueSize := 0
  vad := none
  workerRecovery := ⟨w.wakes, true⟩
  queueRecovery := ⟨w.wakes, true⟩
  vadRecovery := ⟨w.wakes, true⟩

/-- The worker thread is dead for ever. -/
def deadWorkerRun : PersistentFault .default workerDead where
  toInfiniteRun := .drive (fun _ => True) deadWorker trivial fun _ _ =>
    ⟨_, if_pos ⟨le_rfl, le_rfl, le_rfl⟩, trivial⟩
  shows _ := .inl rfl
  resetsReturn _ := ⟨rfl, rfl, rfl⟩

theorem deadWorker_never_given_up :
    ¬ deadWorkerRun.EscalatesInTime ∧ ∀ n, n ≤ (deadWorkerRun.states n).resetsTotal := by
  obtain ⟨hescalates, -, hresets⟩ := deadWorkerRun.not_escalates_of_persistent
  exact ⟨hescalates, hresets (by norm_num [WatchdogConfig.default])⟩

/-- After ten passes the stream has been reset ten times, and nothing has escalated. -/
theorem deadWorker_reset_ten_times :
    (deadWorkerRun.states 10).resetsTotal = 10 ∧ (deadWorkerRun.states 10).escalated = false ∧
      ¬ deadWorkerRun.EscalatesInTime := by
  have hten : (deadWorkerRun.states 10).resetsTotal = 10 ∧
      (deadWorkerRun.states 10).escalated = false := by decide +kernel
  refine ⟨hten.1, hten.2, ?_⟩
  rintro ⟨hbound, -⟩
  have hle := hbound 10
  rw [hten.1] at hle
  exact absurd hle (by decide)

end RuntimeWatchdog

end Hardening
end Supervision
end AvaListener
