import AvaListener.Supervision.Watchdog

/-!
# The restart manager

`RestartManager` of `runtime/hardening/restart_manager.py`: for each managed subsystem a
recovery policy, a count of restarts and the time of the last one.  A request counts a
failure and computes the delay that it returns; then it invokes the restart handler, at
once, unless the failure it has counted exhausts the policy.

The cooldown lengthens the delay that is returned.  It does not hold the handler back.
-/

namespace AvaListener
namespace Supervision
namespace Hardening

open Library

/-! ## Subsystems -/

inductive Subsystem where
  | audio
  | asr
  | vad
  | matcher
  deriving DecidableEq

namespace Subsystem

def name : Subsystem → Text
  | audio => "audio".toList
  | asr => "asr".toList
  | vad => "vad".toList
  | matcher => "matcher".toList

/-- `MANAGED_SUBSYSTEMS`. -/
def managed : List Subsystem := [audio, asr, vad, matcher]

/-- `_DEFAULT_POLICIES`. -/
def defaultPolicy : Subsystem → RecoveryPolicy
  | audio => .make 5 200 8000 3
  | asr => .make 5 100 4000 3
  | vad => .make 3 200 3200 2
  | matcher => .make 3 50 800 2

end Subsystem

namespace RecoveryPolicy

/-- No delay of the policy is negative. -/
def BackoffNonneg (p : RecoveryPolicy) : Prop := 0 ≤ p.backoffInitialMs ∧ 0 ≤ p.backoffMaxMs

theorem delay_nonneg {p : RecoveryPolicy} (h : p.BackoffNonneg) : 0 ≤ p.delay := by
  have hpow : (0 : ℚ) ≤ 2 ^ p.retries / 2 :=
    div_nonneg (pow_nonneg (by norm_num) p.retries) (by norm_num)
  exact le_min (mul_nonneg h.1 hpow) h.2

theorem nextBackoff_backoffNonneg {p : RecoveryPolicy} (h : p.BackoffNonneg) :
    p.nextBackoff.2.BackoffNonneg := by
  unfold nextBackoff
  simp only
  split
  · exact h
  · exact h

end RecoveryPolicy

/-! ## Records -/

structure SubsystemRestartRecord where
  name : Text
  policy : RecoveryPolicy
  restartCount : ℕ
  lastRestartTs : ℚ
  cooldownS : ℚ
  deriving DecidableEq

/-- What the restart handler does when it is invoked: it returns, with the clock reading
after it, or raises. -/
inductive HandlerOutcome where
  | returns (finished : ℚ)
  | raises (error : Text)
  deriving DecidableEq

def HandlerOutcome.succeeds : HandlerOutcome → Bool
  | .returns _ => true
  | .raises _ => false

/-- The telemetry of a request. -/
inductive RestartEvent where
  /-- `subsystem_restart_requested` -/
  | requested (reason : Text) (retries maxRetries : ℕ) (delayMs : ℚ) (shouldEscalate : Bool)
  /-- `subsystem_restart_completed` -/
  | completed (restartCount : ℕ)
  /-- `subsystem_restart_failed` -/
  | failed (error : Text)
  deriving DecidableEq

namespace SubsystemRestartRecord

def init (name : Text) (policy : RecoveryPolicy) : SubsystemRestartRecord where
  name := name
  policy := policy
  restartCount := 0
  lastRestartTs := 0
  cooldownS := 2

/-- `record_failure` and `next_backoff`: the delay, and the record with the failure
counted. -/
def countFailure (r : SubsystemRestartRecord) : ℚ × SubsystemRestartRecord :=
  (r.policy.recordFailure.nextBackoff.1, { r with policy := r.policy.recordFailure.nextBackoff.2 })

/-- The delay that is returned, longer than the backoff after a restart too recent. -/
def enforceCooldown (r : SubsystemRestartRecord) (now delayMs : ℚ) : ℚ :=
  if now - r.lastRestartTs < r.cooldownS ∧ 0 < r.lastRestartTs then
    max delayMs ((r.cooldownS - (now - r.lastRestartTs)) * 1000)
  else delayMs

/-- The handler is invoked. -/
def invoke (r : SubsystemRestartRecord) : HandlerOutcome → SubsystemRestartRecord × RestartEvent
  | .returns finished =>
      ({ r with restartCount := r.restartCount + 1, lastRestartTs := finished },
        .completed (r.restartCount + 1))
  | .raises error => (r, .failed error)

/-- The policy is exhausted. -/
def exhausted (r : SubsystemRestartRecord) : Bool := r.policy.shouldEscalate

/-- The delay that a request returns: the backoff for the failure it counts, in the
cooldown no shorter than what is left of that. -/
def requestDelay (r : SubsystemRestartRecord) (now : ℚ) : ℚ :=
  r.countFailure.2.enforceCooldown now r.countFailure.1

/-- The telemetry of a request, taken after the failure is counted. -/
def requested (r : SubsystemRestartRecord) (reason : Text) (now : ℚ) : RestartEvent :=
  .requested reason r.countFailure.2.policy.retries r.countFailure.2.policy.maxRetries
    (r.requestDelay now) r.countFailure.2.exhausted

variable (r : SubsystemRestartRecord)

@[simp] theorem invoke_cooldownS (outcome : HandlerOutcome) :
    (r.invoke outcome).1.cooldownS = r.cooldownS := by
  cases outcome <;> rfl

@[simp] theorem invoke_policy (outcome : HandlerOutcome) :
    (r.invoke outcome).1.policy = r.policy := by
  cases outcome <;> rfl

theorem le_enforceCooldown (now delayMs : ℚ) : delayMs ≤ r.enforceCooldown now delayMs := by
  unfold enforceCooldown
  split
  · exact le_max_left ..
  · exact le_rfl

/-- **The returned delay reaches to the end of the cooldown.** -/
theorem cooldown_le_enforceCooldown {now delayMs : ℚ} (hdelay : 0 ≤ delayMs)
    (hlast : 0 < r.lastRestartTs) :
    r.lastRestartTs + r.cooldownS ≤ now + r.enforceCooldown now delayMs / 1000 := by
  have hbackoff := r.le_enforceCooldown now delayMs
  by_cases hrecent : now - r.lastRestartTs < r.cooldownS
  · have hextra : (r.cooldownS - (now - r.lastRestartTs)) * 1000 ≤
        r.enforceCooldown now delayMs := by
      rw [enforceCooldown, if_pos ⟨hrecent, hlast⟩]
      exact le_max_right ..
    linarith
  · linarith

variable {r}

theorem countFailure_backoffNonneg (h : r.policy.BackoffNonneg) :
    r.countFailure.2.policy.BackoffNonneg :=
  RecoveryPolicy.nextBackoff_backoffNonneg (p := r.policy.recordFailure) h

theorem requestDelay_nonneg (h : r.policy.BackoffNonneg) (now : ℚ) : 0 ≤ r.requestDelay now :=
  (RecoveryPolicy.delay_nonneg (p := r.policy.recordFailure) h).trans
    (r.countFailure.2.le_enforceCooldown now _)

end SubsystemRestartRecord

/-! ## The manager -/

variable {Callable : Type*}

/-- What the outside sees of a request: its telemetry, and the handler being invoked. -/
inductive RestartEffect (Callable : Type*) where
  | emitted (correlationId subsystem : Text) (event : RestartEvent)
  | invoked (subsystem : Text) (handler : Callable)
  deriving DecidableEq

/-- The restart handler of the subsystem is invoked. -/
def RestartEffect.invokes (subsystem : Text) : RestartEffect Callable → Bool
  | .invoked name _ => name = subsystem
  | .emitted .. => false

/-- The `ValueError`s of the manager. -/
inductive RestartError where
  /-- "Unknown subsystem: ... Must be one of ..." -/
  | notManaged (subsystem : Text)
  /-- "Unknown subsystem: ..." -/
  | unknown (subsystem : Text)
  deriving DecidableEq

structure RestartManager (Callable : Type*) where
  records : Dict Text SubsystemRestartRecord
  handlers : Dict Text (Option Callable)

/-- A call of `request_restart` for a subsystem: its arguments, its clock reading, and
what the handler would do. -/
structure RestartRequest where
  reason : Text := "unknown".toList
  correlationId : Text := []
  now : ℚ
  outcome : HandlerOutcome

namespace RestartManager

/-- A manager with these policies in place of the default ones. -/
def withPolicies (policies : Subsystem → RecoveryPolicy) : RestartManager Callable where
  records := Dict.empty.setAll
    (Subsystem.managed.map fun s => (s.name, .init s.name (policies s)))
  handlers := Dict.empty.setAll (Subsystem.managed.map fun s => (s.name, none))

def init : RestartManager Callable := withPolicies Subsystem.defaultPolicy

/-- `register_restart_handler`. -/
def registerRestartHandler (m : RestartManager Callable) (subsystem : Text) (handler : Callable) :
    Except RestartError (RestartManager Callable) :=
  if subsystem ∈ Subsystem.managed.map Subsystem.name then
    .ok { m with handlers := m.handlers.set subsystem (some handler) }
  else .error (.notManaged subsystem)

/-- `self._handlers.get(subsystem)`. -/
def handler? (m : RestartManager Callable) (subsystem : Text) : Option Callable :=
  (m.handlers.get? subsystem).join

def setRecord (m : RestartManager Callable) (subsystem : Text) (r : SubsystemRestartRecord) :
    RestartManager Callable :=
  { m with records := m.records.set subsystem r }

/-- `request_restart`: the delay in milliseconds, and what the outside sees. -/
def requestRestart (m : RestartManager Callable) (subsystem : Text) (q : RestartRequest) :
    Except RestartError (RestartManager Callable × ℚ × List (RestartEffect Callable)) :=
  match m.records.get? subsystem with
  | none => .error (.unknown subsystem)
  | some r =>
      let counted := r.countFailure.2
      let delayMs := r.requestDelay q.now
      let requested := .emitted q.correlationId subsystem (r.requested q.reason q.now)
      match m.handler? subsystem, counted.exhausted with
      | some handler, false =>
          let (restarted, event) := counted.invoke q.outcome
          .ok (m.setRecord subsystem restarted, delayMs,
            [requested, .invoked subsystem handler, .emitted q.correlationId subsystem event])
      | _, _ => .ok (m.setRecord subsystem counted, delayMs, [requested])

/-- `record_success`. -/
def recordSuccess (m : RestartManager Callable) (subsystem : Text) : RestartManager Callable :=
  match m.records.get? subsystem with
  | none => m
  | some r => m.setRecord subsystem { r with policy := r.policy.reset }

def shouldEscalate (m : RestartManager Callable) (subsystem : Text) : Bool :=
  (m.records.get? subsystem).any (·.exhausted)

/-- The policy of the subsystem would still not be exhausted after one more failure. -/
def toleratesFailure (m : RestartManager Callable) (subsystem : Text) : Bool :=
  (m.records.get? subsystem).any fun r => !r.countFailure.2.exhausted

/-! ## What a request does -/

section Request

variable {m t : RestartManager Callable} {subsystem : Text} {q : RestartRequest} {delayMs : ℚ}
  {effects : List (RestartEffect Callable)} {h : Callable}

theorem setRecord_records_self (r : SubsystemRestartRecord) :
    (m.setRecord subsystem r).records.get? subsystem = some r :=
  Dict.get?_set_self ..

theorem requestRestart_of_missing (hrecord : m.records.get? subsystem = none) :
    m.requestRestart subsystem q = .error (.unknown subsystem) := by
  simp only [requestRestart, hrecord]

/-- A failure that leaves retries: the handler is invoked. -/
theorem requestRestart_of_tolerated {r : SubsystemRestartRecord}
    (hrecord : m.records.get? subsystem = some r) (hhandler : m.handler? subsystem = some h)
    (htolerated : r.countFailure.2.exhausted = false) :
    m.requestRestart subsystem q =
      .ok (m.setRecord subsystem (r.countFailure.2.invoke q.outcome).1, r.requestDelay q.now,
        [.emitted q.correlationId subsystem (r.requested q.reason q.now),
          .invoked subsystem h,
          .emitted q.correlationId subsystem (r.countFailure.2.invoke q.outcome).2]) := by
  simp only [requestRestart, hrecord, hhandler, htolerated]

/-- A failure that exhausts the policy, or no handler: the request is only counted. -/
theorem requestRestart_of_held {r : SubsystemRestartRecord}
    (hrecord : m.records.get? subsystem = some r)
    (hheld : m.handler? subsystem = none ∨ r.countFailure.2.exhausted = true) :
    m.requestRestart subsystem q =
      .ok (m.setRecord subsystem r.countFailure.2, r.requestDelay q.now,
        [.emitted q.correlationId subsystem (r.requested q.reason q.now)]) := by
  rcases hheld with hnone | hexhausted
  · simp only [requestRestart, hrecord, hnone]
  · cases hhandler : m.handler? subsystem with
    | none => simp only [requestRestart, hrecord, hhandler]
    | some handler => simp only [requestRestart, hrecord, hhandler, hexhausted]

/-- **A request invokes the handler once**, or not at all if its failure exhausts the
policy. -/
theorem countP_invokes_requestRestart
    (hrequest : m.requestRestart subsystem q = .ok (t, delayMs, effects)) :
    effects.countP (RestartEffect.invokes subsystem) =
      if (m.handler? subsystem).isSome ∧ m.toleratesFailure subsystem then 1 else 0 := by
  cases hrecord : m.records.get? subsystem with
  | none =>
      rw [requestRestart_of_missing hrecord] at hrequest
      cases hrequest
  | some r =>
      cases hhandler : m.handler? subsystem with
      | none =>
          rw [requestRestart_of_held hrecord (.inl hhandler)] at hrequest
          cases hrequest
          simp [RestartEffect.invokes]
      | some handler =>
          cases hexhausted : r.countFailure.2.exhausted with
          | false =>
              rw [requestRestart_of_tolerated hrecord hhandler hexhausted] at hrequest
              cases hrequest
              simp [toleratesFailure, hrecord, hexhausted, RestartEffect.invokes]
          | true =>
              rw [requestRestart_of_held hrecord (.inr hexhausted)] at hrequest
              cases hrequest
              simp [toleratesFailure, hrecord, hexhausted, RestartEffect.invokes]

/-- A request is answered for every subsystem that has a record, whose failures it counts. -/
theorem exists_requestRestart {r : SubsystemRestartRecord}
    (hrecord : m.records.get? subsystem = some r) :
    ∃ record effects,
      m.requestRestart subsystem q =
          .ok (m.setRecord subsystem record, r.requestDelay q.now, effects) ∧
        record.cooldownS = r.cooldownS ∧ record.policy = r.countFailure.2.policy := by
  cases hhandler : m.handler? subsystem with
  | none => exact ⟨_, _, requestRestart_of_held hrecord (.inl hhandler), rfl, rfl⟩
  | some handler =>
      cases hexhausted : r.countFailure.2.exhausted with
      | false =>
          exact ⟨_, _, requestRestart_of_tolerated hrecord hhandler hexhausted,
            r.countFailure.2.invoke_cooldownS q.outcome, r.countFailure.2.invoke_policy q.outcome⟩
      | true => exact ⟨_, _, requestRestart_of_held hrecord (.inr hexhausted), rfl, rfl⟩

end Request

/-! ## The managed subsystems -/

/-- Every subsystem has a record, and a handler is registered for no other name. -/
structure Managed (m : RestartManager Callable) : Prop where
  record : ∀ s : Subsystem, ∃ r, m.records.get? s.name = some r
  handler : ∀ name h, m.handler? name = some h → ∃ s : Subsystem, s.name = name

theorem managed_withPolicies (policies : Subsystem → RecoveryPolicy) :
    Managed (withPolicies policies : RestartManager Callable) where
  record s := ⟨.init s.name (policies s), by cases s <;> rfl⟩
  handler name h hhandler := by
    have hentry : (name, some h) ∈
        (Subsystem.managed.map fun s => (s.name, (none : Option Callable))) := by
      unfold handler? at hhandler
      exact Dict.get?_eq_some_iff.mp (Option.join_eq_some_iff.mp hhandler)
    obtain ⟨s, -, hs⟩ := List.mem_map.mp hentry
    exact ⟨s, (Prod.mk.inj hs).1⟩

namespace Managed

variable {m : RestartManager Callable} {subsystem : Text}

theorem exists_record (hm : m.Managed) {h : Callable} (hhandler : m.handler? subsystem = some h) :
    ∃ r, m.records.get? subsystem = some r := by
  obtain ⟨s, rfl⟩ := hm.handler subsystem h hhandler
  exact hm.record s

theorem setRecord (hm : m.Managed) (r : SubsystemRestartRecord) :
    (m.setRecord subsystem r).Managed where
  record s := by
    by_cases hname : s.name = subsystem
    · exact ⟨r, by rw [hname]; exact setRecord_records_self r⟩
    · obtain ⟨old, hold⟩ := hm.record s
      exact ⟨old, (Dict.get?_set_of_ne m.records r hname).trans hold⟩
  handler := hm.handler

theorem recordSuccess (hm : m.Managed) : (m.recordSuccess subsystem).Managed := by
  unfold RestartManager.recordSuccess
  split
  · exact hm
  · exact hm.setRecord _

theorem registerRestartHandler (hm : m.Managed) {handler : Callable} {t : RestartManager Callable}
    (hregister : m.registerRestartHandler subsystem handler = .ok t) : t.Managed := by
  unfold RestartManager.registerRestartHandler at hregister
  split at hregister
  next hmanaged =>
    cases hregister
    obtain ⟨s, -, rfl⟩ := List.mem_map.mp hmanaged
    refine ⟨hm.record, ?_⟩
    intro name h hhandler
    by_cases hname : name = s.name
    · exact ⟨s, hname.symm⟩
    · refine hm.handler name h ?_
      rwa [handler?, Dict.get?_set_of_ne m.handlers _ hname] at hhandler
  next => cases hregister

theorem requestRestart (hm : m.Managed) {q : RestartRequest} {t : RestartManager Callable}
    {delayMs : ℚ} {effects : List (RestartEffect Callable)}
    (hrequest : m.requestRestart subsystem q = .ok (t, delayMs, effects)) : t.Managed := by
  cases hrecord : m.records.get? subsystem with
  | none =>
      rw [requestRestart_of_missing hrecord] at hrequest
      cases hrequest
  | some r =>
      obtain ⟨record, _, heq, -⟩ := exists_requestRestart (q := q) hrecord
      rw [heq] at hrequest
      cases hrequest
      exact hm.setRecord record

end Managed

end RestartManager

end Hardening
end Supervision
end AvaListener
