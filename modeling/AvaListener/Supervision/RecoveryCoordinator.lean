import AvaListener.Supervision.RestartManager

/-!
# The recovery coordinator

`RecoveryCoordinator` of `runtime/hardening/recovery_coordinator.py` with the classifier of
`runtime/hardening/fault_classifier.py`.  A fault is classified, and the class and the
policy of the subsystem decide what is done.

The policy is asked before the fault is counted, and the restart manager asks it again
afterwards.  A fault that exhausts the policy is answered with `restart`, and nothing is
restarted (`actsAsAnswered_iff`).
-/

namespace AvaListener
namespace Supervision
namespace Hardening

open Library

/-! ## Faults -/

/-- The exception classes that the classifier names, and the others. -/
inductive ExceptionClass where
  | timeoutError
  | queueEmpty
  | queueFull
  | osError
  | fileNotFoundError
  | memoryError
  | systemExit
  | keyboardInterrupt
  | other (name : Text)
  deriving DecidableEq

/-- An exception: the classes it is an instance of, and its text. -/
structure PyException where
  classes : List ExceptionClass
  message : Text

inductive Cause where
  | exception (e : PyException)
  | text (reason : Text)
  | absent

/-- `str(cause)`. -/
def Cause.str : Cause → Text
  | .exception e => e.message
  | .text reason => reason
  | .absent => "None".toList

/-- `_TRANSIENT_EXCEPTIONS`. -/
def transientExceptions : List ExceptionClass := [.timeoutError, .queueEmpty, .queueFull, .osError]

/-- `_CRITICAL_EXCEPTIONS`. -/
def criticalExceptions : List ExceptionClass :=
  [.fileNotFoundError, .memoryError, .systemExit, .keyboardInterrupt]

/-- `classify_exception`: the critical classes come first, since a missing file is an
`OSError` too. -/
def classifyException (e : PyException) : FaultType :=
  if ∃ c ∈ criticalExceptions, c ∈ e.classes then .critical
  else if ∃ c ∈ transientExceptions, c ∈ e.classes then .transient
  else .recoverable

/-- A call of `observe_fault`: its arguments, and what a restart would find. -/
structure FaultReport where
  subsystem : Text
  cause : Cause
  isTimeout : Bool := false
  isQueueOverflow : Bool := false
  isWatchdog : Bool := false
  correlationId : Text := []
  now : ℚ
  outcome : HandlerOutcome

/-- `classify`. -/
def FaultReport.classify (f : FaultReport) : FaultType :=
  if f.isTimeout ∨ f.isQueueOverflow then .transient
  else
    match f.cause with
    | .exception e => classifyException e
    | .text reason => if f.isWatchdog then classifyWatchdogTrigger reason else .recoverable
    | .absent => .recoverable

/-! ## The coordinator -/

inductive RecoveryAction where
  | recover
  | restart
  | escalate
  | shutdown
  deriving DecidableEq

inductive RecoveryEvent where
  /-- `fault_classified` -/
  | faultClassified (faultType : FaultType) (cause : Text) (isWatchdog isTimeout : Bool)
  /-- `recovery_action` -/
  | recoveryAction (action : RecoveryAction) (cause : Text)
  /-- `recovery_escalated` -/
  | recoveryEscalated (cause : Text) (escalationCount : ℕ)
  /-- `critical_shutdown` -/
  | criticalShutdown (cause : Text)
  /-- `recovery_success` -/
  | recoverySuccess
  deriving DecidableEq

variable {Callable : Type*}

inductive RecoveryEffect (Callable : Type*) where
  | manager (effect : RestartEffect Callable)
  | emitted (correlationId subsystem : Text) (event : RecoveryEvent)
  | shutdown (callback : Callable)
  deriving DecidableEq

/-- The restart handler of the subsystem is invoked. -/
def RecoveryEffect.invokes (subsystem : Text) : RecoveryEffect Callable → Bool
  | .manager effect => effect.invokes subsystem
  | .emitted .. => false
  | .shutdown _ => false

/-- How often the restart handler of the subsystem is invoked. -/
def invocations (subsystem : Text) (effects : List (RecoveryEffect Callable)) : ℕ :=
  effects.countP (RecoveryEffect.invokes subsystem)

structure RecoveryCoordinator (Callable : Type*) where
  restartMgr : RestartManager Callable
  shutdownCb : Option Callable
  escalationLog : Dict Text ℕ

/-- The answer of a call, and what the outside sees of it. -/
structure Response (Callable : Type*) where
  answer : Except RestartError RecoveryAction
  effects : List (RecoveryEffect Callable)

namespace RecoveryCoordinator

def init (restartMgr : RestartManager Callable) (shutdownCb : Option Callable) :
    RecoveryCoordinator Callable where
  restartMgr := restartMgr
  shutdownCb := shutdownCb
  escalationLog := Dict.empty

variable (c : RecoveryCoordinator Callable) (f : FaultReport)

/-- `_do_recover`. -/
def doRecover : Response Callable where
  answer := .ok .recover
  effects := [.emitted f.correlationId f.subsystem (.recoveryAction .recover f.cause.str)]

/-- `_do_restart`. -/
def doRestart : RecoveryCoordinator Callable × Response Callable :=
  match c.restartMgr.requestRestart f.subsystem
    ⟨f.cause.str, f.correlationId, f.now, f.outcome⟩ with
  | .error e => (c, ⟨.error e, []⟩)
  | .ok (restartMgr, _, effects) =>
      ({ c with restartMgr := restartMgr },
        ⟨.ok .restart, effects.map .manager ++
          [.emitted f.correlationId f.subsystem (.recoveryAction .restart f.cause.str)]⟩)

/-- `_do_escalate`. -/
def doEscalate : RecoveryCoordinator Callable × Response Callable :=
  let escalations := (c.escalationLog.get? f.subsystem).getD 0 + 1
  ({ c with escalationLog := c.escalationLog.set f.subsystem escalations },
    ⟨.ok .escalate,
      [.emitted f.correlationId f.subsystem (.recoveryEscalated f.cause.str escalations)]⟩)

/-- `_do_shutdown`: what the callback raises is only logged. -/
def doShutdown : Response Callable where
  answer := .ok .shutdown
  effects := .emitted f.correlationId f.subsystem (.criticalShutdown f.cause.str) ::
    c.shutdownCb.toList.map .shutdown

/-- The action for a fault of this class. -/
def dispatch : FaultType → RecoveryCoordinator Callable × Response Callable
  | .critical => (c, c.doShutdown f)
  | .transient => (c, doRecover f)
  | .recoverable =>
      if c.restartMgr.shouldEscalate f.subsystem then c.doEscalate f else c.doRestart f

/-- `observe_fault`. -/
def observeFault : RecoveryCoordinator Callable × Response Callable :=
  let (c', response) := c.dispatch f f.classify
  (c', { response with
    effects := .emitted f.correlationId f.subsystem
      (.faultClassified f.classify f.cause.str f.isWatchdog f.isTimeout) :: response.effects })

/-- `record_recovery_success`. -/
def recordRecoverySuccess (subsystem : Text) :
    RecoveryCoordinator Callable × List (RecoveryEffect Callable) :=
  ({ c with
      restartMgr := c.restartMgr.recordSuccess subsystem
      escalationLog := c.escalationLog.erase subsystem },
    [.emitted [] subsystem .recoverySuccess])

/-! ## One fault -/

/-- The answer says what was done: `restart` where the restart handler was invoked once,
anything else where it was not invoked. -/
structure ActsAsAnswered (subsystem : Text) (r : Response Callable) : Prop where
  restart : r.answer = .ok .restart ↔ invocations subsystem r.effects = 1
  other : ∀ action, r.answer = .ok action → action ≠ .restart →
    invocations subsystem r.effects = 0

/-- If it comes to a restart, the policy is not exhausted by this fault. -/
def RestartTolerated (c : RecoveryCoordinator Callable) (f : FaultReport) : Prop :=
  f.classify = .recoverable → c.restartMgr.shouldEscalate f.subsystem = false →
    c.restartMgr.toleratesFailure f.subsystem = true

/-- A response without a restart acts as answered if nothing is invoked. -/
theorem ActsAsAnswered.of_idle {subsystem : Text} {r : Response Callable} {action : RecoveryAction}
    (hanswer : r.answer = .ok action) (haction : action ≠ .restart)
    (hcount : invocations subsystem r.effects = 0) : ActsAsAnswered subsystem r := by
  refine ⟨?_, fun _ _ _ => hcount⟩
  rw [hanswer, hcount]
  simp [haction]

theorem actsAsAnswered_of_restart {subsystem : Text} {r : Response Callable}
    (hanswer : r.answer = .ok .restart) :
    ActsAsAnswered subsystem r ↔ invocations subsystem r.effects = 1 := by
  constructor
  · rintro ⟨hrestart, -⟩
    exact hrestart.mp hanswer
  · intro hcount
    refine ⟨iff_of_true hanswer hcount, ?_⟩
    intro action hother haction
    rw [hanswer] at hother
    cases hother
    exact absurd rfl haction

variable {c f}

theorem restartTolerated_of_ne (h : f.classify ≠ .recoverable) : RestartTolerated c f :=
  fun hrecoverable => absurd hrecoverable h

/-- The telemetry of the classification invokes nothing. -/
theorem actsAsAnswered_observeFault (subsystem : Text) :
    ActsAsAnswered subsystem (c.observeFault f).2 ↔
      ActsAsAnswered subsystem (c.dispatch f f.classify).2 := by
  have hcount : invocations subsystem (c.observeFault f).2.effects =
      invocations subsystem (c.dispatch f f.classify).2.effects := by
    simp [observeFault, invocations, RecoveryEffect.invokes]
  constructor
  · rintro ⟨hrestart, hother⟩
    exact ⟨hcount ▸ hrestart, hcount ▸ hother⟩
  · rintro ⟨hrestart, hother⟩
    exact ⟨hcount ▸ hrestart, hcount ▸ hother⟩

theorem invocations_doShutdown (subsystem : Text) :
    invocations subsystem (c.doShutdown f).effects = 0 := by
  cases hcallback : c.shutdownCb with
  | none => simp [doShutdown, invocations, hcallback, RecoveryEffect.invokes]
  | some callback => simp [doShutdown, invocations, hcallback, RecoveryEffect.invokes]

/-- A restart is answered as one, whether or not the manager invokes the handler. -/
theorem doRestart_spec {h : Callable} {r : SubsystemRestartRecord}
    (hhandler : c.restartMgr.handler? f.subsystem = some h)
    (hrecord : c.restartMgr.records.get? f.subsystem = some r) :
    (c.doRestart f).2.answer = .ok .restart ∧
      invocations f.subsystem (c.doRestart f).2.effects =
        if c.restartMgr.toleratesFailure f.subsystem then 1 else 0 := by
  obtain ⟨record, effects, hrequest, -⟩ := RestartManager.exists_requestRestart
    (q := ⟨f.cause.str, f.correlationId, f.now, f.outcome⟩) hrecord
  have hcount := RestartManager.countP_invokes_requestRestart hrequest
  rw [hhandler, Option.isSome_some] at hcount
  have hmap : (RecoveryEffect.invokes f.subsystem ∘ RecoveryEffect.manager) =
      (RestartEffect.invokes f.subsystem : RestartEffect Callable → Bool) := rfl
  refine ⟨?_, ?_⟩
  · simp only [doRestart, hrequest]
  · simp [doRestart, hrequest, invocations, List.countP_map, hmap, RecoveryEffect.invokes, hcount]

/-- **One fault** is answered with what was done exactly if it does not exhaust the
policy on its way to a restart. -/
theorem actsAsAnswered_iff {h : Callable} {r : SubsystemRestartRecord}
    (hhandler : c.restartMgr.handler? f.subsystem = some h)
    (hrecord : c.restartMgr.records.get? f.subsystem = some r) :
    ActsAsAnswered f.subsystem (c.observeFault f).2 ↔ RestartTolerated c f := by
  rw [actsAsAnswered_observeFault]
  cases hclass : f.classify with
  | critical =>
      exact iff_of_true (.of_idle rfl nofun (invocations_doShutdown _))
        (restartTolerated_of_ne (by simp [hclass]))
  | transient =>
      exact iff_of_true (.of_idle rfl nofun rfl) (restartTolerated_of_ne (by simp [hclass]))
  | recoverable =>
      cases hescalate : c.restartMgr.shouldEscalate f.subsystem with
      | true =>
          rw [dispatch, if_pos hescalate]
          refine iff_of_true (.of_idle rfl nofun rfl) ?_
          intro _ hnot
          rw [hescalate] at hnot
          cases hnot
      | false =>
          obtain ⟨hanswer, hcount⟩ := doRestart_spec hhandler hrecord
          rw [dispatch, if_neg (by simp [hescalate]), actsAsAnswered_of_restart hanswer, hcount]
          simp [RestartTolerated, hclass, hescalate]

/-! ## Sequences of calls -/

/-- The calls that reach the coordinator and its manager. -/
inductive Call (Callable : Type*) where
  | registerRestartHandler (subsystem : Text) (handler : Callable)
  | observeFault (f : FaultReport)
  | recordRecoverySuccess (subsystem : Text)

/-- A call, with what the outside sees of it. -/
def call (c : RecoveryCoordinator Callable) :
    Call Callable → RecoveryCoordinator Callable × List (RecoveryEffect Callable)
  | .registerRestartHandler subsystem handler =>
      match c.restartMgr.registerRestartHandler subsystem handler with
      | .ok restartMgr => ({ c with restartMgr := restartMgr }, [])
      | .error _ => (c, [])
  | .observeFault f => ((c.observeFault f).1, (c.observeFault f).2.effects)
  | .recordRecoverySuccess subsystem => c.recordRecoverySuccess subsystem

theorem managed_dispatch (hc : c.restartMgr.Managed) (faultType : FaultType) :
    (c.dispatch f faultType).1.restartMgr.Managed := by
  cases faultType with
  | critical => exact hc
  | transient => exact hc
  | recoverable =>
      simp only [dispatch]
      split
      · exact hc
      · unfold doRestart
        split
        · exact hc
        next hrequest => exact hc.requestRestart hrequest

theorem managed_call (hc : c.restartMgr.Managed) (l : Call Callable) :
    (c.call l).1.restartMgr.Managed := by
  cases l with
  | registerRestartHandler subsystem handler =>
      simp only [call]
      split
      next hregister => exact hc.registerRestartHandler hregister
      · exact hc
  | observeFault f => exact managed_dispatch hc f.classify
  | recordRecoverySuccess subsystem => exact hc.recordSuccess

/-- Every fault of a subsystem with a handler is answered with what was done. -/
def AnswersActs (start : RecoveryCoordinator Callable) (calls : List (Call Callable)) : Prop :=
  ∀ c f h, (c, .observeFault f) ∈ visits call start calls →
    c.restartMgr.handler? f.subsystem = some h → ActsAsAnswered f.subsystem (c.observeFault f).2

/-- No fault of a subsystem with a handler exhausts its policy on the way to a restart. -/
def RestartsTolerated (start : RecoveryCoordinator Callable) (calls : List (Call Callable)) :
    Prop :=
  ∀ c f h, (c, .observeFault f) ∈ visits call start calls →
    c.restartMgr.handler? f.subsystem = some h → RestartTolerated c f

/-- **Restarts are answered where they are made** exactly if no fault exhausts a policy on
its way to a restart. -/
theorem answersActs_iff (policies : Subsystem → RecoveryPolicy) (shutdownCb : Option Callable)
    (calls : List (Call Callable)) :
    AnswersActs (init (.withPolicies policies) shutdownCb) calls ↔
      RestartsTolerated (init (.withPolicies policies) shutdownCb) calls := by
  refine forall₃_congr fun c f h => forall₂_congr fun hvisit hhandler => ?_
  have hmanaged := (visits_invariant call (fun c => c.restartMgr.Managed) calls
    (RestartManager.managed_withPolicies policies) (fun t l _ ht => managed_call ht l) _ hvisit).1
  obtain ⟨r, hrecord⟩ := hmanaged.exists_record hhandler
  exact actsAsAnswered_iff hhandler hrecord

/-- A recoverable fault of the decoder. -/
def streamError (now : ℚ) : FaultReport where
  subsystem := Subsystem.asr.name
  cause := .exception ⟨[.other "RuntimeError".toList], "stream error".toList⟩
  now := now
  outcome := .returns now

/-- With the default policy the fifth fault in a row is answered with `restart`, and the
handler is not invoked. -/
theorem answersActs_fails :
    ¬ AnswersActs (init .init none)
      ([.registerRestartHandler Subsystem.asr.name (), .observeFault (streamError 10),
        .observeFault (streamError 20), .observeFault (streamError 30),
        .observeFault (streamError 40)] ++ [.observeFault (streamError 50)]) := by
  intro hacts
  have hfifth := hacts _ (streamError 50) ()
    (by rw [visits_append]; exact List.mem_append_right _ (List.mem_singleton_self _))
    (by decide +kernel)
  exact absurd (hfifth.restart.mp (by decide +kernel)) (by decide +kernel)

end RecoveryCoordinator

end Hardening
end Supervision
end AvaListener
