import AvaListener.Library.Runs
import AvaListener.Supervision.RestartPolicy

/-!
# The supervisor's monitor loop

`Supervisor._monitor_loop` of `runtime/supervisor/supervisor.py` and the recovery
actions it calls, between the threads that stop the supervisor, note heartbeats or
end the worker process.

The loop is cut where it sleeps or waits: before an iteration, before the recovery
action that follows a backoff, and before the respawn that follows the termination
of a stale worker.  `Popen` may raise anywhere; the loop swallows the exception.
Writes to the supervisor's own stdout are taken to succeed, and of the events
written there `steps` keeps those of kind `recovery_step`.
-/

namespace AvaListener
namespace Supervision

open Library

/-- A process behind a `Popen` handle. -/
inductive WorkerProc where
  | running
  | exited
  deriving DecidableEq, Repr

/-- Where the monitor thread is. -/
inductive Phase where
  /-- Between two iterations. -/
  | idle
  /-- Sleeping before a recovery action. -/
  | backoff (step : RecoveryStep) (wakeAt : ℚ)
  /-- Waiting for a stale worker to end. -/
  | terminating
  /-- The loop has returned. -/
  | finished
  deriving DecidableEq

structure Config where
  restartPolicy : RestartPolicy
  heartbeatTimeoutS : ℚ
  /-- The clock when the first worker has been spawned. -/
  startedAt : ℚ

structure Supervisor where
  heartbeatTimeoutS : ℚ
  restartPolicy : RestartPolicy
  recoveryPolicy : RecoveryPolicy
  workerProc : Option WorkerProc
  lastHeartbeat : ℚ
  /-- `_stop_event` is set. -/
  stopped : Bool
  degraded : Bool
  phase : Phase
  /-- The steps of the `recovery_step` events, one for each exit noticed. -/
  steps : List RecoveryStep
  /-- The latest clock reading. -/
  clock : ℚ
  deriving DecidableEq

inductive Label where
  /-- The worker process ends, by itself or because it is killed. -/
  | workerExits
  | heartbeat (now : ℚ)
  /-- `stop`, from another thread. -/
  | stop
  /-- An iteration of the loop, up to its first wait. -/
  | iterate (now : ℚ)
  /-- The recovery action after the backoff: the readings of `can_restart`, of
  `record_restart` and of `_spawn_worker`, and whether `Popen` returns. -/
  | act (checked recorded beat : ℚ) (popen : Bool)
  /-- The rest of `_restart_worker`: whether the termination went without an
  exception, the readings and whether `Popen` returns. -/
  | respawn (terminated : Bool) (recorded beat : ℚ) (popen : Bool)
  deriving DecidableEq

namespace Supervisor

/-- The state after the first `_spawn_worker` of `start`. -/
def init (c : Config) : Supervisor where
  heartbeatTimeoutS := c.heartbeatTimeoutS
  restartPolicy := c.restartPolicy
  recoveryPolicy := .create
  workerProc := some .running
  lastHeartbeat := c.startedAt
  stopped := false
  degraded := false
  phase := .idle
  steps := []
  clock := c.startedAt

/-! ## The actions -/

/-- `_spawn_worker`.  An exception of `Popen` leaves the old handle in place. -/
def spawnWorker (s : Supervisor) (beat : ℚ) (popen : Bool) : Supervisor :=
  if popen then { s with workerProc := some .running, lastHeartbeat := beat, clock := beat }
  else s

/-- `_handle_worker_exit`. -/
def handleWorkerExit (s : Supervisor) (checked recorded beat : ℚ) (popen : Bool) : Supervisor :=
  let answer := s.restartPolicy.canRestart checked
  let s := { s with workerProc := none, restartPolicy := answer.2 }
  if answer.1 then
    { s with restartPolicy := s.restartPolicy.recordRestart recorded }.spawnWorker beat popen
  -- `worker_restart_throttled`
  else s

/-- `_action_runtime_restart`. -/
def actionRuntimeRestart (s : Supervisor) (beat : ℚ) (popen : Bool) : Supervisor :=
  { s with recoveryPolicy := s.recoveryPolicy.reset, restartPolicy := .default }.spawnWorker
    beat popen

/-- `_action_degraded_mode`. -/
def actionDegradedMode (s : Supervisor) : Supervisor :=
  { s with degraded := true, stopped := true }

/-- `stop`: the worker is only asked to end, and does so by `workerExits`. -/
def stop (s : Supervisor) : Supervisor := { s with stopped := true }

/-- `_action_fatal`. -/
def actionFatal (s : Supervisor) : Supervisor := { s with degraded := true }.stop

/-- The dispatch on the recovery step. -/
def recoveryAction (s : Supervisor) (checked recorded beat : ℚ) (popen : Bool) :
    RecoveryStep → Supervisor
  | .workerRestart => s.handleWorkerExit checked recorded beat popen
  | .providerReload => s.handleWorkerExit checked recorded beat popen
  | .runtimeRestart => s.actionRuntimeRestart beat popen
  | .degradedMode => s.actionDegradedMode
  | .fatal => s

/-- The end of `_restart_worker`, whose `finally` spawns in any case. -/
def restartWorker (s : Supervisor) (terminated : Bool) (recorded beat : ℚ) (popen : Bool) :
    Supervisor :=
  let s :=
    if terminated then
      { s with
        workerProc := some .exited
        restartPolicy := s.restartPolicy.recordRestart recorded }
    else s
  s.spawnWorker beat popen

/-- The branch of an iteration that finds the worker exited. -/
def noticeExit (s : Supervisor) (now : ℚ) : Supervisor :=
  let policy := s.recoveryPolicy.recordFailure
  let s := { s with recoveryPolicy := policy, steps := s.steps ++ [policy.currentStep] }
  if policy.currentStep = .fatal then { s.actionFatal with phase := .finished }
  else { s with phase := .backoff policy.currentStep (now + policy.nextBackoffMs / 1000) }

/-- An iteration of the loop, up to its first wait. -/
def iteration (s : Supervisor) (now : ℚ) : Supervisor :=
  if s.stopped then { s with phase := .finished }
  else
    match s.workerProc with
    | none => s
    | some .exited => s.noticeExit now
    | some .running =>
        if s.heartbeatTimeoutS < now - s.lastHeartbeat then { s with phase := .terminating }
        else s

/-! ## The system -/

/-- One step of one of the threads; `none` where the label is not enabled. -/
def step (s : Supervisor) : Label → Option Supervisor
  | .workerExits =>
      if s.workerProc = some .running then some { s with workerProc := some .exited } else none
  | .heartbeat now =>
      if s.clock ≤ now then some { s with lastHeartbeat := now, clock := now } else none
  | .stop => some s.stop
  | .iterate now =>
      if s.phase = .idle ∧ s.clock ≤ now then some ({ s with clock := now }.iteration now)
      else none
  | .act checked recorded beat popen =>
      match s.phase with
      | .backoff step wakeAt =>
          if s.clock ≤ checked ∧ wakeAt ≤ checked ∧ checked ≤ recorded ∧ recorded ≤ beat then
            some { (s.recoveryAction checked recorded beat popen step) with
              phase := .idle, clock := beat }
          else none
      | _ => none
  | .respawn terminated recorded beat popen =>
      if s.phase = .terminating ∧ s.clock ≤ recorded ∧ recorded ≤ beat then
        some { (s.restartWorker terminated recorded beat popen) with
          phase := .idle, clock := beat }
      else none

/-! ## What the actions leave alone -/

section Frame

variable (s : Supervisor) (now checked recorded beat : ℚ) (terminated popen : Bool)

/-- The fields that no spawn touches. -/
theorem spawnWorker_frame :
    (s.spawnWorker beat popen).recoveryPolicy = s.recoveryPolicy ∧
      (s.spawnWorker beat popen).restartPolicy = s.restartPolicy ∧
      (s.spawnWorker beat popen).stopped = s.stopped ∧
      (s.spawnWorker beat popen).degraded = s.degraded ∧
      (s.spawnWorker beat popen).steps = s.steps := by
  cases popen with
  | false => exact ⟨rfl, rfl, rfl, rfl, rfl⟩
  | true => exact ⟨rfl, rfl, rfl, rfl, rfl⟩

theorem workerProc_spawnWorker :
    (s.spawnWorker beat popen).workerProc = if popen then some .running else s.workerProc := by
  cases popen with
  | false => rfl
  | true => rfl

theorem handleWorkerExit_frame :
    (s.handleWorkerExit checked recorded beat popen).recoveryPolicy = s.recoveryPolicy ∧
      (s.handleWorkerExit checked recorded beat popen).stopped = s.stopped ∧
      (s.handleWorkerExit checked recorded beat popen).degraded = s.degraded ∧
      (s.handleWorkerExit checked recorded beat popen).steps = s.steps := by
  unfold handleWorkerExit
  simp only
  split
  · obtain ⟨hrecovery, -, hstopped, hdegraded, hsteps⟩ := spawnWorker_frame
      { s with
        workerProc := none
        restartPolicy := (s.restartPolicy.canRestart checked).2.recordRestart recorded }
      beat popen
    exact ⟨hrecovery, hstopped, hdegraded, hsteps⟩
  · exact ⟨rfl, rfl, rfl, rfl⟩

theorem restartWorker_frame :
    (s.restartWorker terminated recorded beat popen).recoveryPolicy = s.recoveryPolicy ∧
      (s.restartWorker terminated recorded beat popen).stopped = s.stopped ∧
      (s.restartWorker terminated recorded beat popen).degraded = s.degraded ∧
      (s.restartWorker terminated recorded beat popen).steps = s.steps := by
  cases terminated with
  | false =>
      obtain ⟨hrecovery, -, hstopped, hdegraded, hsteps⟩ := spawnWorker_frame s beat popen
      exact ⟨hrecovery, hstopped, hdegraded, hsteps⟩
  | true =>
      obtain ⟨hrecovery, -, hstopped, hdegraded, hsteps⟩ := spawnWorker_frame
        { s with
          workerProc := some .exited
          restartPolicy := s.restartPolicy.recordRestart recorded } beat popen
      exact ⟨hrecovery, hstopped, hdegraded, hsteps⟩

end Frame

end Supervisor

end Supervision
end AvaListener
