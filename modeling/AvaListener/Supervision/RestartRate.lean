import AvaListener.Library.SlidingWindow
import AvaListener.Supervision.Monitor

/-!
# How often a worker is respawned

`RestartPolicy` is a sliding-window limiter, but only `_handle_worker_exit` asks it
before a respawn.  The restart after a stale heartbeat is recorded and not asked
about, and the `runtime_restart` action respawns and puts a new policy with default
limits in place of the configured one.

A run that leaves these two alone stays below the configured limit
(`respawns_withinRate`).
-/

namespace AvaListener
namespace Supervision

open Library

namespace Supervisor

/-- When a step respawns the worker, if it does: the time of its record, or of the
spawn where nothing is recorded. -/
def respawnAt (s : Supervisor) : Label → Option ℚ
  | .act checked recorded beat popen =>
      match s.phase with
      | .backoff .workerRestart _ | .backoff .providerReload _ =>
          if (s.restartPolicy.canRestart checked).1 ∧ popen then some recorded else none
      | .backoff .runtimeRestart _ => if popen then some beat else none
      | _ => none
  | .respawn terminated recorded beat popen =>
      if popen then some (if terminated then recorded else beat) else none
  | _ => none

/-- The times of the respawns along a schedule. -/
def respawns : Supervisor → List Label → List ℚ
  | _, [] => []
  | s, l :: rest =>
      match s.step l with
      | none => []
      | some t => (s.respawnAt l).toList ++ respawns t rest

/-- The action under way is no runtime restart. -/
def keepsPolicy (s : Supervisor) : Bool :=
  match s.phase with
  | .backoff .runtimeRestart _ => false
  | _ => true

/-- No runtime restart, and a respawn after a stale heartbeat only where the policy
would allow one and records it. -/
def Throttled (s : Supervisor) : Label → Prop
  | .act .. => s.keepsPolicy = true
  | .respawn terminated recorded _ popen =>
      popen = true → terminated = true ∧ (s.restartPolicy.canRestart recorded).1 = true
  | _ => True

instance decidableThrottled (s : Supervisor) : ∀ l, Decidable (s.Throttled l)
  | .act .. => inferInstanceAs (Decidable (s.keepsPolicy = true))
  | .respawn terminated recorded _ popen =>
      inferInstanceAs (Decidable
        (popen = true → terminated = true ∧ (s.restartPolicy.canRestart recorded).1 = true))
  | .workerExits | .heartbeat _ | .stop | .iterate _ => isTrue trivial

end Supervisor

/-! ## The policy as a limiter -/

/-- At time `now` the policy remembers what counts of the respawns so far, and these
have stayed below its limit. -/
structure Limiting (maxRestarts : ℤ) (windowS now : ℚ) (done : List ℚ) (p : RestartPolicy) :
    Prop where
  limit : p.maxRestarts = maxRestarts
  width : p.windowS = windowS
  remembers : Remembers windowS now p.timestamps done
  rate : WithinRate maxRestarts.toNat windowS done

namespace Limiting

variable {maxRestarts : ℤ} {windowS clock checked now : ℚ} {done : List ℚ} {p : RestartPolicy}

theorem later (h : Limiting maxRestarts windowS clock done p) (hle : clock ≤ now) :
    Limiting maxRestarts windowS now done p :=
  { h with remembers := h.remembers.later hle }

theorem prune (h : Limiting maxRestarts windowS now done p) :
    Limiting maxRestarts windowS now done (p.prune now) where
  limit := h.limit
  width := h.width
  remembers := h.remembers.forget fun _ ht => h.width ▸ RestartPolicy.lt_of_stale ht
  rate := h.rate

/-- A record that no respawn follows. -/
theorem note (h : Limiting maxRestarts windowS now done p) :
    Limiting maxRestarts windowS now done (p.recordRestart now) :=
  prune { h with remembers := h.remembers.note now }

/-- A respawn that the policy allows keeps the rate. -/
theorem rate_append (h : Limiting maxRestarts windowS clock done p) (hchecked : clock ≤ checked)
    (hnow : checked ≤ now) (hallowed : (p.canRestart checked).1 = true) :
    WithinRate maxRestarts.toNat windowS (done ++ [now]) := by
  have hroom : (p.prune checked).timestamps.length < maxRestarts.toNat := by
    -- `can_restart` compares an integer limit with the number of stamps it kept.
    have hlt : ((p.prune checked).timestamps.length : ℤ) < p.maxRestarts :=
      of_decide_eq_true hallowed
    rw [h.limit] at hlt
    omega
  exact h.rate.append (h.later hchecked).prune.remembers hroom hnow

/-- A respawn that is checked, then recorded. -/
theorem respawn (h : Limiting maxRestarts windowS clock done p) (hchecked : clock ≤ checked)
    (hnow : checked ≤ now) (hallowed : (p.canRestart checked).1 = true) :
    Limiting maxRestarts windowS now (done ++ [now]) ((p.prune checked).recordRestart now) :=
  have hpruned := ((h.later hchecked).prune).later hnow
  prune { hpruned with
    remembers := hpruned.remembers.record now
    rate := h.rate_append hchecked hnow hallowed }

/-- A respawn that is only recorded, where a check would have allowed it. -/
theorem respawn_unasked (h : Limiting maxRestarts windowS clock done p) (hnow : clock ≤ now)
    (hallowed : (p.canRestart now).1 = true) :
    Limiting maxRestarts windowS now (done ++ [now]) (p.recordRestart now) :=
  prune { h with
    remembers := (h.remembers.later hnow).record now
    rate := h.rate_append hnow le_rfl hallowed }

end Limiting

/-! ## Runs -/

namespace Supervisor

variable {maxRestarts : ℤ} {windowS : ℚ} {done : List ℚ} {s t : Supervisor}

theorem canRestart_snd (p : RestartPolicy) (now : ℚ) : (p.canRestart now).2 = p.prune now := rfl

/-- An iteration of the loop leaves the policy and the clock alone. -/
theorem iteration_frame (s : Supervisor) (now : ℚ) :
    (s.iteration now).restartPolicy = s.restartPolicy ∧ (s.iteration now).clock = s.clock := by
  unfold iteration
  split
  · exact ⟨rfl, rfl⟩
  · split
    · exact ⟨rfl, rfl⟩
    · unfold noticeExit
      simp only
      split
      · exact ⟨rfl, rfl⟩
      · exact ⟨rfl, rfl⟩
    · split
      · exact ⟨rfl, rfl⟩
      · exact ⟨rfl, rfl⟩

theorem restartPolicy_spawnWorker (s : Supervisor) (beat : ℚ) (popen : Bool) :
    (s.spawnWorker beat popen).restartPolicy = s.restartPolicy :=
  (spawnWorker_frame s beat popen).2.1

/-- `_handle_worker_exit` asks the policy first. -/
theorem limiting_handleWorkerExit {checked recorded : ℚ}
    (h : Limiting maxRestarts windowS s.clock done s.restartPolicy)
    (hchecked : s.clock ≤ checked) (hrecorded : checked ≤ recorded) (beat : ℚ) (popen : Bool) :
    Limiting maxRestarts windowS recorded
      (done ++ (if (s.restartPolicy.canRestart checked).1 ∧ popen then some recorded
        else none).toList)
      (s.handleWorkerExit checked recorded beat popen).restartPolicy := by
  have hpruned := ((h.later hchecked).prune).later hrecorded
  unfold handleWorkerExit
  by_cases hallowed : (s.restartPolicy.canRestart checked).1 = true
  · simp only [hallowed, if_true, restartPolicy_spawnWorker, canRestart_snd, true_and]
    cases popen with
    | false => simpa using hpruned.note
    | true => simpa using h.respawn hchecked hrecorded hallowed
  · simpa [hallowed, canRestart_snd] using hpruned

/-- A recovery action that keeps the policy asks it before it respawns. -/
theorem limiting_recoveryAction {checked recorded beat wakeAt : ℚ} {action : RecoveryStep}
    (h : Limiting maxRestarts windowS s.clock done s.restartPolicy)
    (hphase : s.phase = .backoff action wakeAt) (hkeeps : s.keepsPolicy = true)
    (hchecked : s.clock ≤ checked) (hrecorded : checked ≤ recorded) (hbeat : recorded ≤ beat)
    (popen : Bool) :
    Limiting maxRestarts windowS beat
      (done ++ (s.respawnAt (.act checked recorded beat popen)).toList)
      (s.recoveryAction checked recorded beat popen action).restartPolicy := by
  have hhandled := limiting_handleWorkerExit h hchecked hrecorded beat popen
  have hskipped : Limiting maxRestarts windowS beat done s.restartPolicy :=
    h.later (hchecked.trans (hrecorded.trans hbeat))
  cases action with
  | workerRestart => simpa only [respawnAt, hphase, recoveryAction] using hhandled.later hbeat
  | providerReload => simpa only [respawnAt, hphase, recoveryAction] using hhandled.later hbeat
  | runtimeRestart =>
      -- A reload of the runtime replaces the policy, which the condition excludes.
      rw [keepsPolicy, hphase] at hkeeps
      cases hkeeps
  | degradedMode => simpa [respawnAt, hphase, recoveryAction, actionDegradedMode] using hskipped
  | fatal => simpa [respawnAt, hphase, recoveryAction] using hskipped

/-- A respawn after a stale heartbeat that the policy would allow keeps the rate. -/
theorem limiting_restartWorker {recorded beat : ℚ} {terminated popen : Bool}
    (h : Limiting maxRestarts windowS s.clock done s.restartPolicy)
    (hallowed : popen = true → terminated = true ∧ (s.restartPolicy.canRestart recorded).1 = true)
    (hrecorded : s.clock ≤ recorded) (hbeat : recorded ≤ beat) :
    Limiting maxRestarts windowS beat
      (done ++ (s.respawnAt (.respawn terminated recorded beat popen)).toList)
      (s.restartWorker terminated recorded beat popen).restartPolicy := by
  simp only [restartWorker, restartPolicy_spawnWorker, respawnAt]
  cases popen with
  | true =>
      obtain ⟨rfl, hroom⟩ := hallowed rfl
      simpa using (h.respawn_unasked hrecorded hroom).later hbeat
  | false =>
      cases terminated with
      | true => simpa using (h.later hrecorded).note.later hbeat
      | false => simpa using h.later (hrecorded.trans hbeat)

/-- **One step.** -/
theorem step_limiting {l : Label}
    (h : Limiting maxRestarts windowS s.clock done s.restartPolicy) (hthrottled : s.Throttled l)
    (hstep : s.step l = some t) :
    Limiting maxRestarts windowS t.clock (done ++ (s.respawnAt l).toList) t.restartPolicy := by
  cases l with
  | workerExits =>
      simp only [step] at hstep
      split at hstep
      · cases hstep
        simpa [respawnAt] using h
      · cases hstep
  | heartbeat now =>
      simp only [step] at hstep
      split at hstep
      next hle =>
        cases hstep
        simpa [respawnAt] using h.later hle
      · cases hstep
  | stop =>
      cases hstep
      simpa [respawnAt, stop] using h
  | iterate now =>
      simp only [step] at hstep
      split at hstep
      next hle =>
        cases hstep
        have hlater := h.later hle.2
        obtain ⟨hpolicy, hclock⟩ := iteration_frame { s with clock := now } now
        rw [hpolicy, hclock]
        simpa [respawnAt] using hlater
      · cases hstep
  | act checked recorded beat popen =>
      simp only [step] at hstep
      split at hstep
      next step wakeAt hphase =>
        split at hstep
        next hclock =>
          obtain ⟨hchecked, -, hrecorded, hbeat⟩ := hclock
          cases hstep
          exact limiting_recoveryAction h hphase hthrottled hchecked hrecorded hbeat popen
        · cases hstep
      · cases hstep
  | respawn terminated recorded beat popen =>
      simp only [step] at hstep
      split at hstep
      next hclock =>
        obtain ⟨-, hrecorded, hbeat⟩ := hclock
        cases hstep
        exact limiting_restartWorker h hthrottled hrecorded hbeat
      · cases hstep

theorem respawns_withinRate_from (labels : List Label)
    (h : Limiting maxRestarts windowS s.clock done s.restartPolicy)
    (hmeets : MeetsAlong step Throttled s labels) :
    WithinRate maxRestarts.toNat windowS (done ++ respawns s labels) := by
  induction labels generalizing s done with
  | nil => simpa [respawns] using h.rate
  | cons l rest ih =>
      rw [respawns]
      cases hstep : s.step l with
      | none => simpa using h.rate
      | some t =>
          have hrest := ih (step_limiting h hmeets.1 hstep) (hmeets.2 t hstep)
          simpa using hrest

/-- **A run that respawns nobody past the throttle stays below the configured
limit** in every window of the configured width. -/
theorem respawns_withinRate (maxRestarts : ℤ) (windowS heartbeatTimeoutS startedAt : ℚ)
    (labels : List Label)
    (hmeets : MeetsAlong step Throttled
      (init ⟨.create maxRestarts windowS, heartbeatTimeoutS, startedAt⟩) labels) :
    WithinRate maxRestarts.toNat windowS
      (respawns (init ⟨.create maxRestarts windowS, heartbeatTimeoutS, startedAt⟩) labels) := by
  have hstart : Limiting maxRestarts windowS startedAt [] (.create maxRestarts windowS) :=
    ⟨rfl, rfl, fun _ _ => le_rfl, fun _ => Nat.zero_le _⟩
  exact respawns_withinRate_from labels hstart hmeets

/-- A worker that crashes twice under a limit of one restart is respawned once. -/
theorem crashingTwice_withinRate :
    WithinRate (1 : ℤ).toNat 60 (respawns (init ⟨.create 1 60, 12, 0⟩)
      [.workerExits, .iterate 1, .act 2 2 2 true, .workerExits, .iterate 3, .act 5 5 5 true]) :=
  respawns_withinRate 1 60 12 0 _ (by decide +kernel)

/-- A worker without heartbeats is respawned twice in four seconds under a limit of one
restart a minute. -/
theorem staleTwice_not_withinRate :
    ¬WithinRate (1 : ℤ).toNat 60 (respawns (init ⟨.create 1 60, 3, 0⟩)
      [.iterate 4, .respawn true 4 4 true, .iterate 8, .respawn true 8 8 true]) := by
  intro hrate
  have hfirst := hrate 0
  revert hfirst
  decide +kernel

end Supervisor

end Supervision
end AvaListener
