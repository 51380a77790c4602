import AvaListener.Supervision.Monitor

/-!
# Monitoring nothing

Between two iterations the loop should have a worker attached, or the supervisor
should have been stopped or have declared degraded mode.  The restart that
`_handle_worker_exit` refuses, or whose `Popen` raises, leaves no worker behind and
declares nothing, and nothing else ever does.
-/

namespace AvaListener
namespace Supervision

open Library

namespace Supervisor

/-- Between two iterations a worker is attached, or the supervisor has been stopped
or has declared degraded mode. -/
def Attended (s : Supervisor) : Prop :=
  s.phase = .idle → s.workerProc ≠ none ∨ s.stopped = true ∨ s.degraded = true

/-- The step whose action comes after the current backoff. -/
def dueStep (s : Supervisor) : Option RecoveryStep :=
  match s.phase with
  | .backoff step _ => some step
  | _ => none

/-- The action that is due goes through `_handle_worker_exit`. -/
def HandlesExit (s : Supervisor) : Prop :=
  s.dueStep = some .workerRestart ∨ s.dueStep = some .providerReload

/-- The policy admits a restart at the time of the action and `Popen` returns. -/
def restarts (s : Supervisor) : Label → Bool
  | .act checked _ _ popen => (s.restartPolicy.canRestart checked).1 && popen
  | _ => true

/-- A restart by `_handle_worker_exit` is admitted by the policy and gets its
process, unless the supervisor has already been stopped. -/
def RestartGoesThrough (s : Supervisor) (l : Label) : Prop :=
  s.HandlesExit → s.restarts l = true ∨ s.stopped = true

instance (s : Supervisor) (l : Label) : Decidable (s.RestartGoesThrough l) :=
  inferInstanceAs (Decidable (s.dueStep = some .workerRestart ∨ s.dueStep = some .providerReload →
    s.restarts l = true ∨ s.stopped = true))

/-- What the property needs in the middle of an iteration. -/
structure Tended (s : Supervisor) : Prop where
  attached : s.workerProc ≠ none ∨ s.stopped = true
  degraded : s.degraded = true → s.stopped = true

theorem tended_init (c : Config) : (init c).Tended := ⟨.inl nofun, nofun⟩

theorem attended_of_tended {s : Supervisor} (hs : s.Tended) : s.Attended := by
  intro _
  rcases hs.attached with hattached | hstopped
  · exact .inl hattached
  · exact .inr (.inl hstopped)

/-! ## One action -/

/-- The worker after `_handle_worker_exit`. -/
theorem workerProc_handleWorkerExit (s : Supervisor) (checked recorded beat : ℚ) (popen : Bool) :
    (s.handleWorkerExit checked recorded beat popen).workerProc =
      if s.restarts (.act checked recorded beat popen) then some .running else none := by
  unfold handleWorkerExit restarts
  simp only
  split
  next hadmitted =>
    rw [workerProc_spawnWorker]
    cases popen with
    | false => simp
    | true => simp [hadmitted]
  next hrefused => simp [hrefused]

/-- A spawn keeps an attached worker attached. -/
theorem attached_spawnWorker {s : Supervisor} (beat : ℚ) (popen : Bool)
    (h : s.workerProc ≠ none) : (s.spawnWorker beat popen).workerProc ≠ none := by
  rw [workerProc_spawnWorker]
  cases popen with
  | false => exact h
  | true => nofun

theorem tended_spawnWorker {s : Supervisor} (beat : ℚ) (popen : Bool) (hs : s.Tended) :
    (s.spawnWorker beat popen).Tended := by
  obtain ⟨-, -, hstopped, hdegraded, -⟩ := spawnWorker_frame s beat popen
  refine ⟨?_, ?_⟩
  · rw [hstopped]
    exact hs.attached.imp_left (attached_spawnWorker beat popen)
  · rw [hstopped, hdegraded]
    exact hs.degraded

theorem tended_handleWorkerExit {s : Supervisor} {checked recorded beat : ℚ} {popen : Bool}
    (hs : s.Tended)
    (h : s.restarts (.act checked recorded beat popen) = true ∨ s.stopped = true) :
    (s.handleWorkerExit checked recorded beat popen).Tended := by
  obtain ⟨-, hstopped, hdegraded, -⟩ := handleWorkerExit_frame s checked recorded beat popen
  refine ⟨?_, ?_⟩
  · rw [hstopped, workerProc_handleWorkerExit]
    refine h.imp_left ?_
    intro hthrough
    rw [if_pos hthrough]
    nofun
  · rw [hstopped, hdegraded]
    exact hs.degraded

/-- The phase and the clock do not matter. -/
theorem tended_of_fields {s t : Supervisor} (hs : s.Tended) (hworker : t.workerProc = s.workerProc)
    (hstopped : t.stopped = s.stopped) (hdegraded : t.degraded = s.degraded) : t.Tended := by
  refine ⟨?_, ?_⟩
  · rw [hworker, hstopped]
    exact hs.attached
  · rw [hstopped, hdegraded]
    exact hs.degraded

theorem tended_recoveryAction {s : Supervisor} {step : RecoveryStep} {wakeAt : ℚ}
    (checked recorded beat : ℚ) (popen : Bool) (hs : s.Tended)
    (hphase : s.phase = .backoff step wakeAt)
    (h : s.RestartGoesThrough (.act checked recorded beat popen)) :
    (s.recoveryAction checked recorded beat popen step).Tended := by
  have hdue : s.dueStep = some step := by rw [dueStep, hphase]
  cases step with
  | workerRestart => exact tended_handleWorkerExit hs (h (.inl hdue))
  | providerReload => exact tended_handleWorkerExit hs (h (.inr hdue))
  | runtimeRestart =>
      apply tended_spawnWorker
      exact tended_of_fields hs rfl rfl rfl
  | degradedMode => exact ⟨.inr rfl, fun _ => rfl⟩
  | fatal => exact hs

/-! ## One step -/

theorem tended_iteration {s : Supervisor} (now : ℚ) (hs : s.Tended) :
    (s.iteration now).Tended := by
  unfold iteration
  split
  · exact tended_of_fields hs rfl rfl rfl
  · split
    · exact hs
    · unfold noticeExit
      simp only
      split
      · exact ⟨.inr rfl, fun _ => rfl⟩
      · exact tended_of_fields hs rfl rfl rfl
    · split
      · exact tended_of_fields hs rfl rfl rfl
      · exact hs

theorem tended_step {s t : Supervisor} {l : Label} (hs : s.Tended) (hl : s.RestartGoesThrough l)
    (h : s.step l = some t) : t.Tended := by
  cases l with
  | workerExits =>
      simp only [step] at h
      split at h
      · obtain rfl := Option.some.inj h
        exact ⟨.inl nofun, hs.degraded⟩
      · cases h
  | heartbeat now =>
      simp only [step] at h
      split at h
      · obtain rfl := Option.some.inj h
        exact tended_of_fields hs rfl rfl rfl
      · cases h
  | stop =>
      obtain rfl := Option.some.inj h
      exact ⟨.inr rfl, fun _ => rfl⟩
  | iterate now =>
      simp only [step] at h
      split at h
      · obtain rfl := Option.some.inj h
        apply tended_iteration
        exact tended_of_fields hs rfl rfl rfl
      · cases h
  | act checked recorded beat popen =>
      simp only [step] at h
      split at h
      next step wakeAt hphase =>
        split at h
        · obtain rfl := Option.some.inj h
          have hacted := tended_recoveryAction checked recorded beat popen hs hphase hl
          exact tended_of_fields hacted rfl rfl rfl
        · cases h
      · cases h
  | respawn terminated recorded beat popen =>
      simp only [step] at h
      split at h
      · obtain rfl := Option.some.inj h
        have hterminated : (s.restartWorker terminated recorded beat popen).Tended := by
          unfold restartWorker
          apply tended_spawnWorker
          cases terminated with
          | false => exact hs
          | true => exact ⟨.inl nofun, hs.degraded⟩
        exact tended_of_fields hterminated rfl rfl rfl
      · cases h

/-- An action that is due and is taken is one of `_handle_worker_exit`. -/
theorem step_of_handlesExit {s t : Supervisor} {l : Label} (hdue : s.HandlesExit)
    (hl : s.restarts l = false) (h : s.step l = some t) :
    ∃ checked recorded beat popen, l = .act checked recorded beat popen ∧
      t = { (s.handleWorkerExit checked recorded beat popen) with phase := .idle, clock := beat } := by
  cases l with
  | act checked recorded beat popen =>
      refine ⟨checked, recorded, beat, popen, rfl, ?_⟩
      simp only [step] at h
      split at h
      next step wakeAt hphase =>
        have hstep : s.dueStep = some step := by rw [dueStep, hphase]
        split at h
        · obtain rfl := Option.some.inj h
          -- Both steps are handled the same way.
          rcases hdue with hdue | hdue
          · obtain rfl := Option.some.inj (hstep.symm.trans hdue)
            rfl
          · obtain rfl := Option.some.inj (hstep.symm.trans hdue)
            rfl
        · cases h
      · cases h
  | _ => cases hl

/-- A restart that does not go through leaves nothing attached and declares nothing. -/
theorem not_attended_of_refused {s t : Supervisor} {l : Label} (hs : s.Tended)
    (hl : ¬ s.RestartGoesThrough l) (h : s.step l = some t) : ¬ t.Attended := by
  obtain ⟨hdue, hmissed⟩ := Classical.not_imp.mp hl
  obtain ⟨hrefused, hrunning⟩ := not_or.mp hmissed
  obtain ⟨checked, recorded, beat, popen, rfl, rfl⟩ :=
    step_of_handlesExit hdue (Bool.eq_false_of_not_eq_true hrefused) h
  obtain ⟨-, hstopped, hdegraded, -⟩ := handleWorkerExit_frame s checked recorded beat popen
  have hnone : (s.handleWorkerExit checked recorded beat popen).workerProc = none := by
    rw [workerProc_handleWorkerExit, if_neg hrefused]
  have hnotDegraded : s.degraded ≠ true := fun hdegraded => hrunning (hs.degraded hdegraded)
  intro hattended
  rcases hattended rfl with hattached | hstopped' | hdegraded'
  · exact hattached hnone
  · exact hrunning (hstopped.symm.trans hstopped')
  · exact hnotDegraded (hdegraded.symm.trans hdegraded')

/-- **Exactly when the loop always has a worker to monitor**: in a run, from the
first spawn on, if and only if every restart by `_handle_worker_exit` is admitted
by the policy and gets its process, or comes after a stop. -/
theorem attended_iff (c : Config) {labels : List Label} {u : Supervisor}
    (hrun : execute step (init c) labels = some u) :
    Always step Attended (init c) labels ↔
      MeetsAlong step RestartGoesThrough (init c) labels := by
  apply always_iff_meetsAlong step Tended (tended_init c) (fun _ => attended_of_tended) ?_ ?_ hrun
  · intro a l b ha _ hl hstep
    exact tended_step ha hl hstep
  · intro a l b ha _ hl hstep
    exact not_attended_of_refused ha hl hstep

/-! ## Two exits with one restart allowed -/

/-- `--max-restarts 1`. -/
def oneRestart : Config := ⟨.create 1 60, 12, 0⟩

/-- The worker exits and is restarted, and exits again. -/
def twoExits : List Label :=
  [.workerExits, .iterate 1, .act 2 2 2 true, .workerExits, .iterate 3]

/-- The second recovery action is refused. -/
def throttled : List Label := twoExits ++ [.act 5 5 5 true]

/-- Up to the refusal the run is attended. -/
theorem twoExits_attended : Always step Attended (init oneRestart) twoExits := by
  have hrun : execute step (init oneRestart) twoExits ≠ none := by decide +kernel
  obtain ⟨u, hu⟩ := Option.ne_none_iff_exists'.mp hrun
  have hmeets : MeetsAlong step RestartGoesThrough (init oneRestart) twoExits := by decide +kernel
  exact (attended_iff oneRestart hu).mpr hmeets

/-- From then on the loop monitors nothing while the supervisor claims to run. -/
theorem throttled_not_attended : ¬ Always step Attended (init oneRestart) throttled := by
  have hrun : (execute step (init oneRestart) throttled).map (fun s =>
      (s.phase, s.workerProc, s.stopped, s.degraded)) = some (.idle, none, false, false) := by
    decide +kernel
  obtain ⟨u, hu, hparts⟩ := Option.map_eq_some_iff.mp hrun
  simp only [Prod.mk.injEq] at hparts
  obtain ⟨hphase, hworker, hstopped, hdegraded⟩ := hparts
  intro halways
  have hattended := always_final step halways hu
  simp [Attended, hphase, hworker, hstopped, hdegraded] at hattended

end Supervisor

end Supervision
end AvaListener
