import AvaListener.Supervision.Monitor
import Mathlib.Tactic.Positivity

/-!
# A permanently crashing worker

The third recovery step, `runtime_restart`, resets the recovery policy before the
fourth exit is counted, so the steps run in a cycle of three for ever and
neither `degraded_mode` nor `fatal` is reached in any run.
-/

namespace AvaListener
namespace Supervision

open Library

/-- The steps that are ever taken. -/
def restartCycle : List RecoveryStep := [.workerRestart, .providerReload, .runtimeRestart]

namespace Supervisor

/-! ## The cycle of steps -/

/-- Where the failure counter stands in the cycle. -/
structure Cycling (s : Supervisor) : Prop where
  notDegraded : s.degraded = false
  steps : ∀ k, k < s.steps.length → s.steps[k]? = restartCycle[k % 3]?
  /-- Until its action has been taken, the last step is still counted. -/
  waiting : ∀ step wakeAt, s.phase = .backoff step wakeAt →
    ∃ n, s.steps.length = n + 1 ∧ s.recoveryPolicy.failures = n % 3 + 1 ∧
      restartCycle[n % 3]? = some step
  resting : (∀ step wakeAt, s.phase ≠ .backoff step wakeAt) →
    s.recoveryPolicy.failures = s.steps.length % 3

theorem cycling_init (c : Config) : (init c).Cycling where
  notDegraded := rfl
  steps k hk := absurd hk (Nat.not_lt_zero k)
  waiting _ _ h := by cases h
  resting _ := rfl

/-- The next failure after `n` of them asks for the next step of the cycle. -/
theorem currentStep_recordFailure {p : RecoveryPolicy} {n : ℕ} (h : p.failures = n % 3) :
    p.recordFailure.failures = n % 3 + 1 ∧
      restartCycle[n % 3]? = some p.recordFailure.currentStep ∧
      p.recordFailure.currentStep ≠ .fatal := by
  have hlt : n % 3 < 3 := Nat.mod_lt n (by omega)
  obtain ⟨failures⟩ := p
  obtain rfl : failures = n % 3 := h
  have hall : ∀ k < 3, (RecoveryPolicy.recordFailure ⟨k⟩).failures = k + 1 ∧
      restartCycle[k]? = some (RecoveryPolicy.recordFailure ⟨k⟩).currentStep ∧
      (RecoveryPolicy.recordFailure ⟨k⟩).currentStep ≠ .fatal := by decide
  exact hall _ hlt

/-- What the cycle reads of a state. -/
theorem cycling_of_fields {s t : Supervisor} (hs : s.Cycling)
    (hdegraded : t.degraded = s.degraded) (hsteps : t.steps = s.steps)
    (hrecovery : t.recoveryPolicy = s.recoveryPolicy)
    (hphase : t.phase = s.phase ∨
      (∀ step wakeAt, s.phase ≠ .backoff step wakeAt) ∧
        ∀ step wakeAt, t.phase ≠ .backoff step wakeAt) : t.Cycling where
  notDegraded := hdegraded.trans hs.notDegraded
  steps := by
    rw [hsteps]
    exact hs.steps
  waiting step wakeAt h := by
    rw [hsteps, hrecovery]
    rcases hphase with hsame | ⟨-, hno⟩
    · exact hs.waiting step wakeAt (hsame ▸ h)
    · exact absurd h (hno step wakeAt)
  resting h := by
    rw [hsteps, hrecovery]
    rcases hphase with hsame | ⟨hno, -⟩
    · exact hs.resting (hsame ▸ h)
    · exact hs.resting hno

/-- The cycle after an action that has set the counter right. -/
theorem cycling_of_resting {s t : Supervisor} (hs : s.Cycling)
    (hdegraded : t.degraded = s.degraded) (hsteps : t.steps = s.steps)
    (hphase : ∀ step wakeAt, t.phase ≠ .backoff step wakeAt)
    (hfailures : t.recoveryPolicy.failures = s.steps.length % 3) : t.Cycling where
  notDegraded := hdegraded.trans hs.notDegraded
  steps := by
    rw [hsteps]
    exact hs.steps
  waiting step wakeAt h := absurd h (hphase step wakeAt)
  resting _ := by
    rw [hsteps]
    exact hfailures

/-- An exit that is noticed adds the next step of the cycle. -/
theorem cycling_noticeExit {s : Supervisor} (now : ℚ) (hs : s.Cycling)
    (hphase : s.phase = .idle) : (s.noticeExit now).Cycling := by
  have hresting : s.recoveryPolicy.failures = s.steps.length % 3 := by
    apply hs.resting
    intro step wakeAt h
    rw [hphase] at h
    cases h
  obtain ⟨hfailures, hcurrent, hnotFatal⟩ := currentStep_recordFailure hresting
  unfold noticeExit
  simp only
  rw [if_neg hnotFatal]
  refine ⟨hs.notDegraded, ?_, ?_, ?_⟩
  · intro k hk
    simp only [List.length_append, List.length_cons, List.length_nil] at hk
    rcases Nat.lt_succ_iff_lt_or_eq.mp hk with hold | rfl
    · rw [List.getElem?_append_left hold]
      exact hs.steps k hold
    · rw [List.getElem?_concat_length]
      exact hcurrent.symm
  · intro step wakeAt h
    obtain ⟨rfl, -⟩ := Phase.backoff.inj h
    exact ⟨s.steps.length, by simp, hfailures, hcurrent⟩
  · intro hno
    exact absurd rfl (hno _ _)

/-- The action of a step of the cycle leaves the counter where the cycle goes on:
the runtime restart sets it back to the start. -/
theorem cycling_recoveryAction {s : Supervisor} {step : RecoveryStep} {n : ℕ}
    (checked recorded beat : ℚ) (popen : Bool) (hs : s.Cycling)
    (hlength : s.steps.length = n + 1) (hfailures : s.recoveryPolicy.failures = n % 3 + 1)
    (hstep : restartCycle[n % 3]? = some step) :
    { (s.recoveryAction checked recorded beat popen step) with
      phase := .idle, clock := beat }.Cycling := by
  have hlt : n % 3 < 3 := Nat.mod_lt n (by omega)
  have hplaces : ∀ k < 3, ∀ r, restartCycle[k]? = some r →
      (r = .runtimeRestart ↔ k = 2) ∧ (r = .degradedMode → False) ∧ (r = .fatal → False) := by
    intro k hk r hr
    match k with
    | 0 | 1 | 2 =>
        obtain rfl := Option.some.inj hr
        decide
  obtain ⟨hruntime, hdegradedMode, hfatal⟩ := hplaces _ hlt _ hstep
  -- An exit handled by `_handle_worker_exit` stays counted.
  have hhandle (h : n % 3 ≠ 2) :
      { (s.handleWorkerExit checked recorded beat popen) with
        phase := .idle, clock := beat }.Cycling := by
    obtain ⟨hrecovery, -, hdegraded, hsteps⟩ :=
      handleWorkerExit_frame s checked recorded beat popen
    refine cycling_of_resting hs hdegraded hsteps (fun _ _ h => by cases h) ?_
    show (s.handleWorkerExit checked recorded beat popen).recoveryPolicy.failures = _
    rw [hrecovery, hfailures, hlength]
    omega
  cases step with
  | workerRestart => exact hhandle fun h => by cases hruntime.mpr h
  | providerReload => exact hhandle fun h => by cases hruntime.mpr h
  | runtimeRestart =>
      obtain ⟨hrecovery, -, -, hdegraded, hsteps⟩ := spawnWorker_frame
        { s with recoveryPolicy := s.recoveryPolicy.reset, restartPolicy := .default } beat popen
      refine cycling_of_resting hs hdegraded hsteps (fun _ _ h => by cases h) ?_
      show (s.actionRuntimeRestart beat popen).recoveryPolicy.failures = _
      rw [actionRuntimeRestart, hrecovery]
      show 0 = s.steps.length % 3
      have htwo : n % 3 = 2 := hruntime.mp rfl
      omega
  | degradedMode => exact (hdegradedMode rfl).elim
  | fatal => exact (hfatal rfl).elim

theorem cycling_step {s t : Supervisor} {l : Label} (hs : s.Cycling)
    (h : s.step l = some t) : t.Cycling := by
  cases l with
  | workerExits =>
      simp only [step] at h
      split at h
      · obtain rfl := Option.some.inj h
        exact cycling_of_fields hs rfl rfl rfl (.inl rfl)
      · cases h
  | heartbeat now =>
      simp only [step] at h
      split at h
      · obtain rfl := Option.some.inj h
        exact cycling_of_fields hs rfl rfl rfl (.inl rfl)
      · cases h
  | stop =>
      obtain rfl := Option.some.inj h
      exact cycling_of_fields hs rfl rfl rfl (.inl rfl)
  | iterate now =>
      simp only [step] at h
      split at h
      next henabled =>
        obtain rfl := Option.some.inj h
        have hidle : ∀ step wakeAt, s.phase ≠ .backoff step wakeAt := by
          intro step wakeAt hphase
          rw [henabled.1] at hphase
          cases hphase
        have hclock : { s with clock := now }.Cycling :=
          cycling_of_fields hs rfl rfl rfl (.inl rfl)
        unfold iteration
        split
        · exact cycling_of_fields hclock rfl rfl rfl (.inr ⟨hidle, nofun⟩)
        · split
          · exact hclock
          · exact cycling_noticeExit now hclock henabled.1
          · split
            · exact cycling_of_fields hclock rfl rfl rfl (.inr ⟨hidle, nofun⟩)
            · exact hclock
      · cases h
  | act checked recorded beat popen =>
      simp only [step] at h
      split at h
      next step wakeAt hphase =>
        split at h
        · obtain rfl := Option.some.inj h
          obtain ⟨n, hlength, hfailures, hcycle⟩ := hs.waiting step wakeAt hphase
          exact cycling_recoveryAction checked recorded beat popen hs hlength hfailures hcycle
        · cases h
      · cases h
  | respawn terminated recorded beat popen =>
      simp only [step] at h
      split at h
      next henabled =>
        obtain rfl := Option.some.inj h
        obtain ⟨hrecovery, -, hdegraded, hsteps⟩ :=
          restartWorker_frame s recorded beat terminated popen
        refine cycling_of_fields hs hdegraded hsteps hrecovery (.inr ⟨?_, nofun⟩)
        intro step wakeAt hphase
        rw [henabled.1] at hphase
        cases hphase
      · cases h

end Supervisor

/-! ## Crash loops -/

open Supervisor

/-- A run in which every worker exits and none sends a heartbeat. -/
structure CrashLoop (c : Config) extends InfiniteRun step (init c) where
  noHeartbeat : ∀ n now, labels n ≠ .heartbeat now
  crashes : ∀ n, (states n).workerProc = some .running → ∃ m, n ≤ m ∧ labels m = .workerExits

namespace CrashLoop

/-- The steps escalate monotonically, and degraded mode or fatal is entered after
at most five exits. -/
def Escalates {c : Config} (r : CrashLoop c) : Prop :=
  (∀ n, ((r.states n).steps.map RecoveryStep.level).Pairwise (· ≤ ·)) ∧
    ∃ n, (r.states n).degraded = true ∧ (r.states n).steps.length ≤ 5

theorem cycling {c : Config} (r : CrashLoop c) (n : ℕ) : (r.states n).Cycling :=
  r.invariant Cycling (cycling_init c) (fun _ _ _ ha hstep => cycling_step ha hstep) n

/-- The `k`-th exit of a crash loop is answered with the `k mod 3`-th step. -/
theorem steps_cycle {c : Config} (r : CrashLoop c) (n : ℕ) {k : ℕ}
    (hk : k < (r.states n).steps.length) :
    (r.states n).steps[k]? = restartCycle[k % 3]? :=
  (r.cycling n).steps k hk

/-- **No crash loop is ever given up**: whatever the configuration, the supervisor
enters neither degraded mode nor fatal. -/
theorem never_escalates {c : Config} (r : CrashLoop c) : ¬ r.Escalates := by
  rintro ⟨-, n, hdegraded, -⟩
  rw [(r.cycling n).notDegraded] at hdegraded
  cases hdegraded

end CrashLoop

/-! ## The default supervisor with a worker that crashes at once -/

namespace Supervisor

/-- The defaults of `main`, the first worker being spawned at time 0. -/
def defaultConfig : Config := ⟨.default, 12, 0⟩

/-- The worker exits as soon as it runs, and no thread sleeps longer than it must. -/
def crashAtOnce (s : Supervisor) : Label :=
  match s.phase with
  | .backoff _ wakeAt => .act wakeAt wakeAt wakeAt true
  | _ => if s.workerProc = some .running then .workerExits else .iterate s.clock

theorem crashAtOnce_ne_heartbeat (s : Supervisor) (now : ℚ) :
    crashAtOnce s ≠ .heartbeat now := by
  unfold crashAtOnce
  split
  · nofun
  · split
    · nofun
    · nofun

/-- The throttle never holds a crash loop up: two restarts at most are recorded
before the runtime restart forgets them. -/
structure Crashing (s : Supervisor) : Prop where
  notStopped : s.stopped = false
  limit : s.restartPolicy.maxRestarts = 5
  phase : (s.phase = .idle ∧ s.workerProc ≠ none ∧ s.recoveryPolicy.failures ≤ 2 ∧
      s.restartPolicy.timestamps.length ≤ s.recoveryPolicy.failures) ∨
    ∃ wakeAt k, s.workerProc = some .exited ∧ k ≤ 2 ∧ s.recoveryPolicy.failures = k + 1 ∧
      s.restartPolicy.timestamps.length ≤ k ∧ s.clock ≤ wakeAt ∧
      s.phase = .backoff s.recoveryPolicy.currentStep wakeAt

theorem crashAtOnce_of_running {s : Supervisor} (hs : s.Crashing)
    (hrunning : s.workerProc = some .running) : crashAtOnce s = .workerExits := by
  rcases hs.phase with ⟨hphase, -⟩ | ⟨wakeAt, k, hexited, -⟩
  · simp [crashAtOnce, hphase, hrunning]
  · rw [hexited] at hrunning
    cases hrunning

theorem crashing_init : (init defaultConfig).Crashing :=
  ⟨rfl, rfl, .inl ⟨rfl, nofun, Nat.zero_le _, Nat.le_refl _⟩⟩

/-- The exit that is noticed leads to a backoff. -/
theorem crashing_noticeExit {s : Supervisor} (hstopped : s.stopped = false)
    (hexited : s.workerProc = some .exited)
    (hlimit : s.restartPolicy.maxRestarts = 5) (hfailures : s.recoveryPolicy.failures ≤ 2)
    (hrecorded : s.restartPolicy.timestamps.length ≤ s.recoveryPolicy.failures) :
    (s.noticeExit s.clock).Crashing := by
  have hmod : s.recoveryPolicy.failures = s.recoveryPolicy.failures % 3 := by omega
  obtain ⟨hnext, -, hnotFatal⟩ := currentStep_recordFailure hmod
  unfold noticeExit
  simp only
  rw [if_neg hnotFatal]
  refine ⟨hstopped, hlimit,
    .inr ⟨_, s.recoveryPolicy.failures, hexited, hfailures, ?_, hrecorded, ?_, rfl⟩⟩
  · show s.recoveryPolicy.recordFailure.failures = _
    omega
  · have hnonneg : (0 : ℚ) ≤ s.recoveryPolicy.recordFailure.nextBackoffMs / 1000 := by positivity
    show s.clock ≤ s.clock + _
    linarith

/-- The action after the backoff leads to a new worker. -/
theorem crashing_recoveryAction {s : Supervisor} {k : ℕ} (wakeAt : ℚ)
    (hstopped : s.stopped = false) (hlimit : s.restartPolicy.maxRestarts = 5) (hk : k ≤ 2)
    (hfailures : s.recoveryPolicy.failures = k + 1)
    (hrecorded : s.restartPolicy.timestamps.length ≤ k) :
    { (s.recoveryAction wakeAt wakeAt wakeAt true s.recoveryPolicy.currentStep) with
      phase := .idle, clock := wakeAt }.Crashing := by
  have hadmitted : (s.restartPolicy.canRestart wakeAt).1 = true := by
    apply RestartPolicy.canRestart_of_length_lt
    rw [hlimit]
    omega
  have hpruned : (s.restartPolicy.canRestart wakeAt).2.timestamps.length ≤ k :=
    (s.restartPolicy.length_prune_le wakeAt).trans hrecorded
  -- One more restart has been recorded, and one more failure.
  have hhandle (h : k + 1 ≤ 2) : { (s.handleWorkerExit wakeAt wakeAt wakeAt true) with
      phase := .idle, clock := wakeAt }.Crashing := by
    unfold handleWorkerExit
    simp only [hadmitted, if_true]
    refine ⟨hstopped, hlimit, .inl ⟨rfl, nofun, ?_, ?_⟩⟩
    · show s.recoveryPolicy.failures ≤ 2
      omega
    · show ((s.restartPolicy.canRestart wakeAt).2.recordRestart wakeAt).timestamps.length ≤
        s.recoveryPolicy.failures
      have hgrown := (s.restartPolicy.canRestart wakeAt).2.length_recordRestart_le wakeAt
      omega
  have hlevel := s.recoveryPolicy.level_currentStep
  rw [hfailures] at hlevel
  cases hstep : s.recoveryPolicy.currentStep with
  | workerRestart =>
      rw [hstep] at hlevel
      apply hhandle
      have : (0 : ℕ) = min (k + 1 - 1) 4 := hlevel
      omega
  | providerReload =>
      rw [hstep] at hlevel
      apply hhandle
      have : (1 : ℕ) = min (k + 1 - 1) 4 := hlevel
      omega
  | runtimeRestart =>
      exact ⟨hstopped, rfl, .inl ⟨rfl, nofun, Nat.zero_le _, Nat.le_refl _⟩⟩
  | degradedMode =>
      rw [hstep] at hlevel
      have : (3 : ℕ) = min (k + 1 - 1) 4 := hlevel
      omega
  | fatal =>
      rw [hstep] at hlevel
      have : (4 : ℕ) = min (k + 1 - 1) 4 := hlevel
      omega

theorem crashing_progress (s : Supervisor) (hs : s.Crashing) :
    ∃ t, s.step (crashAtOnce s) = some t ∧ t.Crashing := by
  rcases hs.phase with ⟨hphase, hattached, hfailures, hrecorded⟩ |
      ⟨wakeAt, k, -, hk, hfailures, hrecorded, hclock, hphase⟩
  · by_cases hrunning : s.workerProc = some .running
    · refine ⟨{ s with workerProc := some .exited }, ?_, hs.notStopped, hs.limit,
        .inl ⟨hphase, nofun, hfailures, hrecorded⟩⟩
      simp [crashAtOnce, hphase, hrunning, step]
    · have hexited : s.workerProc = some .exited := by
        cases hproc : s.workerProc with
        | none => exact absurd hproc hattached
        | some proc =>
            cases proc with
            | running => exact absurd hproc hrunning
            | exited => rfl
      refine ⟨s.noticeExit s.clock, ?_,
        crashing_noticeExit hs.notStopped hexited hs.limit hfailures hrecorded⟩
      have hlabel : crashAtOnce s = .iterate s.clock := by simp [crashAtOnce, hphase, hexited]
      have hiteration : s.iteration s.clock = s.noticeExit s.clock := by
        simp [iteration, hexited, hs.notStopped]
      rw [hlabel]
      show (if s.phase = .idle ∧ s.clock ≤ s.clock then some (s.iteration s.clock) else none) = _
      rw [if_pos ⟨hphase, le_refl _⟩, hiteration]
  · refine ⟨_, ?_, crashing_recoveryAction wakeAt hs.notStopped hs.limit hk hfailures hrecorded⟩
    simp [crashAtOnce, hphase, step, hclock]

end Supervisor

/-- The crash loop of the default supervisor. -/
def defaultCrashLoop : CrashLoop defaultConfig where
  toInfiniteRun := .drive Crashing crashAtOnce crashing_init crashing_progress
  noHeartbeat _ now h := crashAtOnce_ne_heartbeat _ now h
  crashes n hrunning :=
    ⟨n, Nat.le_refl n, crashAtOnce_of_running
      (InfiniteRun.driven_invariant Crashing crashing_init crashing_progress n) hrunning⟩

/-- Five workers have crashed and the next recovery action is a restart again. -/
theorem defaultCrashLoop_never_given_up :
    ((defaultCrashLoop.states 14).steps, (defaultCrashLoop.states 14).degraded) =
        ([.workerRestart, .providerReload, .runtimeRestart, .workerRestart, .providerReload],
          false) ∧
      ¬ defaultCrashLoop.Escalates := by
  constructor
  · decide +kernel
  · rintro ⟨hmonotone, -⟩
    -- After the fourth exit the steps start over.
    have hlater : (defaultCrashLoop.states 11).steps.map RecoveryStep.level = [0, 1, 2, 0] := by
      decide +kernel
    have hsorted := hmonotone 11
    rw [hlater] at hsorted
    exact absurd hsorted (by decide)

end Supervision
end AvaListener
