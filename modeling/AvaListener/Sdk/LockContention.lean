import AvaListener.Sdk.BootstrapLock

/-!
# Acquiring the lock against arbitrary competitors

One call `BootstrapLock.acquire(timeoutMs, retryIntervalMs)`, with the calls on the lock
directory, while other processes create and remove the lock file whenever they like: they
need not run the same code, and a lock they create may be of any age.  Competitors leave the
directory alone once it is there, and no call fails for want of permission or space.

The run of `n` processes of `Sdk/BootstrapLock.lean` is such a run for each of them.
-/

namespace AvaListener
namespace Sdk
namespace LockContention

open Library BootstrapLock

/-- The calls that find a path missing. -/
inductive Syscall where
  | writeFileSync
  | statSync
  deriving DecidableEq

inductive AcquireError where
  /-- `Could not acquire bootstrap lock after ...ms` -/
  | timeout (timeoutMs : ℕ)
  | enoent (call : Syscall)
  deriving DecidableEq

/-- Where the call stands: before the operation that the name says. -/
inductive Stage where
  /-- `existsSync(lockDir)`. -/
  | lookingUp
  /-- `mkdirSync(lockDir, { recursive: true })`. -/
  | makingDir
  /-- `writeFileSync` with flag `wx`. -/
  | creating
  /-- In the handler of `EEXIST`, before the timeout check. -/
  | rejected
  /-- `statSync`. -/
  | statting
  /-- The age of the file seen. -/
  | judging (mtimeMs : ℕ)
  /-- `unlinkSync` of a stale lock. -/
  | removing
  /-- `Atomics.wait`. -/
  | waiting (until_ : ℕ)
  | returned
  | threw (e : AcquireError)
  deriving DecidableEq

/-- The call has returned or thrown. -/
def Stage.over : Stage → Bool
  | .returned => true
  | .threw _ => true
  | _ => false

/-- The file at the lock path. -/
structure Lock where
  /-- This call has created it. -/
  mine : Bool
  mtimeMs : ℕ
  deriving DecidableEq

structure Contention where
  call : Attempt
  now : ℕ
  lockDir : Bool
  file : Option Lock
  stage : Stage
  deriving DecidableEq

inductive Action where
  /-- The next operation of the call. -/
  | acquire
  /-- A competitor makes the lock directory. -/
  | makesDir
  /-- A competitor creates a lock of the given modification time. -/
  | creates (mtimeMs : ℕ)
  /-- A competitor removes the lock, by `release` or as stale. -/
  | removes
  /-- Time passes. -/
  | tick (ms : ℕ)
  deriving DecidableEq

namespace Contention

/-- The call begins, with a lock of somebody else at the path or none. -/
def start (timeoutMs retryIntervalMs now : ℕ) (lockDir : Bool) (lock : Option ℕ) : Contention where
  call := ⟨now, timeoutMs, retryIntervalMs⟩
  now := now
  lockDir := lockDir
  file := lock.map fun mtimeMs => ⟨false, mtimeMs⟩
  stage := .lookingUp

/-- One operation of `acquire`. -/
def acquire (s : Contention) : Option Contention :=
  match s.stage with
  | .lookingUp => some { s with stage := if s.lockDir then .creating else .makingDir }
  | .makingDir => some { s with lockDir := true, stage := .creating }
  | .creating =>
      if s.lockDir then
        match s.file with
        | none => some { s with file := some ⟨true, s.now⟩, stage := .returned }
        | some _ => some { s with stage := .rejected }
      else some { s with stage := .threw (.enoent .writeFileSync) }
  | .rejected =>
      some { s with
        stage :=
          if s.call.timeoutMs ≤ s.now - s.call.start then .threw (.timeout s.call.timeoutMs)
          else .statting }
  | .statting =>
      match s.file with
      -- Inside the handler of `EEXIST`: nothing catches this one.
      | none => some { s with stage := .threw (.enoent .statSync) }
      | some f => some { s with stage := .judging f.mtimeMs }
  | .judging mtimeMs =>
      some { s with
        stage :=
          if staleLimitMs < s.now - mtimeMs then .removing
          else .waiting (s.now + s.call.retryIntervalMs) }
  | .removing => some { s with file := none, stage := .lookingUp }
  | .waiting until_ => if until_ ≤ s.now then some { s with stage := .lookingUp } else none
  | .returned => none
  | .threw _ => none

def act (s : Contention) : Action → Option Contention
  | .acquire => s.acquire
  | .makesDir => some { s with lockDir := true }
  | .creates mtimeMs =>
      if s.lockDir ∧ s.file = none then some { s with file := some ⟨false, mtimeMs⟩ } else none
  | .removes => if s.file = none then none else some { s with file := none }
  | .tick ms => some { s with now := s.now + ms }

/-- The run is over with the call. -/
def step (s : Contention) (l : Action) : Option Contention :=
  if s.stage.over then none else s.act l

theorem step_of_running {s : Contention} (h : s.stage.over = false) (l : Action) :
    step s l = s.act l := by
  rw [step, h]
  rfl

theorem step_eq_some {s t : Contention} {l : Action} (h : step s l = some t) :
    s.stage.over = false ∧ s.act l = some t := by
  unfold step at h
  split at h
  · cases h
  next hover => exact ⟨by simpa using hover, h⟩

/-! ## What a call may end with -/

/-- A call that is over has returned with the lock it created, or has thrown its own timeout
error after the timeout. -/
def EndsWell (s : Contention) : Prop :=
  match s.stage with
  | .returned => ∃ mtimeMs, s.file = some ⟨true, mtimeMs⟩
  | .threw e => e = .timeout s.call.timeoutMs ∧ s.call.start + s.call.timeoutMs ≤ s.now
  | _ => True

/-- The call is never stuck, and once the timeout has passed it takes at most seven more
operations. -/
def Finishes (s : Contention) (schedule : List Action) : Prop :=
  ∀ past rest t, schedule = past ++ rest → execute step s past = some t →
    (t.stage.over = false → ∃ ms u v, step t (.tick ms) = some u ∧ step u .acquire = some v) ∧
      (t.call.start + t.call.timeoutMs ≤ t.now → rest.count .acquire ≤ 7)

/-- `statSync` finds a lock at the path: since the failed `writeFileSync` nobody has removed
it, or somebody has created one again. -/
def StatFindsLock (s : Contention) (l : Action) : Prop :=
  l = .acquire → s.stage = .statting → s.file.isSome

instance (s : Contention) (l : Action) : Decidable (s.StatFindsLock l) :=
  inferInstanceAs (Decidable (l = .acquire → s.stage = .statting → s.file.isSome))

/-- What is expected of a call along the schedule. -/
def Conforms (s : Contention) (schedule : List Action) : Prop :=
  Always step EndsWell s schedule ∧ Finishes s schedule

/-! ## Single steps -/

/-- Operations of competitors, and time, leave the call where it is. -/
theorem act_other {s t : Contention} {l : Action} (hl : l ≠ .acquire) (h : s.act l = some t) :
    t.stage = s.stage ∧ t.call = s.call ∧ s.now ≤ t.now ∧
      (s.lockDir = true → t.lockDir = true) := by
  cases l with
  | acquire => exact absurd rfl hl
  | makesDir =>
      obtain rfl := Option.some.inj h
      exact ⟨rfl, rfl, le_rfl, fun _ => rfl⟩
  | creates mtimeMs =>
      simp only [act] at h
      split at h
      · obtain rfl := Option.some.inj h
        exact ⟨rfl, rfl, le_rfl, id⟩
      · cases h
  | removes =>
      simp only [act] at h
      split at h
      · cases h
      · obtain rfl := Option.some.inj h
        exact ⟨rfl, rfl, le_rfl, id⟩
  | tick ms =>
      obtain rfl := Option.some.inj h
      exact ⟨rfl, rfl, Nat.le_add_right _ _, id⟩

/-- The directory is there when the lock is created, and the call has not ended badly. -/
structure Sane (s : Contention) : Prop where
  started : s.call.start ≤ s.now
  dir : s.stage = .creating → s.lockDir = true
  endsWell : s.EndsWell

/-- A call under way has not ended badly. -/
theorem endsWell_of_running {s : Contention} (h : s.stage.over = false) : s.EndsWell := by
  unfold EndsWell
  split
  next hstage =>
    rw [hstage] at h
    cases h
  next hstage =>
    rw [hstage] at h
    cases h
  · trivial

theorem sane_of_running {s : Contention} (hstarted : s.call.start ≤ s.now)
    (hrunning : s.stage.over = false) (hcreating : s.stage ≠ .creating) : s.Sane :=
  ⟨hstarted, fun h => absurd h hcreating, endsWell_of_running hrunning⟩

theorem sane_start (timeoutMs retryIntervalMs now : ℕ) (lockDir : Bool) (lock : Option ℕ) :
    (start timeoutMs retryIntervalMs now lockDir lock).Sane :=
  sane_of_running le_rfl rfl nofun

/-- An operation of the call that is no `statSync` of a missing lock. -/
theorem sane_acquire {s t : Contention} (hs : s.Sane)
    (hfinds : s.stage = .statting → s.file.isSome) (h : s.acquire = some t) : t.Sane := by
  unfold acquire at h
  cases hstage : s.stage with
  | lookingUp =>
      simp only [hstage, Option.some.injEq] at h
      subst h
      by_cases hdir : s.lockDir = true
      · simp only [hdir, if_true]
        exact ⟨hs.started, fun _ => rfl, trivial⟩
      · simp only [hdir]
        exact sane_of_running hs.started rfl nofun
  | makingDir =>
      simp only [hstage, Option.some.injEq] at h
      exact h ▸ ⟨hs.started, fun _ => rfl, trivial⟩
  | creating =>
      simp only [hstage, hs.dir hstage, if_true] at h
      split at h
      · obtain rfl := Option.some.inj h
        exact ⟨hs.started, nofun, s.now, rfl⟩
      · obtain rfl := Option.some.inj h
        exact sane_of_running hs.started rfl nofun
  | rejected =>
      simp only [hstage, Option.some.injEq] at h
      subst h
      by_cases htime : s.call.timeoutMs ≤ s.now - s.call.start
      · simp only [htime, if_true]
        refine ⟨hs.started, nofun, rfl, ?_⟩
        show s.call.start + s.call.timeoutMs ≤ s.now
        exact Nat.add_le_of_le_sub' hs.started htime
      · simp only [htime, if_false]
        exact sane_of_running hs.started rfl nofun
  | statting =>
      -- The only operation that can end the call badly, were the lock gone.
      obtain ⟨f, hfile⟩ := Option.isSome_iff_exists.mp (hfinds hstage)
      simp only [hstage, hfile, Option.some.injEq] at h
      exact h ▸ sane_of_running hs.started rfl nofun
  | judging mtimeMs =>
      simp only [hstage, Option.some.injEq] at h
      subst h
      split
      · exact sane_of_running hs.started rfl nofun
      · exact sane_of_running hs.started rfl nofun
  | removing =>
      simp only [hstage, Option.some.injEq] at h
      exact h ▸ sane_of_running hs.started rfl nofun
  | waiting until_ =>
      simp only [hstage] at h
      split at h
      · obtain rfl := Option.some.inj h
        exact sane_of_running hs.started rfl nofun
      · cases h
  | returned => simp [hstage] at h
  | threw e => simp [hstage] at h

/-- **One step** keeps a call sane unless its `statSync` finds nothing. -/
theorem sane_step {s t : Contention} {l : Action} (hs : s.Sane) (hfinds : s.StatFindsLock l)
    (h : step s l = some t) : t.Sane := by
  by_cases hl : l = .acquire
  · subst hl
    exact sane_acquire hs (hfinds rfl) (step_eq_some h).2
  · obtain ⟨hrunning, hact⟩ := step_eq_some h
    obtain ⟨hstage, hcall, hnow, hdir⟩ := act_other hl hact
    refine ⟨hcall ▸ hs.started.trans hnow, ?_, endsWell_of_running (hstage ▸ hrunning)⟩
    intro hcreating
    exact hdir (hs.dir (hstage ▸ hcreating))

/-- The `statSync` of a missing lock throws its own error. -/
theorem not_endsWell_of_statting {s t : Contention} {l : Action} (hfinds : ¬ s.StatFindsLock l)
    (h : step s l = some t) : ¬ t.EndsWell := by
  simp only [StatFindsLock, Classical.not_imp, Bool.not_eq_true, Option.isSome_eq_false_iff,
    Option.isNone_iff_eq_none] at hfinds
  obtain ⟨rfl, hstage, hfile⟩ := hfinds
  have hacquire : s.acquire = some t := (step_eq_some h).2
  simp only [acquire, hstage, hfile, Option.some.injEq] at hacquire
  subst hacquire
  rintro ⟨herror, -⟩
  cases herror

/-! ## The number of operations -/

/-- The operations that a call can still make once its timeout has passed. -/
def operationsLeft : Stage → ℕ
  | .statting => 7
  | .judging _ => 6
  | .removing => 5
  | .waiting _ => 5
  | .lookingUp => 4
  | .makingDir => 3
  | .creating => 2
  | .rejected => 1
  | .returned => 0
  | .threw _ => 0

theorem operationsLeft_le (stage : Stage) : operationsLeft stage ≤ 7 := by
  cases stage <;> simp [operationsLeft]

/-- Past the timeout no operation leads back to `statSync`. -/
theorem operationsLeft_acquire {s t : Contention} (h : s.acquire = some t)
    (htime : s.call.start + s.call.timeoutMs ≤ s.now) :
    operationsLeft t.stage + 1 ≤ operationsLeft s.stage ∧ t.call = s.call ∧ t.now = s.now := by
  have htimeout : s.call.timeoutMs ≤ s.now - s.call.start := by omega
  unfold acquire at h
  cases hstage : s.stage with
  | lookingUp =>
      simp only [hstage, Option.some.injEq] at h
      subst h
      exact ⟨by dsimp only; split <;> decide, rfl, rfl⟩
  | makingDir =>
      simp only [hstage, Option.some.injEq] at h
      exact h ▸ ⟨le_rfl, rfl, rfl⟩
  | creating =>
      simp only [hstage] at h
      split at h
      · split at h
        · obtain rfl := Option.some.inj h
          exact ⟨Nat.le_succ 1, rfl, rfl⟩
        · obtain rfl := Option.some.inj h
          exact ⟨le_rfl, rfl, rfl⟩
      · obtain rfl := Option.some.inj h
        exact ⟨Nat.le_succ 1, rfl, rfl⟩
  | rejected =>
      simp only [hstage, htimeout, if_true, Option.some.injEq] at h
      exact h ▸ ⟨le_rfl, rfl, rfl⟩
  | statting =>
      simp only [hstage] at h
      split at h
      · obtain rfl := Option.some.inj h
        exact ⟨Nat.le_add_left 1 6, rfl, rfl⟩
      · obtain rfl := Option.some.inj h
        exact ⟨le_rfl, rfl, rfl⟩
  | judging mtimeMs =>
      simp only [hstage, Option.some.injEq] at h
      subst h
      exact ⟨by dsimp only; split <;> exact le_rfl, rfl, rfl⟩
  | removing =>
      simp only [hstage, Option.some.injEq] at h
      exact h ▸ ⟨le_rfl, rfl, rfl⟩
  | waiting until_ =>
      simp only [hstage] at h
      split at h
      · obtain rfl := Option.some.inj h
        exact ⟨le_rfl, rfl, rfl⟩
      · cases h
  | returned => simp [hstage] at h
  | threw e => simp [hstage] at h

theorem count_acquire_le {s u : Contention} {schedule : List Action}
    (htime : s.call.start + s.call.timeoutMs ≤ s.now)
    (hrun : execute step s schedule = some u) : schedule.count .acquire ≤ 7 := by
  have hcount := countP_le_rank step
    (fun s => s.call.start + s.call.timeoutMs ≤ s.now) (fun s => operationsLeft s.stage)
    (· == .acquire) htime ?_ ?_ hrun
  · exact hcount.trans (operationsLeft_le s.stage)
  · intro a l b ha h
    by_cases hl : l = .acquire
    · subst hl
      obtain ⟨-, hcall, hnow⟩ := operationsLeft_acquire (step_eq_some h).2 ha
      rw [hcall, hnow]
      exact ha
    · obtain ⟨-, hcall, hnow, -⟩ := act_other hl (step_eq_some h).2
      rw [hcall]
      exact ha.trans hnow
  · intro a l b ha h
    by_cases hl : l = .acquire
    · subst hl
      exact (operationsLeft_acquire (step_eq_some h).2 ha).1
    · rw [(act_other hl (step_eq_some h).2).1, if_neg (by simpa using hl), Nat.add_zero]

/-- Only `Atomics.wait` has to be waited for. -/
theorem isSome_acquire {s : Contention} (h : s.stage.over = false)
    (hwait : ∀ until_, s.stage = .waiting until_ → until_ ≤ s.now) : s.acquire.isSome := by
  unfold acquire
  cases hstage : s.stage with
  | lookingUp => rfl
  | makingDir => rfl
  | creating =>
      dsimp only
      split
      · split <;> rfl
      · rfl
  | rejected => rfl
  | statting =>
      dsimp only
      split <;> rfl
  | judging mtimeMs => rfl
  | removing => rfl
  | waiting until_ =>
      dsimp only
      rw [if_pos (hwait until_ hstage), Option.isSome_some]
  | returned =>
      rw [hstage] at h
      cases h
  | threw e =>
      rw [hstage] at h
      cases h

theorem exists_acquire_of_running {s : Contention} (h : s.stage.over = false) :
    ∃ ms u v, step s (.tick ms) = some u ∧ step u .acquire = some v := by
  obtain ⟨ms, hms⟩ : ∃ ms, ∀ until_, s.stage = .waiting until_ → until_ ≤ s.now + ms := by
    cases hstage : s.stage with
    | waiting until_ =>
        refine ⟨until_, ?_⟩
        rintro _ ⟨⟩
        exact Nat.le_add_left _ _
    | _ => exact ⟨0, nofun⟩
  obtain ⟨v, hv⟩ := Option.isSome_iff_exists.mp
    (isSome_acquire (s := { s with now := s.now + ms }) h hms)
  refine ⟨ms, { s with now := s.now + ms }, v, step_of_running h _, ?_⟩
  exact (step_of_running (s := { s with now := s.now + ms }) h _).trans hv

/-! ## Runs -/

theorem finishes (s : Contention) {u : Contention} {schedule : List Action}
    (hrun : execute step s schedule = some u) : s.Finishes schedule := by
  rintro past rest t rfl hpast
  refine ⟨exists_acquire_of_running, fun htime => ?_⟩
  exact count_acquire_le htime ((execute_append step hpast rest).symm.trans hrun)

/-- **Acquiring under contention.**  In every run of competitors, a call that is over has
returned with its lock or thrown its timeout error, exactly when every `statSync` found a
lock; and no call goes on for ever. -/
theorem conforms_iff (timeoutMs retryIntervalMs now : ℕ) (lockDir : Bool) (lock : Option ℕ)
    (schedule : List Action) (u : Contention)
    (hrun : execute step (start timeoutMs retryIntervalMs now lockDir lock) schedule = some u) :
    (start timeoutMs retryIntervalMs now lockDir lock).Conforms schedule ↔
      MeetsAlong step StatFindsLock (start timeoutMs retryIntervalMs now lockDir lock)
        schedule := by
  have halways :
      Always step EndsWell (start timeoutMs retryIntervalMs now lockDir lock) schedule ↔
        MeetsAlong step StatFindsLock (start timeoutMs retryIntervalMs now lockDir lock)
          schedule :=
    always_iff_meetsAlong step Sane (sane_start timeoutMs retryIntervalMs now lockDir lock)
      (fun _ h => h.endsWell)
      (fun _ _ _ ha _ hfinds h => sane_step ha hfinds h)
      (fun _ _ _ _ _ hfinds h => not_endsWell_of_statting hfinds h) hrun
  exact ⟨fun h => halways.mp h.1, fun h => ⟨halways.mpr h, finishes _ hrun⟩⟩

/-- The lock is released while the call waits for its second attempt. -/
def secondAttempt : List Action :=
  [.acquire, .acquire, .acquire, .acquire, .acquire, .removes, .tick 200, .acquire, .acquire,
    .acquire]

theorem secondAttempt_conforms :
    (start 30000 200 700000 true (some 699000)).Conforms secondAttempt := by
  have hrun : (execute step (start 30000 200 700000 true (some 699000)) secondAttempt).isSome := by
    decide +kernel
  obtain ⟨u, hu⟩ := Option.isSome_iff_exists.mp hrun
  exact (conforms_iff 30000 200 700000 true (some 699000) secondAttempt u hu).mpr
    (by decide +kernel)

/-- The lock is released after the failed `writeFileSync` and before `statSync`. -/
def releasedInBetween : List Action :=
  [.acquire, .acquire, .acquire, .removes, .acquire]

theorem releasedInBetween_fails :
    (execute step (start 30000 200 700000 true (some 699000)) releasedInBetween).map
        Contention.stage = some (.threw (.enoent .statSync)) ∧
      ¬ (start 30000 200 700000 true (some 699000)).Conforms releasedInBetween := by
  have hrun : (execute step (start 30000 200 700000 true (some 699000)) releasedInBetween).map
      Contention.stage = some (.threw (.enoent .statSync)) := by decide +kernel
  refine ⟨hrun, fun hconforms => ?_⟩
  obtain ⟨u, hu, hstage⟩ := Option.map_eq_some_iff.mp hrun
  have hends := always_final step hconforms.1 hu
  rw [EndsWell, hstage] at hends
  cases hends.1

end Contention

/-! ## The competitors of `n` processes -/

variable {n : ℕ}

/-- Where the process of the `n` stands in its call. -/
inductive InStage (a : Attempt) : ProcState → Stage → Prop where
  | creating : InStage a (.creating a) .lookingUp
  | rejected : InStage a (.rejected a) .rejected
  | checking : InStage a (.checking a) .statting
  | judging (mtimeMs : ℕ) : InStage a (.judging a mtimeMs) (.judging mtimeMs)
  | removing : InStage a (.removing a) .removing
  | waiting (until_ : ℕ) : InStage a (.waiting a until_) (.waiting until_)
  | holding (since : ℕ) : InStage a (.holding since) .returned
  | timeout : InStage a (.threw (.timeout a.timeoutMs)) (.threw (.timeout a.timeoutMs))
  | statMissing : InStage a (.threw .statMissing) (.threw (.enoent .statSync))

/-- `c` is what process `p` sees of `s` during its call `c.call`. -/
structure Shows (s : State n) (p : Fin n) (c : Contention) : Prop where
  now : c.now = s.now
  dir : c.lockDir = true
  file : c.file.map Lock.mtimeMs = s.file.map LockFile.mtimeMs
  stage : InStage c.call (s.procs p) c.stage

namespace Shows

theorem start {s t : State n} {p : Fin n} {timeoutMs retryIntervalMs : ℕ}
    (hstep : BootstrapLock.step s (.acquire p timeoutMs retryIntervalMs) = some t) :
    Shows t p (Contention.start timeoutMs retryIntervalMs s.now true
      (s.file.map LockFile.mtimeMs)) := by
  have hshows : Shows (s.setProc p (.creating ⟨s.now, timeoutMs, retryIntervalMs⟩)) p
      (Contention.start timeoutMs retryIntervalMs s.now true (s.file.map LockFile.mtimeMs)) := by
    refine ⟨rfl, rfl, ?_, ?_⟩
    · rw [Contention.start, Option.map_map]
      exact Option.map_id'
    · have hproc : (s.setProc p (.creating ⟨s.now, timeoutMs, retryIntervalMs⟩)).procs p =
          .creating ⟨s.now, timeoutMs, retryIntervalMs⟩ := Function.update_self ..
      rw [hproc]
      exact .creating
  simp only [BootstrapLock.step] at hstep
  split at hstep
  · exact Option.some.inj hstep ▸ hshows
  · exact Option.some.inj hstep ▸ hshows
  · cases hstep

theorem file_eq_none_iff {s : State n} {p : Fin n} {c : Contention} (h : Shows s p c) :
    s.file = none ↔ c.file = none := by
  rw [← Option.map_eq_none_iff (f := LockFile.mtimeMs), ← h.file, Option.map_eq_none_iff]

theorem exists_file {s : State n} {p : Fin n} {c : Contention} {f : Lock} (h : Shows s p c)
    (hfile : c.file = some f) : ∃ f', s.file = some f' ∧ f'.mtimeMs = f.mtimeMs :=
  Option.map_eq_some_iff.mp (h.file.symm.trans (congrArg (Option.map Lock.mtimeMs) hfile))

/-- What the others do to the lock file are creations and removals. -/
theorem exists_execute_of_others {s t : State n} {p : Fin n} {c : Contention} (h : Shows s p c)
    (hover : c.stage.over = false) (hnow : t.now = s.now) (hproc : t.procs p = s.procs p)
    (hfile : t.file = s.file ∨ t.file = none ∨ s.file = none) :
    ∃ labels d, execute Contention.step c labels = some d ∧ d.call = c.call ∧ Shows t p d := by
  have hcnow : c.now = t.now := h.now.trans hnow.symm
  have hstage : InStage c.call (t.procs p) c.stage := hproc ▸ h.stage
  rcases hfile with hsame | hgone | hnone
  · exact ⟨[], c, rfl, rfl, hcnow, h.dir, hsame ▸ h.file, hstage⟩
  · cases hc : c.file with
    | none => exact ⟨[], c, rfl, rfl, hcnow, h.dir, by rw [hc, hgone]; rfl, hstage⟩
    | some f =>
        refine ⟨[.removes], { c with file := none }, ?_, rfl, hcnow, h.dir, by rw [hgone]; rfl,
          hstage⟩
        rw [execute_cons, Contention.step_of_running hover]
        simp only [Contention.act, hc, reduceCtorEq, if_false]
        rfl
  · have hc := h.file_eq_none_iff.mp hnone
    cases ht : t.file with
    | none => exact ⟨[], c, rfl, rfl, hcnow, h.dir, by rw [hc, ht]; rfl, hstage⟩
    | some f =>
        refine ⟨[.creates f.mtimeMs], { c with file := some ⟨false, f.mtimeMs⟩ }, ?_, rfl, hcnow,
          h.dir, by rw [ht]; rfl, hstage⟩
        rw [execute_cons, Contention.step_of_running hover]
        simp only [Contention.act, hc, h.dir, and_self, if_true]
        rfl

/-- The `existsSync` of the lock directory, then the `writeFileSync`: two operations. -/
theorem exists_execute_of_creating {s t : State n} {p : Fin n} {c : Contention}
    (h : Shows s p c) (hstage : c.stage = .lookingUp) (hproc : s.procs p = .creating c.call)
    (hstep : s.advance p = some t) :
    ∃ labels d, execute Contention.step c labels = some d ∧ d.call = c.call ∧ Shows t p d := by
  have hset : ∀ v, (s.setProc p v).procs p = v := fun v => Function.update_self ..
  have hlook : Contention.step c .acquire = some { c with stage := .creating } := by
    have hover : c.stage.over = false := by rw [hstage]; rfl
    rw [Contention.step_of_running hover, Contention.act, Contention.acquire, hstage]
    simp only [h.dir, if_true]
  simp only [State.advance, hproc] at hstep
  cases hfile : c.file with
  | none =>
      simp only [h.file_eq_none_iff.mpr hfile, Option.some.injEq] at hstep
      subst hstep
      refine ⟨[.acquire, .acquire],
        { c with file := some ⟨true, c.now⟩, stage := .returned }, ?_, rfl, h.now, h.dir, ?_,
        (hset _).symm ▸ .holding s.now⟩
      · rw [execute_cons, hlook, Option.bind_some, execute_singleton,
          Contention.step_of_running rfl]
        simp only [Contention.act, Contention.acquire, h.dir, if_true, hfile]
      · exact congrArg some h.now
  | some f =>
      obtain ⟨f', hsfile, -⟩ := h.exists_file hfile
      simp only [hsfile, Option.some.injEq] at hstep
      subst hstep
      refine ⟨[.acquire, .acquire], { c with stage := .rejected }, ?_, rfl, h.now, h.dir,
        h.file, (hset _).symm ▸ .rejected⟩
      rw [execute_cons, hlook, Option.bind_some, execute_singleton,
        Contention.step_of_running rfl]
      simp only [Contention.act, Contention.acquire, h.dir, if_true, hfile]

/-- A step of the process itself is one operation, or two where the lock directory is looked
up first. -/
theorem exists_execute_of_advance {s t : State n} {p : Fin n} {c : Contention} (h : Shows s p c)
    (hover : c.stage.over = false) (hstep : s.advance p = some t) :
    ∃ labels d, execute Contention.step c labels = some d ∧ d.call = c.call ∧ Shows t p d := by
  have hone : ∀ d, c.acquire = some d → execute Contention.step c [.acquire] = some d :=
    fun d hd => by
      rw [execute_singleton, Contention.step_of_running hover]
      exact hd
  have hset : ∀ v, (s.setProc p v).procs p = v := fun v => Function.update_self ..
  have hin := h.stage
  have hadvance := hstep
  unfold State.advance at hstep
  generalize hproc : s.procs p = proc at hin hstep
  generalize hstage : c.stage = stage at hin
  cases hin with
  | creating => exact h.exists_execute_of_creating hstage hproc hadvance
  | rejected =>
      obtain rfl := Option.some.inj hstep
      refine ⟨[.acquire], { c with
          stage :=
            if c.call.timeoutMs ≤ c.now - c.call.start then .threw (.timeout c.call.timeoutMs)
            else .statting },
        hone _ (by rw [Contention.acquire, hstage]), rfl, h.now, h.dir, h.file, ?_⟩
      rw [hset, h.now]
      split
      · exact .timeout
      · exact .checking
  | checking =>
      -- Both see the same lock, and so judge the same age.
      cases hfile : c.file with
      | none =>
          simp only [h.file_eq_none_iff.mpr hfile, Option.some.injEq] at hstep
          subst hstep
          exact ⟨[.acquire], { c with stage := .threw (.enoent .statSync) },
            hone _ (by simp only [Contention.acquire, hstage, hfile]), rfl, h.now, h.dir, h.file,
            (hset _).symm ▸ .statMissing⟩
      | some f =>
          obtain ⟨f', hsfile, hmtime⟩ := h.exists_file hfile
          simp only [hsfile, Option.some.injEq] at hstep
          subst hstep
          refine ⟨[.acquire], { c with stage := .judging f.mtimeMs },
            hone _ (by simp only [Contention.acquire, hstage, hfile]), rfl, h.now, h.dir, h.file, ?_⟩
          rw [hset, hmtime]
          exact .judging _
  | judging mtimeMs =>
      obtain rfl := Option.some.inj hstep
      refine ⟨[.acquire], { c with
          stage :=
            if staleLimitMs < c.now - mtimeMs then .removing
            else .waiting (c.now + c.call.retryIntervalMs) },
        hone _ (by rw [Contention.acquire, hstage]), rfl, h.now, h.dir, h.file, ?_⟩
      rw [hset, h.now]
      split
      · exact .removing
      · exact .waiting _
  | removing =>
      obtain rfl := Option.some.inj hstep
      exact ⟨[.acquire], { c with file := none, stage := .lookingUp },
        hone _ (by rw [Contention.acquire, hstage]), rfl, h.now, h.dir, rfl,
        (hset _).symm ▸ .creating⟩
  | waiting until_ =>
      simp only at hstep
      split at hstep
      next htime =>
        obtain rfl := Option.some.inj hstep
        refine ⟨[.acquire], { c with stage := .lookingUp }, hone _ ?_, rfl, h.now, h.dir, h.file,
          (hset _).symm ▸ .creating⟩
        simp only [Contention.acquire, hstage, h.now, htime, if_true]
      · cases hstep
  | holding since => cases hstep
  | timeout => cases hstep
  | statMissing => cases hstep

/-- An operation of one process is nothing to another but a change of the file. -/
theorem advance_other {s t : State n} {p q : Fin n} (hne : p ≠ q) (h : s.advance q = some t) :
    t.now = s.now ∧ t.procs p = s.procs p ∧
      (t.file = s.file ∨ t.file = none ∨ s.file = none) := by
  have hset : ∀ v, (s.setProc q v).procs p = s.procs p := fun v => Function.update_of_ne hne ..
  unfold State.advance at h
  cases hproc : s.procs q with
  | creating a =>
      cases hfile : s.file with
      | none =>
          simp only [hproc, hfile, Option.some.injEq] at h
          exact h ▸ ⟨rfl, hset _, .inr (.inr rfl)⟩
      | some f =>
          simp only [hproc, hfile, Option.some.injEq] at h
          exact h ▸ ⟨rfl, hset _, .inl hfile⟩
  | rejected a =>
      simp only [hproc, Option.some.injEq] at h
      exact h ▸ ⟨rfl, hset _, .inl rfl⟩
  | checking a =>
      cases hfile : s.file with
      | none =>
          simp only [hproc, hfile, Option.some.injEq] at h
          exact h ▸ ⟨rfl, hset _, .inl hfile⟩
      | some f =>
          simp only [hproc, hfile, Option.some.injEq] at h
          exact h ▸ ⟨rfl, hset _, .inl hfile⟩
  | judging a mtimeMs =>
      simp only [hproc, Option.some.injEq] at h
      exact h ▸ ⟨rfl, hset _, .inl rfl⟩
  | removing a =>
      simp only [hproc, Option.some.injEq] at h
      exact h ▸ ⟨rfl, hset _, .inr (.inl rfl)⟩
  | waiting a until_ =>
      simp only [hproc] at h
      split at h
      · obtain rfl := Option.some.inj h
        exact ⟨rfl, hset _, .inl rfl⟩
      · cases h
  | releasing since =>
      simp only [hproc, Option.some.injEq] at h
      exact h ▸ ⟨rfl, hset _, .inr (.inl rfl)⟩
  | idle => simp [hproc] at h
  | holding since => simp [hproc] at h
  | threw e => simp [hproc] at h
  | crashed => simp [hproc] at h

/-- A process inside its call neither begins nor ends one. -/
theorem running_of_over {s : State n} {p : Fin n} {c : Contention} (h : Shows s p c)
    (hover : c.stage.over = false) :
    s.procs p ≠ .idle ∧ (∀ e, s.procs p ≠ .threw e) ∧ ∀ since, s.procs p ≠ .holding since := by
  have hin := h.stage
  generalize hproc : s.procs p = proc at hin
  generalize hstage : c.stage = stage at hin
  cases hin with
  | holding since =>
      rw [hstage] at hover
      cases hover
  | timeout =>
      rw [hstage] at hover
      cases hover
  | statMissing =>
      rw [hstage] at hover
      cases hover
  | _ => exact ⟨nofun, nofun, nofun⟩

/-- **Simulation.**  To a process inside its call, every step of the `n` processes short of
its own crash is a run of competitors and of itself. -/
theorem exists_execute_of_step {s t : State n} {p : Fin n} {c : Contention} {l : Label n}
    (h : Shows s p c) (hover : c.stage.over = false) (hcrash : l ≠ .crash p)
    (hstep : BootstrapLock.step s l = some t) :
    ∃ labels d, execute Contention.step c labels = some d ∧ d.call = c.call ∧ Shows t p d := by
  obtain ⟨hidle, hthrew, hholding⟩ := h.running_of_over hover
  have hset : ∀ {q v}, p ≠ q → (s.setProc q v).procs p = s.procs p := fun hne =>
    Function.update_of_ne hne ..
  cases l with
  | acquire q timeoutMs retryIntervalMs =>
      have hne : ∀ {e}, s.procs q = .idle ∨ s.procs q = .threw e → p ≠ q := by
        rintro e (hq | hq) rfl
        · exact hidle hq
        · exact hthrew e hq
      simp only [BootstrapLock.step] at hstep
      split at hstep
      next hq =>
        obtain rfl := Option.some.inj hstep
        exact h.exists_execute_of_others hover rfl (hset (hne (e := .statMissing) (.inl hq)))
          (.inl rfl)
      next e hq =>
        obtain rfl := Option.some.inj hstep
        exact h.exists_execute_of_others hover rfl (hset (hne (.inr hq))) (.inl rfl)
      · cases hstep
  | release q =>
      simp only [BootstrapLock.step] at hstep
      split at hstep
      next since hq =>
        obtain rfl := Option.some.inj hstep
        have hne : p ≠ q := by
          rintro rfl
          exact hholding since hq
        exact h.exists_execute_of_others hover rfl (hset hne) (.inl rfl)
      · cases hstep
  | advance q =>
      by_cases hne : p = q
      · subst hne
        exact h.exists_execute_of_advance hover hstep
      · obtain ⟨hnow, hproc, hfile⟩ := advance_other hne hstep
        exact h.exists_execute_of_others hover hnow hproc hfile
  | crash q =>
      have hne : p ≠ q := by
        rintro rfl
        exact hcrash rfl
      simp only [BootstrapLock.step] at hstep
      split at hstep
      · cases hstep
      · obtain rfl := Option.some.inj hstep
        exact h.exists_execute_of_others hover rfl (hset hne) (.inl rfl)
  | tick ms =>
      simp only [BootstrapLock.step] at hstep
      split at hstep
      · obtain rfl := Option.some.inj hstep
        refine ⟨[.tick ms], { c with now := c.now + ms }, ?_, rfl, congrArg (· + ms) h.now, h.dir,
          h.file, h.stage⟩
        rw [execute_singleton, Contention.step_of_running hover]
        rfl
      · cases hstep

end Shows

end LockContention
end Sdk
end AvaListener
