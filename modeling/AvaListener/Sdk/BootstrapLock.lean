import Mathlib.Data.Fintype.Pi
import Mathlib.Data.Fintype.Basic
import Mathlib.Logic.Function.Basic
import AvaListener.Library.Runs

/-!
# The bootstrap lock

`node/bootstrap_lock.js` run by `n` processes on one lock path.  Every
file-system call is one atomic step, and so is every reading of the clock; a
schedule interleaves them at will.  Times are in milliseconds.

Holders release within the stale limit, which is a guard of the clock.  They may
also crash, leaving the lock file behind.
-/

namespace AvaListener
namespace Sdk
namespace BootstrapLock

open Library

/-- `10 * 60 * 1000`. -/
def staleLimitMs : ℕ := 600000

variable {n : ℕ}

/-- The file at the lock path: the process named in its content, if it is one of
the `n`, and its modification time. -/
structure LockFile (n : ℕ) where
  owner : Option (Fin n)
  mtimeMs : ℕ
  deriving DecidableEq

/-- One call `acquire(timeoutMs, retryIntervalMs)` that began at `start`. -/
structure Attempt where
  start : ℕ
  timeoutMs : ℕ
  retryIntervalMs : ℕ
  deriving DecidableEq

/-- What `acquire` can throw. -/
inductive LockError where
  /-- `Could not acquire bootstrap lock after ...ms` -/
  | timeout (timeoutMs : ℕ)
  /-- `statSync` on a path that has gone: `ENOENT` escapes the handler. -/
  | statMissing
  deriving DecidableEq

/-- Where a process stands: before the call that the name says it makes next. -/
inductive ProcState where
  | idle
  /-- Before `writeFileSync` with flag `wx`. -/
  | creating (a : Attempt)
  /-- `EEXIST` was thrown; before the timeout check. -/
  | rejected (a : Attempt)
  /-- Before `statSync`. -/
  | checking (a : Attempt)
  /-- Before the age of the file seen is computed. -/
  | judging (a : Attempt) (mtimeMs : ℕ)
  /-- The file was judged stale; before `unlinkSync`. -/
  | removing (a : Attempt)
  | waiting (a : Attempt) (until_ : ℕ)
  /-- `acquire` returned. -/
  | holding (since : ℕ)
  /-- In `release`, after `existsSync` and before `unlinkSync`. -/
  | releasing (since : ℕ)
  | threw (e : LockError)
  | crashed
  deriving DecidableEq

/-- The process is between a successful `acquire` and the end of `release`, since
the given time. -/
def ProcState.heldSince : ProcState → Option ℕ
  | .holding since => some since
  | .releasing since => some since
  | _ => none

structure State (n : ℕ) where
  now : ℕ
  file : Option (LockFile n)
  procs : Fin n → ProcState

/-- All processes idle, at some time, with whatever file a crashed holder left. -/
def State.start (n now : ℕ) (file : Option (LockFile n)) : State n :=
  ⟨now, file, fun _ => .idle⟩

namespace State

def setProc (s : State n) (p : Fin n) (v : ProcState) : State n :=
  { s with procs := Function.update s.procs p v }

def Holds (s : State n) (p : Fin n) : Prop :=
  ((s.procs p).heldSince).isSome

instance (s : State n) (p : Fin n) : Decidable (s.Holds p) :=
  inferInstanceAs (Decidable (_ = true))

/-- At most one live process holds the lock. -/
def MutualExclusion (s : State n) : Prop :=
  ∀ p q, s.Holds p → s.Holds q → p = q

instance (s : State n) : Decidable s.MutualExclusion := by
  unfold MutualExclusion
  infer_instance

/-- Every holder has held for at most the stale limit. -/
def HoldersInTime (s : State n) : Prop :=
  ∀ p, ∀ since ∈ (s.procs p).heldSince, s.now ≤ since + staleLimitMs

instance (s : State n) : Decidable s.HoldersInTime := by
  unfold HoldersInTime
  infer_instance

/-- The next step of a process inside `acquire` or `release`. -/
def advance (s : State n) (p : Fin n) : Option (State n) :=
  match s.procs p with
  | .creating a =>
      match s.file with
      | none => some { s.setProc p (.holding s.now) with file := some ⟨some p, s.now⟩ }
      | some _ => some (s.setProc p (.rejected a))
  | .rejected a =>
      some (s.setProc p
        (if a.timeoutMs ≤ s.now - a.start then .threw (.timeout a.timeoutMs) else .checking a))
  | .checking a =>
      match s.file with
      | none => some (s.setProc p (.threw .statMissing))
      | some f => some (s.setProc p (.judging a f.mtimeMs))
  | .judging a mtimeMs =>
      some (s.setProc p
        (if staleLimitMs < s.now - mtimeMs then .removing a
        else .waiting a (s.now + a.retryIntervalMs)))
  -- `unlinkSync` by path: whatever file is there now; a failure is swallowed.
  | .removing a => some { s.setProc p (.creating a) with file := none }
  | .waiting a until_ => if until_ ≤ s.now then some (s.setProc p (.creating a)) else none
  | .releasing _ => some { s.setProc p .idle with file := none }
  | _ => none

end State

/-- What a schedule can do. -/
inductive Label (n : ℕ) where
  /-- Call `acquire`. -/
  | acquire (p : Fin n) (timeoutMs retryIntervalMs : ℕ)
  /-- Call `release`, up to its `existsSync`. -/
  | release (p : Fin n)
  /-- One more step of a call under way. -/
  | advance (p : Fin n)
  | crash (p : Fin n)
  /-- Time passes, as far as the holders keep their promise. -/
  | tick (ms : ℕ)

def step (s : State n) : Label n → Option (State n)
  | .acquire p timeoutMs retryIntervalMs =>
      match s.procs p with
      | .idle | .threw _ => some (s.setProc p (.creating ⟨s.now, timeoutMs, retryIntervalMs⟩))
      | _ => none
  | .release p =>
      match s.procs p with
      | .holding since => some (s.setProc p (if s.file.isSome then .releasing since else .idle))
      | _ => none
  | .advance p => s.advance p
  | .crash p => if s.procs p = .crashed then none else some (s.setProc p .crashed)
  | .tick ms =>
      let later := { s with now := s.now + ms }
      if later.HoldersInTime then some later else none

/-- A stale removal deletes no file younger than the stale limit. -/
def RemovesStale (s : State n) : Label n → Prop
  | .advance p => ∀ a, s.procs p = .removing a → ∀ f, s.file = some f →
      staleLimitMs < s.now - f.mtimeMs
  | _ => True

/-- The process is about to remove the file. -/
def ProcState.removes : ProcState → Bool
  | .removing _ => true
  | _ => false

theorem ProcState.removes_iff {v : ProcState} : v.removes = true ↔ ∃ a, v = .removing a := by
  cases v <;> simp [removes]

instance decidableRemovesStale (s : State n) : ∀ l, Decidable (RemovesStale s l)
  | .advance p =>
      decidable_of_iff
        ((s.procs p).removes = true → ∀ f ∈ s.file, staleLimitMs < s.now - f.mtimeMs) (by
          rw [ProcState.removes_iff, forall_exists_index]
          rfl)
  | .acquire _ _ _ | .release _ | .crash _ | .tick _ => inferInstanceAs (Decidable True)

/-! ## The invariant -/

/-- The lock file of a holder is at the path, and in time. -/
def Owned (s : State n) : Prop :=
  ∀ p, ∀ since ∈ (s.procs p).heldSince,
    s.file = some ⟨some p, since⟩ ∧ s.now ≤ since + staleLimitMs

theorem owned_start (now : ℕ) (file : Option (LockFile n)) : Owned (State.start n now file) := by
  intro p since h
  cases h

theorem mutualExclusion_of_owned {s : State n} (h : Owned s) : s.MutualExclusion := by
  intro p q hp hq
  obtain ⟨since, hsince⟩ := Option.isSome_iff_exists.mp hp
  obtain ⟨since', hsince'⟩ := Option.isSome_iff_exists.mp hq
  have hfile := (h p since hsince).1.symm.trans (h q since' hsince').1
  simp only [Option.some.injEq, LockFile.mk.injEq] at hfile
  exact hfile.1

/-- A process that does not become a holder changes nothing for the others. -/
theorem Owned.setProc {s : State n} (h : Owned s) (p : Fin n) {v : ProcState}
    (hv : v.heldSince = none) : Owned (s.setProc p v) := by
  intro q since hq
  have hq' : since ∈ (Function.update s.procs p v q).heldSince := hq
  by_cases hqp : q = p
  · rw [hqp, Function.update_self, hv] at hq'
    cases hq'
  · rw [Function.update_of_ne hqp] at hq'
    exact h q since hq'

/-- Without holders the file may go. -/
theorem owned_of_no_holder {s : State n} (hnone : ∀ q, (s.procs q).heldSince = none) : Owned s := by
  intro q since hq
  rw [hnone q] at hq
  cases hq

/-- Where a young file is missing there is no holder. -/
theorem Owned.no_holder_of_stale {s : State n} (h : Owned s)
    (hstale : ∀ f, s.file = some f → staleLimitMs < s.now - f.mtimeMs) (q : Fin n) :
    (s.procs q).heldSince = none := by
  cases hq : (s.procs q).heldSince with
  | none => rfl
  | some since =>
      obtain ⟨hfile, htime⟩ := h q since hq
      have hold : staleLimitMs < s.now - since := hstale _ hfile
      omega

theorem no_holder_setProc {s : State n} {p : Fin n} {v : ProcState}
    (hothers : ∀ q, q ≠ p → (s.procs q).heldSince = none) (hv : v.heldSince = none) (q : Fin n) :
    ((s.setProc p v).procs q).heldSince = none := by
  show (Function.update s.procs p v q).heldSince = none
  by_cases hqp : q = p
  · rw [hqp, Function.update_self, hv]
  · rw [Function.update_of_ne hqp]
    exact hothers q hqp

theorem Owned.advance {s t : State n} (h : Owned s) (p : Fin n)
    (hstale : ∀ a, s.procs p = .removing a → ∀ f, s.file = some f →
      staleLimitMs < s.now - f.mtimeMs)
    (hstep : s.advance p = some t) : Owned t := by
  unfold State.advance at hstep
  cases hp : s.procs p with
  | idle => simp [hp] at hstep
  | creating a =>
      cases hfile : s.file with
      | none =>
          simp only [hp, hfile, Option.some.injEq] at hstep
          have hnone := h.no_holder_of_stale (by simp [hfile])
          subst hstep
          intro q since hq
          have hq' : since ∈ (Function.update s.procs p (.holding s.now) q).heldSince := hq
          by_cases hqp : q = p
          · subst hqp
            rw [Function.update_self] at hq'
            obtain rfl : s.now = since := Option.some.inj hq'
            exact ⟨rfl, Nat.le_add_right _ _⟩
          · rw [Function.update_of_ne hqp, hnone q] at hq'
            cases hq'
      | some f =>
          simp only [hp, hfile, Option.some.injEq] at hstep
          exact hstep ▸ h.setProc p rfl
  | rejected a =>
      simp only [hp, Option.some.injEq] at hstep
      exact hstep ▸ h.setProc p (by split <;> rfl)
  | checking a =>
      cases hfile : s.file with
      | none =>
          simp only [hp, hfile, Option.some.injEq] at hstep
          exact hstep ▸ h.setProc p rfl
      | some f =>
          simp only [hp, hfile, Option.some.injEq] at hstep
          exact hstep ▸ h.setProc p rfl
  | judging a mtimeMs =>
      simp only [hp, Option.some.injEq] at hstep
      exact hstep ▸ h.setProc p (by split <;> rfl)
  | removing a =>
      -- The one step that deletes a file it does not own.
      simp only [hp, Option.some.injEq] at hstep
      have hnone := h.no_holder_of_stale (hstale a hp)
      subst hstep
      exact owned_of_no_holder (no_holder_setProc (fun q _ => hnone q) rfl)
  | waiting a until_ =>
      simp only [hp] at hstep
      split at hstep
      · obtain rfl := Option.some.inj hstep
        exact h.setProc p rfl
      · cases hstep
  | holding since => simp [hp] at hstep
  | releasing since =>
      simp only [hp, Option.some.injEq] at hstep
      have hheld : (s.procs p).heldSince = some since := by rw [hp]; rfl
      have hothers : ∀ q, q ≠ p → (s.procs q).heldSince = none := by
        intro q hqp
        cases hq : (s.procs q).heldSince with
        | none => rfl
        | some since' =>
            have hsame := mutualExclusion_of_owned h q p (by simp [State.Holds, hq])
              (by simp [State.Holds, hheld])
            exact absurd hsame hqp
      subst hstep
      exact owned_of_no_holder (no_holder_setProc hothers rfl)
  | threw e => simp [hp] at hstep
  | crashed => simp [hp] at hstep

/-- **One step.**  A step whose stale removals delete no young file keeps every
holder's file in place. -/
theorem Owned.step {s t : State n} {l : Label n} (h : Owned s) (hstale : RemovesStale s l)
    (hstep : BootstrapLock.step s l = some t) : Owned t := by
  cases l with
  | acquire p timeoutMs retryIntervalMs =>
      simp only [BootstrapLock.step] at hstep
      split at hstep
      · obtain rfl := Option.some.inj hstep
        exact h.setProc p rfl
      · obtain rfl := Option.some.inj hstep
        exact h.setProc p rfl
      · cases hstep
  | release p =>
      simp only [BootstrapLock.step] at hstep
      split at hstep
      next since hp =>
        obtain rfl := Option.some.inj hstep
        have hfile := (h p since (by rw [hp]; rfl)).1
        -- The holder's own file is there, so it stays a holder until the unlink.
        rw [hfile]
        intro q since' hq
        have hq' : since' ∈ (Function.update s.procs p (.releasing since) q).heldSince := hq
        by_cases hqp : q = p
        · subst hqp
          rw [Function.update_self] at hq'
          obtain rfl : since = since' := Option.some.inj hq'
          exact h q since (by rw [hp]; rfl)
        · rw [Function.update_of_ne hqp] at hq'
          exact h q since' hq'
      · cases hstep
  | advance p => exact h.advance p hstale hstep
  | crash p =>
      simp only [BootstrapLock.step] at hstep
      split at hstep
      · cases hstep
      · obtain rfl := Option.some.inj hstep
        exact h.setProc p rfl
  | tick ms =>
      simp only [BootstrapLock.step] at hstep
      split at hstep
      next htime =>
        obtain rfl := Option.some.inj hstep
        intro q since hq
        exact ⟨(h q since hq).1, htime q since hq⟩
      · cases hstep

/-- **Mutual exclusion.**  For any number of processes, any old lock file and any
schedule of file-system calls, crashes and clock ticks in which every stale
removal deletes a file that is still stale (or none), at most one live process
holds the lock in every state. -/
theorem mutual_exclusion_of_stale_removals (n now : ℕ) (file : Option (LockFile n))
    (schedule : List (Label n))
    (hstale : MeetsAlong step RemovesStale (State.start n now file) schedule) :
    Always step State.MutualExclusion (State.start n now file) schedule :=
  always_of_meetsAlong step (owned_start now file) (fun _ => mutualExclusion_of_owned)
    (fun _ _ _ h hcond hstep => h.step hcond hstep) hstale

/-- One process finds an old lock file, removes it and acquires the lock. -/
def takeOver : List (Label 2) :=
  [.acquire 0 30000 200, .advance 0, .advance 0, .advance 0, .advance 0, .advance 0, .advance 0]

theorem takeOver_excludes :
    Always step State.MutualExclusion (State.start 2 700000 (some ⟨none, 0⟩)) takeOver := by
  refine mutual_exclusion_of_stale_removals 2 700000 (some ⟨none, 0⟩) takeOver ?_
  decide +kernel

/-- Two processes judge the same old file stale; the second removal deletes the
lock the first one has just acquired. -/
def doubleTakeOver : List (Label 2) :=
  [.acquire 0 30000 200, .acquire 1 30000 200, .advance 0, .advance 1, .advance 0, .advance 1,
    .advance 0, .advance 1, .advance 0, .advance 1, .advance 0, .advance 0, .advance 1,
    .advance 1]

theorem doubleTakeOver_breaks_exclusion :
    ((execute step (State.start 2 700000 (some ⟨none, 0⟩)) doubleTakeOver).map fun s =>
        (s.procs 0, s.procs 1)) = some (.holding 700000, .holding 700000) ∧
      ¬ Always step State.MutualExclusion (State.start 2 700000 (some ⟨none, 0⟩))
        doubleTakeOver := by
  have hrun : ((execute step (State.start 2 700000 (some ⟨none, 0⟩)) doubleTakeOver).map fun s =>
      (s.procs 0, s.procs 1)) = some (.holding 700000, .holding 700000) := by decide +kernel
  refine ⟨hrun, ?_⟩
  intro halways
  obtain ⟨final, hfinal, hprocs⟩ := Option.map_eq_some_iff.mp hrun
  obtain ⟨h0, h1⟩ := Prod.mk.inj hprocs
  have hsame := always_final step halways hfinal 0 1 (by simp [State.Holds, h0, ProcState.heldSince])
    (by simp [State.Holds, h1, ProcState.heldSince])
  exact absurd hsame (by decide)

end BootstrapLock
end Sdk
end AvaListener
