import AvaListener.Library.SharedCells

/-!
# Subsystem life cycles

`SubsystemLifecycle` of `runtime/kernel/lifecycle.py`: the states of a subsystem, the
table of its transitions, and its methods as accesses to the attribute `state`.

The class has no lock.  Each mention of `self.state` is a read of its own, and
`transition` checks the state that it has read before it writes the new one.  `shutdown`
and `recover` consist of guarded transitions, each of them an operation here.
-/

namespace AvaListener
namespace Kernel

open Library

inductive SubsystemState where
  | offline
  | initializing
  | ready
  | active
  | faulted
  | recovering
  deriving DecidableEq, Repr

namespace SubsystemState

/-- `VALID_SUBSYSTEM_TRANSITIONS`. -/
def validTransitions : SubsystemState → List SubsystemState
  | offline => [initializing]
  | initializing => [ready, faulted]
  | ready => [active, offline]
  | active => [ready, faulted]
  | faulted => [recovering, offline]
  | recovering => [active, faulted]

/-- `transition`; the exception is the `ValueError`. -/
def transition (target : SubsystemState) : Access SubsystemState :=
  .read fun prev =>
    if target ≠ prev ∧ target ∉ prev.validTransitions then .raise else .write target

/-- The test at the head of `shutdown`. -/
def testOffline : Access SubsystemState := .read fun _ => .done

/-- The first transition of `shutdown`. -/
def release : Access SubsystemState :=
  .read fun first =>
    if first = initializing then transition ready
    else .read fun second =>
      if second = active then transition ready
      else .read fun third =>
        if third = recovering then transition faulted else .done

/-- Its second transition. -/
def goOffline : Access SubsystemState :=
  .read fun s => if s = ready ∨ s = faulted then transition offline else .done

/-- The first transition of `recover`. -/
def fault : Access SubsystemState :=
  .read fun s => if s = active then transition faulted else .done

/-- Its second transition. -/
def beginRecovery : Access SubsystemState :=
  .read fun s => if s = faulted then transition recovering else .done

/-- What a stream reset does once the worker's state is reset. -/
def resume : Access SubsystemState :=
  .read fun s => if s = recovering then transition active else .done

/-- The first lines of the worker's `_run`; the exception is the `RuntimeError`. -/
def enterRun : Access SubsystemState :=
  .read fun first =>
    if first = ready then transition active
    else .read fun second => if second = active then .done else .raise

/-! ## The guarded transitions in one piece -/

/-- Where the first transition of `shutdown` leads. -/
def released : SubsystemState → SubsystemState
  | initializing | active => ready
  | recovering => faulted
  | other => other

/-- Where the second one leads. -/
def offlined : SubsystemState → SubsystemState
  | ready | faulted => offline
  | other => other

variable (s : SubsystemState)

theorem run_release : release.run s = some s.released := by
  cases s with
  | _ => rfl

theorem run_goOffline : goOffline.run s = some s.offlined := by
  cases s with
  | _ => rfl

theorem run_fault : fault.run s = some (if s = active then faulted else s) := by
  cases s with
  | _ => rfl

theorem run_beginRecovery :
    beginRecovery.run s = some (if s = faulted then recovering else s) := by
  cases s with
  | _ => rfl

theorem run_resume : resume.run s = some (if s = recovering then active else s) := by
  cases s with
  | _ => rfl

theorem run_enterRun :
    enterRun.run s = if s = ready ∨ s = active then some active else none := by
  cases s with
  | _ => rfl

variable {s} in
/-- A transition that does not raise ends in its target. -/
theorem run_transition_eq_some {target t : SubsystemState}
    (h : (transition target).run s = some t) : t = target := by
  simp only [transition, Access.run] at h
  split at h
  · cases h
  · exact (Option.some.inj h).symm

/-- The two transitions of `shutdown` get to OFFLINE from anywhere. -/
theorem offlined_released : s.released.offlined = offline := by
  cases s with
  | _ => rfl

end SubsystemState

end Kernel
end AvaListener
