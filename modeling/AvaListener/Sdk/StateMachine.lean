import Mathlib.Data.List.Basic

/-!
# The SDK's state machine

`node/state_machine.js`: the states of a listener, the adjacency list
`TRANSITIONS` and the guarded transition.
-/

namespace AvaListener
namespace Sdk

inductive SdkState where
  | uninitialized
  | installing
  | starting
  | connecting
  | ready
  | running
  | paused
  | recovering
  | failed
  | stopping
  | stopped
  | destroyed
  deriving DecidableEq, Repr

namespace SdkState

/-- `TRANSITIONS`. -/
def transitions : SdkState → List SdkState
  | uninitialized => [starting]
  | starting => [installing, failed]
  | installing => [connecting, failed]
  | connecting => [ready, failed]
  | ready => [running, recovering, stopping, failed]
  | running => [paused, recovering, stopping, failed]
  | paused => [running, recovering, stopping, failed]
  | recovering => [ready, running, paused, failed, stopping]
  | failed => [starting, stopping, destroyed]
  | stopping => [stopped]
  | stopped => [starting, destroyed]
  | destroyed => []

/-- `transition`: `none` is the `InvalidTransitionError`. -/
def transition (s new : SdkState) : Option SdkState :=
  if s = new then some s
  else if new ∈ s.transitions then some new
  else none

/-- `isActive`. -/
def isActive (s : SdkState) : Bool := s ∈ [ready, running, paused]

/-- A transition that does not throw ends in the state asked for. -/
theorem transition_eq_some {s new t : SdkState} (h : s.transition new = some t) : t = new := by
  unfold transition at h
  split at h
  next hsame => exact (Option.some.inj h).symm.trans hsame
  · split at h
    · exact (Option.some.inj h).symm
    · cases h

/-- Nothing leads out of `DESTROYED`. -/
theorem destroyed_terminal {new t : SdkState} (h : destroyed.transition new = some t) :
    t = destroyed := by
  unfold transition at h
  split at h
  · exact (Option.some.inj h).symm
  · cases h

end SdkState

end Sdk
end AvaListener
