import AvaListener.Sdk.CallSteps

/-!
# Destroying a listener

`destroy` calls `stop` and does not wait for it.  From every state that `stop` can leave,
its first part ends in `STOPPING`, from which `DESTROYED` cannot be entered, and from the
others `stop` throws and `DESTROYED` cannot be entered either.  What is left is a listener
that has been stopped before (`destroy_iff`).
-/

namespace AvaListener
namespace Sdk

open Library

namespace Listener

/-! ## The other steps -/

/-- `DESTROYED` is not left, and no `destroy` is called. -/
structure Keeps (s t : Listener) : Prop where
  destroyed : s.fsm = .destroyed → t.fsm = .destroyed
  called : t.destroyCalled = s.destroyCalled
  threw : t.destroyThrew = s.destroyThrew

namespace Keeps

variable {s t : Listener}

theorem trans {u : Listener} (h : Keeps s t) (h' : Keeps t u) : Keeps s u where
  destroyed hs := h'.destroyed (h.destroyed hs)
  called := h'.called.trans h.called
  threw := h'.threw.trans h.threw

theorem move (h : s.Move t) : Keeps s t := by
  cases h with
  | @enter new _ hfsm =>
      refine ⟨?_, rfl, rfl⟩
      intro hs
      rw [hs] at hfsm
      exact SdkState.destroyed_terminal hfsm
  | beginStop _ hfsm =>
      rw [closeTransport_eq]
      refine ⟨?_, rfl, rfl⟩
      intro hs
      rw [hs] at hfsm
      cases hfsm
  | stopped _ hfsm =>
      refine ⟨?_, rfl, rfl⟩
      intro hs
      rw [hs] at hfsm
      cases hfsm
  | _ => exact ⟨id, rfl, rfl⟩

theorem moves (h : s.Moves t) : Keeps s t :=
  moves_invariant (Keeps s) (fun _ _ ha hab => ha.trans (move hab)) ⟨id, rfl, rfl⟩ h

/-- **Every other step** leaves `DESTROYED` alone. -/
theorem step {l : CallLabel} (hl : l ≠ .destroy) (h : s.step l = some t) : Keeps s t := by
  rcases step_cases h with ⟨hdestroy, -⟩ | ⟨k, m, -, htransport⟩ | hmoves
  · exact absurd hdestroy hl
  · obtain ⟨o, conn, events, -, -, -, rfl⟩ := transportStep_eq_some htransport
    have hheard := moves (.foldl_hear o.startPaused (s.received k o m conn events) events)
    exact ⟨fun hs => hheard.destroyed hs, hheard.called, hheard.threw⟩
  · exact moves hmoves

end Keeps

/-! ## Runs -/

/-- Every `destroy` so far has returned, and since the first one the state is
`DESTROYED`. -/
def DestroyHolds (s : Listener) : Prop :=
  s.destroyThrew = false ∧ (s.destroyCalled = true → s.fsm = .destroyed)

/-- The step does not call `destroy` before the listener is stopped. -/
def DestroysEnded (s : Listener) : CallLabel → Prop
  | .destroy => s.fsm = .stopped ∨ s.fsm = .destroyed
  | _ => True

instance (s : Listener) : Decidable s.DestroyHolds := inferInstanceAs (Decidable (_ ∧ (_ → _)))

instance (s : Listener) : ∀ l, Decidable (s.DestroysEnded l)
  | .destroy => inferInstanceAs (Decidable (_ ∨ _))
  | .start .. | .pause | .resume | .stop | .restart | .resolve .. | .reject _ | .transport ..
  | .exit _ => inferInstanceAs (Decidable True)

theorem destroyHolds_step {s t : Listener} {l : CallLabel} (h : s.DestroyHolds)
    (hended : s.DestroysEnded l) (hstep : s.step l = some t) : t.DestroyHolds := by
  by_cases hl : l = .destroy
  · subst hl
    obtain rfl := Option.some.inj hstep
    rw [destroy_of_stopped hended]
    exact ⟨h.1, fun _ => rfl⟩
  · have hkeeps := Keeps.step hl hstep
    refine ⟨hkeeps.threw.trans h.1, ?_⟩
    intro hcalled
    exact hkeeps.destroyed (h.2 (hkeeps.called.symm.trans hcalled))

/-- **When `destroy` works**: in a run of the SDK every `destroy` returns and leaves the
listener destroyed for good if and only if each is called on a stopped or destroyed one. -/
theorem destroy_iff {schedule : List CallLabel} {t : Listener}
    (hrun : execute step init schedule = some t) :
    Always step DestroyHolds init schedule ↔ MeetsAlong step DestroysEnded init schedule := by
  refine always_iff_meetsAlong step DestroyHolds ⟨rfl, fun h => by cases h⟩ (fun _ h => h)
    (fun _ _ _ h _ hended hstep => destroyHolds_step h hended hstep) ?_ hrun
  intro s l u _ _ hmiss hstep hholds
  cases l with
  | destroy =>
      obtain rfl := Option.some.inj hstep
      rw [destroy_of_not_stopped hmiss] at hholds
      cases hholds.1
  | _ => exact hmiss trivial

/-- `start` up to `RUNNING`. -/
def startUp : List CallLabel :=
  [.start false true, .resolve 0 true, .resolve 0 true, .resolve 0 true, .transport 0 .opened,
    .resolve 0 true, .resolve 0 true, .resolve 0 true]

/-- Stopped first, and then destroyed. -/
theorem destroy_after_stop :
    Always step DestroyHolds init (startUp ++ [CallLabel.stop, .resolve 0 true, .destroy]) := by
  have hrun :
      (execute step init (startUp ++ [CallLabel.stop, .resolve 0 true, .destroy])).isSome = true := by
    decide
  obtain ⟨t, ht⟩ := Option.isSome_iff_exists.mp hrun
  exact (destroy_iff ht).mpr (by decide)

/-- A running listener is destroyed: the call throws and leaves `STOPPING` behind. -/
theorem destroy_while_running :
    (execute step init (startUp ++ [CallLabel.destroy])).map (fun t => (t.fsm, t.destroyThrew)) =
        some (.stopping, true) ∧
      ¬ Always step DestroyHolds init (startUp ++ [CallLabel.destroy]) := by
  decide

end Listener

end Sdk
end AvaListener
