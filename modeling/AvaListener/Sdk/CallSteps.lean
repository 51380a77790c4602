import AvaListener.Sdk.Calls
import Mathlib.Logic.Relation

/-!
# What a step of the SDK can do

Every part of a call is a sequence of a few moves on the listener.  `step_cases` takes a
step apart once, and what holds along every run is then read off the moves: first of all
that the fields agree with one another (`Coherent`).
-/

namespace AvaListener
namespace Sdk

open Library

/-- The states in which there is no transport any more. -/
def SdkState.isDown (s : SdkState) : Bool := s ∈ [stopping, stopped, destroyed]

/-- The process of a pending `start`, once it has spawned it. -/
def Awaited.process : Awaited → Option ℕ
  | .validation | .models | .refusal => none
  | .spawn p | .connect p _ | .handshake p _ | .ready p _ => some p

/-- The transport of a pending `start`, once it has made it. -/
def Awaited.transport : Awaited → Option ℕ
  | .validation | .models | .refusal | .spawn _ => none
  | .connect _ k | .handshake _ k | .ready _ k => some k

namespace Listener

/-! ## Moves -/

/-- What a pending `start` refers to exists. -/
def Made (s : Listener) (a : Awaited) : Prop :=
  (∀ p ∈ a.process, p < s.spawned) ∧ ∀ k ∈ a.transport, k < s.transports.length

theorem made_of_none {s : Listener} {a : Awaited} (hprocess : a.process = none)
    (htransport : a.transport = none) : s.Made a := by
  simp [Made, hprocess, htransport]

/-- The moves that calls are made of, `destroy` apart. -/
inductive Move (s : Listener) : Listener → Prop
  /-- A transition that leads neither out of nor into the end of the life cycle. -/
  | enter {new : SdkState} (hup : new.isDown = false) (h : s.fsm.transition new = some new) :
      Move s { s with fsm := new }
  | suspendStart (startPaused : Bool) : Move s (s.suspend (.start .validation startPaused))
  | suspendRestart : Move s (s.suspend .restart)
  | await {i : ℕ} (old : Awaited) {new : Awaited} {startPaused : Bool}
      (hpending : s.pending[i]? = some (.start old startPaused))
      (hmade : s.Made old → s.Made new) :
      Move s (s.await i (.start new startPaused))
  | settle {i : ℕ} {c : PendingCall} (hpending : s.pending[i]? = some c)
      (hc : ∀ restarts, c ≠ .stop restarts) : Move s (s.settle i)
  | spawn (hfree : s.proc = none) :
      Move s { s with proc := some s.spawned, spawned := s.spawned + 1 }
  | addTransport (startPaused : Bool) (hfsm : s.fsm = .connecting) :
      Move s (s.addTransport startPaused)
  | beginStop (restarts : Bool) (h : s.fsm.transition .stopping = some .stopping) :
      Move s ({ (closeTransport { s with fsm := .stopping }) with proc := none }.suspend
        (.stop restarts))
  | stopped {i : ℕ} {restarts : Bool} (hpending : s.pending[i]? = some (.stop restarts))
      (h : s.fsm.transition .stopped = some .stopped) :
      Move s { s.settle i with fsm := .stopped }
  /-- A `stop` that another call has overtaken. -/
  | overtaken {i : ℕ} {restarts : Bool} (hpending : s.pending[i]? = some (.stop restarts))
      (h : s.fsm.transition .stopped = none) : Move s (s.settle i)
  /-- `setPreviousState`. -/
  | remember (k : ℕ) :
      Move s { s with
        transports := s.transports.modify k fun o => { o with previousState := some s.fsm } }
  | exit {p : ℕ} (hspawned : p < s.spawned) (hlives : p ∉ s.exited) :
      Move s { s with proc := none, exited := s.exited ++ [p] }

abbrev Moves : Listener → Listener → Prop := Relation.ReflTransGen Move

/-- What every move keeps, moves keep. -/
theorem moves_invariant (Inv : Listener → Prop) (hmove : ∀ a b, Inv a → a.Move b → Inv b)
    {s t : Listener} (hstart : Inv s) (h : s.Moves t) : Inv t := by
  induction h with
  | refl => exact hstart
  | tail _ hlast ih => exact hmove _ _ ih hlast

variable {s t u : Listener}

theorem enter_eq_some {new : SdkState} (h : s.enter new = some t) :
    s.fsm.transition new = some new ∧ t = { s with fsm := new } := by
  obtain ⟨fsm, hfsm, rfl⟩ := Option.map_eq_some_iff.mp h
  obtain rfl := SdkState.transition_eq_some hfsm
  exact ⟨hfsm, rfl⟩

theorem enter_eq_none {new : SdkState} (h : s.enter new = none) : s.fsm.transition new = none :=
  Option.map_eq_none_iff.mp h

/-- What fails a `start` runs its `catch`. -/
theorem rejectStart_eq_some {i : ℕ} {awaited : Awaited} (h : s.rejectStart i awaited = some t) :
    t = s.failStart i := by
  cases awaited with
  | validation | models | refusal | handshake p k => exact (Option.some.inj h).symm
  | spawn p | connect p k =>
      simp only [rejectStart] at h
      split at h
      · exact (Option.some.inj h).symm
      · cases h
  | ready p k =>
      simp only [rejectStart] at h
      split at h
      · cases h
      · exact (Option.some.inj h).symm

namespace Moves

theorem enter {new : SdkState} (hup : new.isDown = false) (h : s.enter new = some t) :
    s.Moves t := by
  obtain ⟨hfsm, rfl⟩ := enter_eq_some h
  exact .single (.enter hup hfsm)

theorem tryEnter (s : Listener) (new : SdkState) (hup : new.isDown = false) :
    s.Moves (s.tryEnter new) := by
  unfold Listener.tryEnter
  cases hnext : s.fsm.transition new with
  | none => exact .refl
  | some fsm =>
      obtain rfl := SdkState.transition_eq_some hnext
      exact .single (.enter hup hnext)

theorem failStart {i : ℕ} {a : Awaited} {startPaused : Bool}
    (hpending : s.pending[i]? = some (.start a startPaused)) : s.Moves (s.failStart i) := by
  refine (tryEnter s .failed rfl).tail (.settle (c := .start a startPaused) hpending ?_)
  intro _ h
  cases h

theorem beginStart (s : Listener) (startPaused bootstraps : Bool) :
    s.Moves (s.beginStart startPaused bootstraps) := by
  unfold Listener.beginStart
  split
  next => exact .refl
  next u hu =>
    split
    · exact (enter rfl hu).tail (.suspendStart startPaused)
    · exact (enter rfl hu).trans (tryEnter u _ rfl)

theorem beginStop (s : Listener) (restarts : Bool) : s.Moves (s.beginStop restarts) := by
  unfold Listener.beginStop
  split
  next =>
    split
    · exact .single .suspendRestart
    · exact .refl
  next =>
    split
    next => exact .refl
    next u hu =>
      obtain ⟨hfsm, rfl⟩ := enter_eq_some hu
      exact .single (.beginStop restarts hfsm)

theorem resolveStart {i : ℕ} {startPaused : Bool} {awaited : Awaited}
    (hpending : s.pending[i]? = some (.start awaited startPaused))
    (h : s.resolveStart i startPaused awaited = some t) : s.Moves t := by
  have hfail : some (s.failStart i) = some t → s.Moves t := by
    intro heq
    obtain rfl := Option.some.inj heq
    exact failStart hpending
  cases awaited with
  | validation =>
      simp only [Listener.resolveStart] at h
      split at h
      next => exact hfail h
      next u hu =>
        obtain rfl := Option.some.inj h
        obtain ⟨hfsm, rfl⟩ := enter_eq_some hu
        exact (enter rfl hu).tail
          (.await .validation hpending fun _ => made_of_none rfl rfl)
  | models =>
      simp only [Listener.resolveStart] at h
      split at h
      next =>
        obtain rfl := Option.some.inj h
        exact .single (.await .models hpending fun _ => made_of_none rfl rfl)
      next hfree =>
        obtain rfl := Option.some.inj h
        refine .tail (.single (.spawn hfree)) (.await .models hpending fun _ => ⟨?_, ?_⟩)
        · rintro p ⟨⟩
          exact Nat.lt_succ_self _
        · intro _ h
          cases h
  | refusal => cases h
  | spawn p =>
      simp only [Listener.resolveStart] at h
      split at h
      next => cases h
      next =>
        split at h
        next => exact hfail h
        next u hu =>
          obtain rfl := Option.some.inj h
          obtain ⟨hfsm, rfl⟩ := enter_eq_some hu
          refine .tail (.tail (enter rfl hu) (.addTransport startPaused rfl))
            (.await (.spawn p) hpending fun hmade => ⟨hmade.1, ?_⟩)
          rintro k ⟨⟩
          simp [Listener.addTransport]
  | connect p k =>
      simp only [Listener.resolveStart] at h
      split at h
      next =>
        split at h
        · exact hfail h
        · obtain rfl := Option.some.inj h
          exact .single (.await (.connect p k) hpending fun hmade => hmade)
      next => cases h
  | handshake p k =>
      simp only [Listener.resolveStart] at h
      split at h
      · exact hfail h
      · obtain rfl := Option.some.inj h
        exact .single (.await (.handshake p k) hpending fun hmade => hmade)
  | ready p k =>
      simp only [Listener.resolveStart] at h
      split at h
      next => cases h
      next =>
        split at h
        next => exact hfail h
        next u hu =>
          obtain rfl := Option.some.inj h
          obtain ⟨hfsm, rfl⟩ := enter_eq_some hu
          have hrunning (v : Listener) :
              v.Moves (if startPaused then v else v.tryEnter .running) := by
            split
            · exact .refl
            · exact tryEnter v _ rfl
          refine ((enter rfl hu).trans (hrunning _)).tail
            (.settle (c := .start (.ready p k) startPaused) ?_ ?_)
          · split
            · exact hpending
            · exact hpending
          · intro _ h
            cases h

theorem rejectStart {i : ℕ} {startPaused : Bool} {awaited : Awaited}
    (hpending : s.pending[i]? = some (.start awaited startPaused))
    (h : s.rejectStart i awaited = some t) : s.Moves t := by
  rw [rejectStart_eq_some h]
  exact failStart hpending

theorem resolve {i : ℕ} {bootstraps : Bool} (h : s.resolve i bootstraps = some t) :
    s.Moves t := by
  unfold Listener.resolve at h
  split at h
  next => cases h
  next awaited startPaused hpending => exact resolveStart hpending h
  next restarts hpending =>
    split at h
    next hnone =>
      obtain rfl := Option.some.inj h
      exact .single (.overtaken hpending (enter_eq_none (s := s.settle i) hnone))
    next u hu =>
      obtain rfl := Option.some.inj h
      obtain ⟨hfsm, rfl⟩ := enter_eq_some hu
      have hstopped : s.Moves { s.settle i with fsm := .stopped } :=
        .single (.stopped hpending hfsm)
      split
      · exact hstopped.tail .suspendRestart
      · exact hstopped
  next hpending =>
    obtain rfl := Option.some.inj h
    have hsettled : s.Moves (s.settle i) := by
      refine .single (.settle hpending ?_)
      intro _ h
      cases h
    exact hsettled.trans (beginStart _ _ _)

theorem reject {i : ℕ} (h : s.reject i = some t) : s.Moves t := by
  unfold Listener.reject at h
  split at h
  next awaited startPaused hpending => exact rejectStart hpending h
  next => cases h

theorem hear (startPaused : Bool) (s : Listener) (e : TransportEvent) :
    s.Moves (s.hear startPaused e) := by
  unfold Listener.hear
  split
  next =>
    split
    next => exact .refl
    next j _ =>
      have hset := Relation.ReflTransGen.single (Move.remember (s := s) j)
      dsimp only
      split
      · exact hset.trans (tryEnter _ _ rfl)
      · exact hset
  next =>
    split
    · exact .refl
    · split
      · split
        · exact (tryEnter s _ rfl).trans (tryEnter _ _ rfl)
        · exact tryEnter s _ rfl
      · exact .refl
  next => exact tryEnter s _ rfl
  next => exact .refl

theorem foldl_hear (startPaused : Bool) (s : Listener) (events : List TransportEvent) :
    s.Moves (events.foldl (Listener.hear startPaused) s) := by
  induction events generalizing s with
  | nil => exact .refl
  | cons e rest ih => exact (hear startPaused s e).trans (ih _)

end Moves

/-! ## Steps -/

theorem transportStep_eq_some {k : ℕ} {l : TransportLabel} (h : s.transportStep k l = some t) :
    ∃ o conn events, s.transports[k]? = some o ∧ o.conn.step l = some (conn, events) ∧
      l ≠ .connect ∧ t = s.emit k o l conn events := by
  unfold transportStep at h
  split at h
  · cases h
  · cases h
  · cases h
  next o ho hconnect _ =>
    obtain ⟨⟨conn, events⟩, hstep, rfl⟩ := Option.map_eq_some_iff.mp h
    exact ⟨o, conn, events, ho, hstep, hconnect, rfl⟩

/-- **A step** is a `destroy`, a callback of a transport, or made of moves. -/
theorem step_cases {l : CallLabel} (h : s.step l = some t) :
    (l = .destroy ∧ t = s.destroy) ∨
      (∃ k m, l = .transport k m ∧ s.transportStep k m = some t) ∨ s.Moves t := by
  cases l with
  | destroy => exact .inl ⟨rfl, (Option.some.inj h).symm⟩
  | transport k m => exact .inr (.inl ⟨k, m, rfl, h⟩)
  | start startPaused bootstraps =>
      obtain rfl := Option.some.inj h
      exact .inr (.inr (.beginStart s _ _))
  | pause =>
      obtain rfl := Option.some.inj h
      refine .inr (.inr ?_)
      split
      · exact .tryEnter s _ rfl
      · exact .refl
  | resume =>
      obtain rfl := Option.some.inj h
      refine .inr (.inr ?_)
      split
      · exact .tryEnter s _ rfl
      · exact .refl
  | stop =>
      obtain rfl := Option.some.inj h
      exact .inr (.inr (.beginStop s _))
  | restart =>
      obtain rfl := Option.some.inj h
      refine .inr (.inr ?_)
      split
      · exact .refl
      · exact .beginStop s _
  | resolve i bootstraps => exact .inr (.inr (.resolve h))
  | reject i => exact .inr (.inr (.reject h))
  | exit p =>
      simp only [step] at h
      split at h
      next hp =>
        obtain rfl := Option.some.inj h
        exact .inr (.inr (.single (.exit hp.1 hp.2)))
      next => cases h

/-- The transports after a `close` of the present one. -/
def closedTransports (s : Listener) : List OwnedTransport :=
  match s.transport with
  | none => s.transports
  | some k => s.transports.modify k fun o => { o with conn := o.conn.close }

theorem closeTransport_eq (s : Listener) :
    s.closeTransport = { s with transports := s.closedTransports, transport := none } := by
  obtain ⟨fsm, transports, transport, proc, spawned, exited, pending, activity, called, threw⟩ := s
  cases transport with
  | none => rfl
  | some k => rfl

@[simp] theorem length_closedTransports (s : Listener) :
    s.closedTransports.length = s.transports.length := by
  unfold closedTransports
  split
  · rfl
  · exact List.length_modify ..

/-! ## `destroy` -/

theorem destroy_of_stopped (h : s.fsm = .stopped ∨ s.fsm = .destroyed) :
    s.destroy = { s with fsm := .destroyed, destroyCalled := true } := by
  have hstop : s.beginStop false = s := by simp [beginStop, h]
  have hallowed : s.fsm.transition .destroyed = some .destroyed := by
    rcases h with hs | hs
    · rw [hs]
      decide
    · rw [hs]
      decide
  simp only [destroy, hstop, enter, hallowed, Option.map_some]

/-- From any other state the transition to `DESTROYED` throws. -/
theorem destroy_of_not_stopped (h : ¬ (s.fsm = .stopped ∨ s.fsm = .destroyed)) :
    s.destroy = { s.beginStop false with destroyCalled := true, destroyThrew := true } := by
  have hstop : (s.beginStop false).fsm.transition .destroyed = none := by
    rw [beginStop, if_neg h]
    cases hstopping : s.enter .stopping with
    | none =>
        -- `stop` has thrown, so the state is still one in which it cannot begin.
        have hnone := enter_eq_none hstopping
        revert h hnone
        cases s.fsm <;> simp [SdkState.transition, SdkState.transitions]
    | some u =>
        obtain ⟨-, rfl⟩ := enter_eq_some hstopping
        show (closeTransport _).fsm.transition .destroyed = none
        rw [closeTransport_eq]
        rfl
  have hthrows :
      enter { s.beginStop false with destroyCalled := true } .destroyed = none := by
    simp only [enter, hstop, Option.map_none]
  simp only [destroy, hthrows]

/-! ## Coherence -/

/-- How the fields agree in every state reached. -/
structure Coherent (s : Listener) : Prop where
  made : ∀ a startPaused, .start a startPaused ∈ s.pending → s.Made a
  attached : ∀ p ∈ s.proc, p < s.spawned ∧ p ∉ s.exited
  exited : ∀ p ∈ s.exited, p < s.spawned
  stopping : s.fsm = .stopping → ∃ restarts, .stop restarts ∈ s.pending
  down : s.fsm.isDown = true → s.transport = none

theorem coherent_init : init.Coherent where
  made _ _ h := by cases h
  attached _ h := by cases h
  exited _ h := by cases h
  stopping h := by cases h
  down _ := rfl

theorem isDown_of_transition_stopped {old : SdkState}
    (h : old.transition .stopped = some .stopped) : old.isDown = true := by
  revert h
  cases old <;> decide

/-- Another pending call is still pending when one is over or waits for something else. -/
theorem mem_eraseIdx_of_ne {calls : List PendingCall} {i : ℕ} {c d : PendingCall}
    (hi : calls[i]? = some c) (hd : d ∈ calls) (hne : d ≠ c) : d ∈ calls.eraseIdx i := by
  obtain ⟨j, hj⟩ := List.mem_iff_getElem?.mp hd
  refine List.mem_eraseIdx_iff_getElem?.mpr ⟨j, ?_, hj⟩
  rintro rfl
  exact hne (Option.some.inj (hj.symm.trans hi))

theorem mem_set_of_ne {calls : List PendingCall} {i : ℕ} {c d e : PendingCall}
    (hi : calls[i]? = some c) (hd : d ∈ calls) (hne : d ≠ c) : d ∈ calls.set i e := by
  obtain ⟨j, hj⟩ := List.mem_iff_getElem?.mp hd
  refine List.mem_iff_getElem?.mpr ⟨j, ?_⟩
  have hij : i ≠ j := by
    rintro rfl
    exact hne (Option.some.inj (hj.symm.trans hi))
  rw [List.getElem?_set_ne hij, hj]

theorem Coherent.withPending {calls : List PendingCall} (hs : s.Coherent)
    (hmade : ∀ a startPaused, .start a startPaused ∈ calls → s.Made a)
    (hstop : ∀ restarts, .stop restarts ∈ s.pending → .stop restarts ∈ calls) :
    Coherent { s with pending := calls } where
  made := hmade
  attached := hs.attached
  exited := hs.exited
  stopping hfsm := (hs.stopping hfsm).imp hstop
  down := hs.down

/-- A call that begins to wait. -/
theorem Coherent.suspend {c : PendingCall} (hs : s.Coherent)
    (hmade : ∀ a startPaused, c = .start a startPaused → s.Made a) : (s.suspend c).Coherent := by
  refine hs.withPending ?_ fun _ hstop => List.mem_append_left _ hstop
  intro a b hmem
  rcases List.mem_append.mp hmem with hold | hnew
  · exact hs.made a b hold
  · exact hmade a b (List.mem_singleton.mp hnew).symm

theorem Coherent.withTransports (transports : List OwnedTransport) (hs : s.Coherent)
    (hlength : s.transports.length ≤ transports.length) :
    Coherent { s with transports := transports } where
  made a startPaused hmem :=
    ⟨(hs.made a startPaused hmem).1,
      fun k hk => Nat.lt_of_lt_of_le ((hs.made a startPaused hmem).2 k hk) hlength⟩
  attached := hs.attached
  exited := hs.exited
  stopping := hs.stopping
  down := hs.down

/-- **Every move** keeps the fields in agreement. -/
theorem Coherent.move (hs : s.Coherent) (h : s.Move t) : t.Coherent := by
  cases h with
  | @enter new hup _ =>
      refine ⟨hs.made, hs.attached, hs.exited, ?_, ?_⟩
      · rintro rfl
        cases hup
      · intro hdown
        rw [hup] at hdown
        cases hdown
  | suspendStart startPaused =>
      refine hs.suspend fun a b heq => ?_
      cases heq
      exact made_of_none rfl rfl
  | suspendRestart =>
      refine hs.suspend fun a b heq => ?_
      cases heq
  | @await i old new startPaused hpending hmade =>
      refine hs.withPending ?_ fun _ hstop => mem_set_of_ne hpending hstop ?_
      · intro a b hmem
        rcases List.mem_or_eq_of_mem_set hmem with hold | heq
        · exact hs.made a b hold
        · cases heq
          exact hmade (hs.made old startPaused (List.mem_of_getElem? hpending))
      · intro heq
        cases heq
  | @settle i c hpending hc =>
      refine hs.withPending ?_ fun r hstop => mem_eraseIdx_of_ne hpending hstop (hc r).symm
      intro a b hmem
      exact hs.made a b (List.mem_of_mem_eraseIdx hmem)
  | spawn hfree =>
      refine ⟨?_, ?_, ?_, hs.stopping, hs.down⟩
      · intro a b hmem
        have hmade := hs.made a b hmem
        exact ⟨fun p hp => Nat.lt_succ_of_lt (hmade.1 p hp), hmade.2⟩
      · rintro p ⟨⟩
        exact ⟨Nat.lt_succ_self _, fun hmem => Nat.lt_irrefl _ (hs.exited _ hmem)⟩
      · intro p hp
        exact Nat.lt_succ_of_lt (hs.exited p hp)
  | addTransport startPaused hfsm =>
      have hadded := hs.withTransports (s.transports ++ [OwnedTransport.dialled startPaused])
        (by simp)
      refine ⟨hadded.made, hadded.attached, hadded.exited, hadded.stopping, ?_⟩
      intro hdown
      have hup : s.fsm.isDown = true := hdown
      rw [hfsm] at hup
      cases hup
  | beginStop restarts _ =>
      rw [closeTransport_eq]
      have hclosed := hs.withTransports (closedTransports { s with fsm := .stopping })
        (Nat.le_of_eq (length_closedTransports _).symm)
      refine ⟨?_, ?_, hs.exited, ?_, fun _ => rfl⟩
      · intro a b hmem
        rcases List.mem_append.mp hmem with hold | hnew
        · exact hclosed.made a b hold
        · cases List.mem_singleton.mp hnew
      · intro _ h
        cases h
      · intro _
        exact ⟨restarts, List.mem_append_right _ (List.mem_singleton.mpr rfl)⟩
  | @stopped i restarts hpending h =>
      refine ⟨?_, hs.attached, hs.exited, ?_, ?_⟩
      · intro a b hmem
        exact hs.made a b (List.mem_of_mem_eraseIdx hmem)
      · intro heq
        cases heq
      · intro _
        exact hs.down (isDown_of_transition_stopped h)
  | @overtaken i restarts hpending h =>
      refine ⟨?_, hs.attached, hs.exited, ?_, hs.down⟩
      · intro a b hmem
        exact hs.made a b (List.mem_of_mem_eraseIdx hmem)
      · intro hfsm
        have hstopping : s.fsm = .stopping := hfsm
        rw [hstopping] at h
        cases h
  | remember k => exact hs.withTransports _ (Nat.le_of_eq (List.length_modify ..).symm)
  | @exit p hspawned hlives =>
      refine ⟨hs.made, ?_, ?_, hs.stopping, hs.down⟩
      · intro _ h
        cases h
      · intro q hq
        rcases List.mem_append.mp hq with hold | hnew
        · exact hs.exited q hold
        · rw [List.mem_singleton.mp hnew]
          exact hspawned

theorem Coherent.moves (hs : s.Coherent) (h : s.Moves t) : t.Coherent :=
  moves_invariant Coherent (fun _ _ ha hab => ha.move hab) hs h

theorem Coherent.step {l : CallLabel} (hs : s.Coherent) (h : s.step l = some t) : t.Coherent := by
  rcases step_cases h with ⟨-, rfl⟩ | ⟨k, m, -, htransport⟩ | hmoves
  · by_cases hstopped : s.fsm = .stopped ∨ s.fsm = .destroyed
    · rw [destroy_of_stopped hstopped]
      refine ⟨hs.made, hs.attached, hs.exited, ?_, ?_⟩
      · intro heq
        cases heq
      · intro _
        apply hs.down
        rcases hstopped with hfsm | hfsm
        · rw [hfsm]
          rfl
        · rw [hfsm]
          rfl
    · rw [destroy_of_not_stopped hstopped]
      have hbegun := hs.moves (.beginStop s false)
      exact ⟨hbegun.made, hbegun.attached, hbegun.exited, hbegun.stopping, hbegun.down⟩
  · obtain ⟨o, conn, events, -, -, -, rfl⟩ := transportStep_eq_some htransport
    have hreceived : (s.received k o m conn events).Coherent :=
      hs.withTransports _ (Nat.le_of_eq List.length_set.symm)
    have hheard := hreceived.moves (.foldl_hear o.startPaused _ events)
    exact ⟨hheard.made, hheard.attached, hheard.exited, hheard.stopping, hheard.down⟩
  · exact hs.moves hmoves

theorem coherent_of_run {schedule : List CallLabel} (hrun : execute step init schedule = some s) :
    s.Coherent :=
  execute_invariant _ Coherent coherent_init (fun _ _ _ ha _ hab => ha.step hab) hrun

end Listener

end Sdk
end AvaListener
