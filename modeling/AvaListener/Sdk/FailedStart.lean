import AvaListener.Sdk.Destroy

/-!
# What a failed `start` leaves behind

The `catch` of `start` enters `FAILED` and does nothing else: the process stays
`processManager`'s, and the transport goes on with its socket and its timer.  Both are
released only where something else has done it before (`released_iff`).
-/

namespace AvaListener
namespace Sdk

open Library

/-! ## A transport on its own -/

namespace SdkTransport

variable {c c' : SdkTransport} {l : TransportLabel} {events : List TransportEvent}

theorem step_isAttempt (htimer : c.reconnectTimer = none) (h : c.step l = some (c', events)) :
    l.isAttempt = false := by
  cases l with
  | fire now =>
      simp only [SdkTransport.step, htimer] at h
      cases h
  | _ => rfl

/-- A timer is only set along with the event `recovering`. -/
theorem step_reconnectTimer (htimer : c.reconnectTimer = none)
    (h : c.step l = some (c', events)) :
    c'.reconnectTimer = none ∨ events.any TransportEvent.isRecovering = true := by
  cases l with
  | connect =>
      simp only [SdkTransport.step] at h
      split at h
      · cases h
        exact .inl htimer
      · cases h
  | opened =>
      simp only [SdkTransport.step] at h
      split at h
      · split at h
        · cases h
        · cases h
          exact .inl htimer
      · cases h
  | errored =>
      simp only [SdkTransport.step] at h
      split at h
      · cases h
      · cases h
        exact .inl htimer
  | closed now =>
      simp only [SdkTransport.step] at h
      split at h
      · cases h
      · split at h
        · cases h
          exact .inl htimer
        · cases h
          unfold scheduleReconnect
          split
          · exact .inl htimer
          · exact .inr rfl
  | fire now =>
      simp only [SdkTransport.step, htimer] at h
      cases h
  | close =>
      cases h
      exact .inl rfl

/-- Closed or without a socket, and without a timer, a transport stays so and reports
errors at most. -/
theorem step_quiet (htimer : c.reconnectTimer = none)
    (hquiet : c.stopped = true ∨ c.socket = none) (hl : l ≠ .connect)
    (h : c.step l = some (c', events)) :
    c'.reconnectTimer = none ∧ (c'.stopped = true ∨ c'.socket = none) ∧
      ∀ e ∈ events, e = .error := by
  cases l with
  | connect => exact absurd rfl hl
  | opened =>
      simp only [SdkTransport.step] at h
      split at h
      next reconnect hsocket =>
        split at h
        · cases h
        next hlive =>
          rcases hquiet with hstopped | hnone
          · exact absurd hstopped hlive
          · rw [hnone] at hsocket
            cases hsocket
      next => cases h
  | errored =>
      simp only [SdkTransport.step] at h
      split at h
      · cases h
      · cases h
        exact ⟨htimer, hquiet, by simp⟩
  | closed now =>
      simp only [SdkTransport.step] at h
      split at h
      next => cases h
      next hsocket =>
        have hstopped : c.stopped = true := hquiet.resolve_right hsocket
        simp only [hstopped, if_true] at h
        cases h
        exact ⟨htimer, .inl rfl, by simp⟩
  | fire now =>
      simp only [SdkTransport.step, htimer] at h
      cases h
  | close =>
      cases h
      exact ⟨rfl, .inl rfl, by simp⟩

end SdkTransport

namespace Listener

/-! ## What a failed `start` leaves behind -/

/-- Neither the transport nor the process of a `start` plays a part any more: the
transport makes no attempt and its listeners change no state, and `spawnSupervisor` does
not find the process. -/
def Released (s : Listener) (a : Awaited) : Prop :=
  ∀ later u, execute step s later = some u →
    (∀ k ∈ a.transport, u.activity.count k = s.activity.count k) ∧
      ∀ p ∈ a.process, u.proc ≠ some p

/-- The transport runs no timer, and was closed or has lost its socket; or the listener is
destroyed. -/
def GivenUp (s : Listener) (k : ℕ) : Prop :=
  ∃ o ∈ s.transports[k]?, o.conn.reconnectTimer = none ∧
    (o.conn.stopped = true ∨ o.conn.socket = none ∨ s.fsm = .destroyed)

/-- What the `start` acquired is gone already. -/
def NothingHeld (s : Listener) (a : Awaited) : Prop :=
  (∀ k ∈ a.transport, s.GivenUp k) ∧ ∀ p ∈ a.process, s.proc ≠ some p

instance (s : Listener) (k : ℕ) : Decidable (s.GivenUp k) :=
  inferInstanceAs (Decidable (∃ o ∈ s.transports[k]?, _ ∧ (_ ∨ _ ∨ _)))

instance (s : Listener) (a : Awaited) : Decidable (s.NothingHeld a) :=
  inferInstanceAs (Decidable ((∀ k ∈ a.transport, _) ∧ ∀ p ∈ a.process, _))

/-- The step makes the pending `start` reject. -/
structure StartRejects (s : Listener) (a : Awaited) (i : ℕ) (l : CallLabel) (t : Listener) :
    Prop where
  pending : ∃ startPaused, s.pending[i]? = some (.start a startPaused)
  resumes : l = .reject i ∨ ∃ bootstraps, l = .resolve i bootstraps
  step : s.step l = some t
  catches : t = s.failStart i

variable {s t : Listener}

/-- Whatever fails while `start` waits makes it reject. -/
theorem startRejects_reject {a : Awaited} {i : ℕ} {startPaused : Bool}
    (hpending : s.pending[i]? = some (.start a startPaused))
    (hstep : s.step (.reject i) = some t) : s.StartRejects a i (.reject i) t := by
  refine ⟨⟨startPaused, hpending⟩, .inl rfl, hstep, ?_⟩
  have hreject : s.rejectStart i a = some t := by
    simpa only [Listener.step, reject, hpending] using hstep
  exact rejectStart_eq_some hreject

/-! ## A transport that is given up -/

/-- A move leaves a transport that is given up where it is. -/
theorem GivenUp.move {k : ℕ} (hgiven : s.GivenUp k) (h : s.Move t) :
    t.GivenUp k ∧ t.activity = s.activity := by
  obtain ⟨o, ho, htimer, hquiet⟩ := hgiven
  cases h with
  | @enter new hup hfsm =>
      refine ⟨⟨o, ho, htimer, hquiet.imp_right (Or.imp_right ?_)⟩, rfl⟩
      intro hs
      rw [hs] at hfsm
      exact SdkState.destroyed_terminal hfsm
  | addTransport startPaused _ =>
      refine ⟨⟨o, ?_, htimer, hquiet⟩, rfl⟩
      exact List.getElem?_append_left (List.getElem?_eq_some_iff.mp ho).1 |>.trans ho
  | beginStop restarts hfsm =>
      rw [closeTransport_eq]
      have hup : s.fsm ≠ .destroyed := by
        intro hs
        rw [hs] at hfsm
        cases hfsm
      have hsilent : o.conn.stopped = true ∨ o.conn.socket = none :=
        hquiet.imp_right fun hrest => hrest.resolve_right hup
      refine ⟨?_, rfl⟩
      show ∃ o ∈ (closedTransports { s with fsm := .stopping })[k]?, _
      unfold closedTransports
      split
      · exact ⟨o, ho, htimer, hsilent.imp_right .inl⟩
      next j _ =>
        rw [List.getElem?_modify, Option.mem_def.mp ho]
        by_cases hj : j = k
        · simp [hj, SdkTransport.close]
        · exact ⟨o, by simp [hj], htimer, hsilent.imp_right .inl⟩
  | stopped _ hfsm =>
      refine ⟨⟨o, ho, htimer, hquiet.imp_right (Or.imp_right ?_)⟩, rfl⟩
      intro hs
      rw [hs] at hfsm
      cases hfsm
  | remember j =>
      refine ⟨?_, rfl⟩
      show ∃ o ∈ (s.transports.modify j _)[k]?, _
      rw [List.getElem?_modify, Option.mem_def.mp ho]
      by_cases hj : j = k
      · simp [hj, htimer, hquiet]
      · simp [hj, htimer, hquiet]
  | _ => exact ⟨⟨o, ho, htimer, hquiet⟩, rfl⟩

theorem GivenUp.moves {k : ℕ} (hgiven : s.GivenUp k) (h : s.Moves t) :
    t.GivenUp k ∧ t.activity = s.activity := by
  refine moves_invariant (fun u => u.GivenUp k ∧ u.activity = s.activity) ?_ ⟨hgiven, rfl⟩ h
  rintro a b ⟨ha, hactivity⟩ hab
  have hb := ha.move hab
  exact ⟨hb.1, hb.2.trans hactivity⟩

theorem foldl_hear_errors {startPaused : Bool} {events : List TransportEvent}
    (h : ∀ e ∈ events, e = .error) (s : Listener) : events.foldl (hear startPaused) s = s := by
  induction events with
  | nil => rfl
  | cons e rest ih =>
      obtain rfl := h e (List.mem_cons_self ..)
      exact ih fun e he => h e (List.mem_cons_of_mem _ he)

/-- A callback of the transport that is given up. -/
theorem GivenUp.own {k : ℕ} {m : TransportLabel} (hs : s.Coherent) (hgiven : s.GivenUp k)
    (h : s.transportStep k m = some t) : t.GivenUp k ∧ t.activity = s.activity := by
  obtain ⟨o, ho, htimer, hquiet⟩ := hgiven
  obtain ⟨o', conn, events, ho', hstep, hm, rfl⟩ := transportStep_eq_some h
  obtain rfl : o = o' := Option.some.inj (ho.symm.trans ho')
  have hattempt := SdkTransport.step_isAttempt htimer hstep
  have hlt := (List.getElem?_eq_some_iff.mp ho).1
  set r := s.received k o m conn events with hr
  set u := events.foldl (hear o.startPaused) r with hu
  -- It is still given up when its listeners begin, and they change no state.
  have hkept : r.GivenUp k ∧ u.fsm = s.fsm := by
    by_cases hdestroyed : s.fsm = .destroyed
    · have hnone : s.transport = none := hs.down (by rw [hdestroyed]; rfl)
      refine ⟨?_, ?_⟩
      · refine ⟨_, List.getElem?_set_self hlt, ?_, .inr (.inr hdestroyed)⟩
        rcases SdkTransport.step_reconnectTimer htimer hstep with hconn | hrecovering
        · simp only [hnone, true_and]
          split
          · exact htimer
          · exact hconn
        · simp only [hnone, hrecovering, and_self, if_true, htimer]
      · rw [hdestroyed]
        exact (Keeps.moves (.foldl_hear o.startPaused r events)).destroyed hdestroyed
    · have hsilent : o.conn.stopped = true ∨ o.conn.socket = none :=
        hquiet.imp_right fun hrest => hrest.resolve_right hdestroyed
      obtain ⟨htimer', hsilent', herrors⟩ := SdkTransport.step_quiet htimer hsilent hm hstep
      refine ⟨?_, ?_⟩
      · refine ⟨_, List.getElem?_set_self hlt, ?_, ?_⟩
        · split
          · exact htimer
          · exact htimer'
        · refine (Or.imp_right Or.inl ?_)
          split
          · exact hsilent'
          · exact hsilent'
      · rw [hu, foldl_hear_errors herrors]
        rfl
  have hheard := hkept.1.moves (.foldl_hear o.startPaused r events)
  refine ⟨hheard.1, ?_⟩
  show u.activity ++ (if m.isAttempt = true ∨ u.fsm ≠ s.fsm then [k] else []) = s.activity
  rw [if_neg (by simp [hattempt, hkept.2]), List.append_nil]
  exact hheard.2

/-- A callback of another transport. -/
theorem GivenUp.other {j k : ℕ} {m : TransportLabel} (hjk : j ≠ k) (hgiven : s.GivenUp k)
    (h : s.transportStep j m = some t) :
    t.GivenUp k ∧ t.activity.count k = s.activity.count k := by
  obtain ⟨o, conn, events, -, -, -, rfl⟩ := transportStep_eq_some h
  obtain ⟨o', ho', hgiven⟩ := hgiven
  have hreceived : (s.received j o m conn events).GivenUp k :=
    ⟨o', (List.getElem?_set_ne hjk).trans ho', hgiven⟩
  have hheard := hreceived.moves (.foldl_hear o.startPaused _ events)
  refine ⟨hheard.1, ?_⟩
  simp only [emit, hheard.2, List.count_append]
  split
  · simp [received, hjk]
  · simp [received]

/-- **No step** brings it back. -/
theorem GivenUp.step {k : ℕ} {l : CallLabel} (hs : s.Coherent) (hgiven : s.GivenUp k)
    (h : s.step l = some t) : t.GivenUp k ∧ t.activity.count k = s.activity.count k := by
  rcases step_cases h with ⟨-, rfl⟩ | ⟨j, m, -, htransport⟩ | hmoves
  · by_cases hstopped : s.fsm = .stopped ∨ s.fsm = .destroyed
    · rw [destroy_of_stopped hstopped]
      obtain ⟨o, ho, htimer, -⟩ := id hgiven
      exact ⟨⟨o, ho, htimer, .inr (.inr rfl)⟩, rfl⟩
    · rw [destroy_of_not_stopped hstopped]
      have hbegun := hgiven.moves (.beginStop s false)
      exact ⟨hbegun.1, congrArg (List.count k) hbegun.2⟩
  · by_cases hjk : j = k
    · subst hjk
      have hown := hgiven.own hs htransport
      exact ⟨hown.1, congrArg (List.count j) hown.2⟩
    · exact hgiven.other hjk htransport
  · have hmoved := hgiven.moves hmoves
    exact ⟨hmoved.1, congrArg (List.count k) hmoved.2⟩

theorem GivenUp.run {k : ℕ} {later : List CallLabel} (hs : s.Coherent) (hgiven : s.GivenUp k)
    (hrun : execute Listener.step s later = some t) :
    t.activity.count k = s.activity.count k := by
  have hinv := execute_invariant Listener.step
    (fun u => u.Coherent ∧ u.GivenUp k ∧ u.activity.count k = s.activity.count k)
    ⟨hs, hgiven, rfl⟩ ?_ hrun
  · exact hinv.2.2
  rintro a l b ⟨ha, hgiven, hcount⟩ - hab
  have hb := hgiven.step ha hab
  exact ⟨ha.step hab, hb.1, hb.2.trans hcount⟩

/-! ## A process that is detached -/

/-- The process was spawned and is not `processManager`'s. -/
def Detached (s : Listener) (p : ℕ) : Prop := p < s.spawned ∧ s.proc ≠ some p

theorem Detached.move {p : ℕ} (hs : s.Detached p) (h : s.Move t) : t.Detached p := by
  cases h with
  | spawn _ =>
      refine ⟨Nat.lt_succ_of_lt hs.1, ?_⟩
      intro heq
      exact Nat.ne_of_gt hs.1 (Option.some.inj heq)
  | beginStop restarts _ =>
      rw [closeTransport_eq]
      refine ⟨hs.1, ?_⟩
      intro heq
      cases heq
  | exit _ _ =>
      refine ⟨hs.1, ?_⟩
      intro heq
      cases heq
  | _ => exact hs

theorem Detached.moves {p : ℕ} (hs : s.Detached p) (h : s.Moves t) : t.Detached p :=
  moves_invariant (fun u => u.Detached p) (fun _ _ ha hab => ha.move hab) hs h

/-- **A step** never takes a process back. -/
theorem Detached.step {p : ℕ} {l : CallLabel} (hs : s.Detached p) (h : s.step l = some t) :
    t.Detached p := by
  rcases step_cases h with ⟨-, rfl⟩ | ⟨k, m, -, htransport⟩ | hmoves
  · by_cases hstopped : s.fsm = .stopped ∨ s.fsm = .destroyed
    · rw [destroy_of_stopped hstopped]
      exact hs
    · rw [destroy_of_not_stopped hstopped]
      have hbegun := hs.moves (.beginStop s false)
      exact hbegun
  · obtain ⟨o, conn, events, -, -, -, rfl⟩ := transportStep_eq_some htransport
    have hreceived : (s.received k o m conn events).Detached p := hs
    have hheard := hreceived.moves (.foldl_hear o.startPaused _ events)
    exact hheard
  · exact hs.moves hmoves

theorem Detached.run {p : ℕ} {later : List CallLabel} (hs : s.Detached p)
    (hrun : execute Listener.step s later = some t) : t.Detached p :=
  execute_invariant _ (fun u => u.Detached p) hs (fun _ _ _ ha _ hab => ha.step hab) hrun

theorem released_of_nothingHeld {a : Awaited} (hs : s.Coherent) (hmade : s.Made a)
    (hheld : s.NothingHeld a) : s.Released a := by
  intro later u hrun
  refine ⟨?_, ?_⟩
  · intro k hk
    exact (hheld.1 k hk).run hs hrun
  · intro p hp
    exact (Detached.run ⟨hmade.1 p hp, hheld.2 p hp⟩ hrun).2

/-! ## A transport that is not given up -/

theorem step_transport {k : ℕ} {o : OwnedTransport} {l : TransportLabel} {conn : SdkTransport}
    {events : List TransportEvent} (ho : s.transports[k]? = some o) (hconnect : l ≠ .connect)
    (hclose : l ≠ .close) (hstep : o.conn.step l = some (conn, events)) :
    s.step (.transport k l) = some (s.emit k o l conn events) := by
  show s.transportStep k l = _
  cases l with
  | connect => exact absurd rfl hconnect
  | close => exact absurd rfl hclose
  | _ => simp only [transportStep, ho, hstep, Option.map_some]

/-- The timer makes its attempt. -/
theorem fire_attempts {k due : ℕ} {o : OwnedTransport} (ho : s.transports[k]? = some o)
    (htimer : o.conn.reconnectTimer = some due) :
    ∃ u, s.step (.transport k (.fire due)) = some u ∧ u.activity = s.activity ++ [k] := by
  have hconn : o.conn.step (.fire due) = some
      ({ o.conn with
        reconnectTimer := none
        reconnectAttempts := o.conn.reconnectAttempts + 1
        socket := some (.connecting true) }, []) := by
    simp [SdkTransport.step, htimer]
  refine ⟨_, step_transport ho ?_ ?_ hconn, ?_⟩
  · intro h
    cases h
  · intro h
    cases h
  · simp [emit, TransportLabel.isAttempt, received]

/-- While the next `start` connects, the loss of the socket makes a transport try again,
or give up and fail that `start`. -/
theorem closed_attempts {j k : ℕ} {o : OwnedTransport} (hfsm : s.fsm = .connecting)
    (htransport : s.transport = some j) (ho : s.transports[k]? = some o)
    (hlive : o.conn.stopped = false) (hsocket : o.conn.socket ≠ none) :
    ∃ later u, execute Listener.step s later = some u ∧ u.activity = s.activity ++ [k] := by
  set conn := { o.conn with socket := none, isConnected := false } with hconn
  have hclosed : o.conn.step (.closed 0) =
      some ((conn.scheduleReconnect 0).1, .disconnected :: (conn.scheduleReconnect 0).2) := by
    simp [SdkTransport.step, hlive, hsocket, hconn]
  set t := s.emit k o (.closed 0) (conn.scheduleReconnect 0).1
    (.disconnected :: (conn.scheduleReconnect 0).2) with ht
  have hstep : s.step (.transport k (.closed 0)) = some t := by
    refine step_transport ho ?_ ?_ hclosed
    · intro h
      cases h
    · intro h
      cases h
  cases hdelay : reconnectDelays[conn.reconnectAttempts]? with
  | none =>
      refine ⟨[.transport k (.closed 0)], t, ?_, ?_⟩
      · rw [execute_cons, hstep]
        rfl
      · simp [ht, emit, received, SdkTransport.scheduleReconnect, hdelay, hear, tryEnter, hfsm,
          SdkState.transition, SdkState.transitions]
  | some delay =>
      have hactivity : t.activity = s.activity := by
        simp [ht, emit, received, SdkTransport.scheduleReconnect, hdelay, hear, hfsm,
          SdkState.isActive, htransport, TransportLabel.isAttempt]
      have hlt := (List.getElem?_eq_some_iff.mp ho).1
      obtain ⟨o', ho', htimer⟩ :
          ∃ o', t.transports[k]? = some o' ∧ o'.conn.reconnectTimer = some (0 + delay) := by
        by_cases hjk : j = k
        · subst hjk
          simp [ht, emit, received, SdkTransport.scheduleReconnect, hdelay, hear, hfsm,
            SdkState.isActive, htransport, List.getElem?_set_self hlt]
        · simp [ht, emit, received, SdkTransport.scheduleReconnect, hdelay, hear, hfsm,
            SdkState.isActive, htransport, List.getElem?_set_self hlt, hjk]
      obtain ⟨u, hfire, hu⟩ := fire_attempts ho' htimer
      refine ⟨[.transport k (.closed 0), .transport k (.fire (0 + delay))], u, ?_, ?_⟩
      · rw [execute_cons, hstep, Option.bind_some, execute_cons, hfire]
        rfl
      · rw [hu, hactivity]

/-- The listener with one more `start` pending. -/
def waiting (s : Listener) (fsm : SdkState) (a : Awaited) : Listener :=
  { s with fsm := fsm, pending := s.pending ++ [.start a false] }

theorem waiting_resolve (s : Listener) (fsm : SdkState) (a : Awaited) :
    (s.waiting fsm a).step (.resolve s.pending.length true) =
      (s.waiting fsm a).resolveStart s.pending.length false a := by
  simp [Listener.step, resolve, waiting]

/-- Whatever is pending, a new `start` comes to make a transport of its own. -/
theorem start_connects (hs : s.Coherent) (hfsm : s.fsm.transition .starting = some .starting)
    (hproc : s.proc = none) :
    ∃ later u, execute Listener.step s later = some u ∧ u.fsm = .connecting ∧
      u.transport = some s.transports.length ∧
      u.transports = s.transports ++ [.dialled false] ∧ u.activity = s.activity := by
  have hlives : s.spawned ∉ s.exited := fun hmem => Nat.lt_irrefl _ (hs.exited _ hmem)
  set t : Listener := { s with proc := some s.spawned, spawned := s.spawned + 1 } with ht
  have hvalidation : s.step (.start false true) = some (s.waiting .starting .validation) := by
    simp [Listener.step, beginStart, enter, hfsm, suspend, waiting]
  have hmodels : (s.waiting .starting .validation).step (.resolve s.pending.length true) =
      some (s.waiting .installing .models) := by
    rw [waiting_resolve]
    simp [resolveStart, enter, await, waiting, SdkState.transition, SdkState.transitions]
  have hspawn : (s.waiting .installing .models).step (.resolve s.pending.length true) =
      some (t.waiting .installing (.spawn s.spawned)) := by
    rw [waiting_resolve]
    simp [resolveStart, hproc, await, waiting, ht]
  have hconnect :
      (t.waiting .installing (.spawn s.spawned)).step (.resolve s.pending.length true) =
        some ((t.addTransport false).waiting .connecting
          (.connect s.spawned s.transports.length)) := by
    show Listener.step _ (.resolve t.pending.length true) = _
    rw [waiting_resolve]
    simp [resolveStart, enter, await, addTransport, waiting, ht, hlives, SdkState.transition,
      SdkState.transitions]
  refine ⟨[.start false true, .resolve s.pending.length true, .resolve s.pending.length true,
    .resolve s.pending.length true],
    (t.addTransport false).waiting .connecting (.connect s.spawned s.transports.length),
    ?_, rfl, rfl, rfl, rfl⟩
  simp only [execute_cons, execute_nil, hvalidation, hmodels, hspawn, hconnect, Option.bind_some]

/-- From a state in which `start` is not under way and that is not `DESTROYED`, calls and
what they wait for lead to one in which `start` can begin and can spawn a process. -/
theorem exists_startable (hs : s.Coherent)
    (hfsm : s.fsm ∈ [.uninitialized, .failed, .stopping, .stopped]) :
    ∃ later u, execute Listener.step s later = some u ∧ u.Coherent ∧
      u.fsm.transition .starting = some .starting ∧ u.proc = none ∧
      u.transports = s.transports ∧ u.activity = s.activity := by
  -- First the `stop` under way ends, if there is one.
  obtain ⟨first, t, hfirst, hstart, htransports, hactivity⟩ :
      ∃ first t, execute Listener.step s first = some t ∧
        t.fsm.transition .starting = some .starting ∧ t.transports = s.transports ∧
        t.activity = s.activity := by
    by_cases hstopping : s.fsm = .stopping
    · obtain ⟨restarts, hmem⟩ := hs.stopping hstopping
      obtain ⟨i, hi⟩ := List.mem_iff_getElem?.mp hmem
      have hstep : s.step (.resolve i true) = some
          (if restarts then suspend { s.settle i with fsm := .stopped } .restart
            else { s.settle i with fsm := .stopped }) := by
        simp [Listener.step, resolve, hi, enter, settle, hstopping, SdkState.transition,
          SdkState.transitions]
      refine ⟨[.resolve i true], _, by rw [execute_cons, hstep]; rfl, ?_, ?_, ?_⟩
      · cases restarts <;> rfl
      · cases restarts <;> rfl
      · cases restarts <;> rfl
    · refine ⟨[], s, rfl, ?_, rfl, rfl⟩
      have hidle : s.fsm = .uninitialized ∨ s.fsm = .failed ∨ s.fsm = .stopped := by
        simpa [hstopping] using hfsm
      rcases hidle with h | h | h
      · rw [h]
        rfl
      · rw [h]
        rfl
      · rw [h]
        rfl
  have ht : t.Coherent := execute_invariant _ Coherent hs (fun _ _ _ ha _ hab => ha.step hab) hfirst
  -- Then the process exits, if there is one.
  cases hproc : t.proc with
  | none => exact ⟨first, t, hfirst, ht, hstart, hproc, htransports, hactivity⟩
  | some p =>
      have hexit : t.step (.exit p) =
          some { t with proc := none, exited := t.exited ++ [p] } := by
        simp [Listener.step, ht.attached p hproc]
      refine ⟨first ++ [.exit p], _, ?_, ht.step hexit, hstart, rfl, htransports, hactivity⟩
      rw [execute_append _ hfirst, execute_cons, hexit]
      rfl

/-- **A live transport** comes to make an attempt or to change the state. -/
theorem exists_activity {k : ℕ} {o : OwnedTransport} (hs : s.Coherent)
    (hfsm : s.fsm ∈ [.uninitialized, .failed, .stopping, .stopped])
    (ho : s.transports[k]? = some o) (hlive : o.conn.stopped = false)
    (hsocket : o.conn.socket ≠ none) :
    ∃ later u, execute Listener.step s later = some u ∧ u.activity = s.activity ++ [k] := by
  obtain ⟨first, t, hfirst, ht, hstart, hproc, htransports, hactivity⟩ := exists_startable hs hfsm
  obtain ⟨second, v, hsecond, hconnecting, htransport, hmade, hsame⟩ :=
    start_connects ht hstart hproc
  have hv : v.transports[k]? = some o := by
    rw [hmade, htransports, List.getElem?_append_left (List.getElem?_eq_some_iff.mp ho).1]
    exact ho
  obtain ⟨third, u, hthird, hu⟩ := closed_attempts hconnecting htransport hv hlive hsocket
  refine ⟨first ++ (second ++ third), u, ?_, ?_⟩
  · rw [execute_append _ hfirst, execute_append _ hsecond, hthird]
  · rw [hu, hsame, hactivity]

/-! ## The `catch` of `start` -/

theorem failStart_fsm (i : ℕ) (h : s.fsm ≠ .destroyed) :
    (s.failStart i).fsm ∈ [.uninitialized, .failed, .stopping, .stopped] := by
  show (s.fsm.transition .failed).getD s.fsm ∈ _
  revert h
  cases s.fsm <;> decide

/-- If nothing more comes from the transport after the failure, it was given up before. -/
theorem givenUp_of_silent {i k : ℕ} (ht : (s.failStart i).Coherent)
    (hk : k < s.transports.length)
    (hsilent : ∀ later u, execute Listener.step (s.failStart i) later = some u →
      u.activity.count k = s.activity.count k) : s.GivenUp k := by
  set t := s.failStart i with hti
  have ho : t.transports[k]? = some s.transports[k] := List.getElem?_eq_getElem hk
  have hquiet : ∀ later u, execute Listener.step t later = some u →
      u.activity ≠ s.activity ++ [k] := by
    intro later u hrun heq
    have hcount := hsilent later u hrun
    simp [heq] at hcount
  refine ⟨s.transports[k], ho, ?_, ?_⟩
  · cases htimer : s.transports[k].conn.reconnectTimer with
    | none => rfl
    | some due =>
        obtain ⟨u, hfire, hu⟩ := fire_attempts ho htimer
        refine absurd hu (hquiet [.transport k (.fire due)] u ?_)
        rw [execute_cons, hfire]
        rfl
  · by_contra hlive
    simp only [not_or, Bool.not_eq_true] at hlive
    obtain ⟨later, u, hrun, hu⟩ :=
      exists_activity ht (failStart_fsm i hlive.2.2) ho hlive.1 hlive.2.1
    exact hquiet later u hrun hu

/-- **What it releases**: nothing.  Whenever a `start` rejects, at whatever it waits for,
its transport and its process are released if and only if both were gone before. -/
theorem released_iff {schedule : List CallLabel} {a : Awaited} {i : ℕ} {l : CallLabel}
    (hrun : execute Listener.step init schedule = some s) (hrejects : s.StartRejects a i l t) :
    t.Released a ↔ s.NothingHeld a := by
  have hs := coherent_of_run hrun
  obtain ⟨⟨startPaused, hpending⟩, -, hstep, rfl⟩ := hrejects
  have ht := hs.step hstep
  have hmade : s.Made a := hs.made a startPaused (List.mem_of_getElem? hpending)
  have hmoves : s.Moves (s.failStart i) := .failStart hpending
  constructor
  · intro hreleased
    refine ⟨?_, ?_⟩
    · intro k hk
      exact givenUp_of_silent ht (hmade.2 k hk) fun later u hlater =>
        (hreleased later u hlater).1 k hk
    · intro p hp
      exact (hreleased [] _ rfl).2 p hp
  · intro hheld
    refine released_of_nothingHeld ht hmade ⟨?_, ?_⟩
    · intro k hk
      exact ((hheld.1 k hk).moves hmoves).1
    · intro p hp
      exact hheld.2 p hp

/-- The process exits during the handshake, and no reconnect attempt finds it. -/
def supervisorLost : List CallLabel :=
  startUp.take 6 ++ [CallLabel.exit 0, .transport 0 (.closed 0), .transport 0 (.fire 200),
    .transport 0 (.closed 200), .transport 0 (.fire 600), .transport 0 (.closed 600),
    .transport 0 (.fire 1400), .transport 0 (.closed 1400), .transport 0 (.fire 3000),
    .transport 0 (.closed 3000), .transport 0 (.fire 6200), .transport 0 (.closed 6200)]

theorem released_once_lost :
    ∃ s t, execute Listener.step init supervisorLost = some s ∧
      s.StartRejects (.handshake 0 0) 0 (.reject 0) t ∧ t.Released (.handshake 0 0) := by
  have hrun : (execute Listener.step init supervisorLost).isSome = true := by decide +kernel
  have hstate : ∀ s ∈ execute Listener.step init supervisorLost,
      s.pending[0]? = some (.start (.handshake 0 0) false) ∧
        s.NothingHeld (.handshake 0 0) := by
    decide +kernel
  obtain ⟨s, hs⟩ := Option.isSome_iff_exists.mp hrun
  obtain ⟨hpending, hheld⟩ := hstate s hs
  have hrejects : s.StartRejects (.handshake 0 0) 0 (.reject 0) (s.failStart 0) := by
    refine startRejects_reject hpending ?_
    simp only [Listener.step, reject, hpending, rejectStart]
  exact ⟨s, _, hs, hrejects, (released_iff hs hrejects).mpr hheld⟩

/-- The connection of the first `start` fails. -/
def connectionFails : List CallLabel := startUp.take 4 ++ [CallLabel.transport 0 .errored]

/-- The transport tries again although `start` has rejected, and the next `start` is refused
for the process of the first. -/
theorem attempt_and_refusal_after_failure :
    (∃ s t, execute Listener.step init connectionFails = some s ∧
      s.StartRejects (.connect 0 0) 0 (.reject 0) t ∧ ¬ t.Released (.connect 0 0)) ∧
    (execute Listener.step init (connectionFails ++ [CallLabel.reject 0, .transport 0 (.closed 0),
      .transport 0 (.fire 200)])).map Listener.activity = some [0] ∧
    (execute Listener.step init (connectionFails ++ [CallLabel.reject 0, .start false true,
      .resolve 0 true, .resolve 0 true])).map (fun s => (s.proc, s.pending)) =
        some (some 0, [.start .refusal false]) := by
  refine ⟨?_, by decide +kernel, by decide +kernel⟩
  have hrun : ((execute Listener.step init connectionFails).bind fun s =>
      s.step (.reject 0)).isSome = true := by
    decide +kernel
  obtain ⟨t, ht⟩ := Option.isSome_iff_exists.mp hrun
  obtain ⟨s, hs, hreject⟩ := Option.bind_eq_some_iff.mp ht
  have hpending : s.pending[0]? = some (.start (.connect 0 0) false) := by
    have hstate : ∀ u ∈ execute Listener.step init connectionFails,
        u.pending[0]? = some (.start (.connect 0 0) false) := by
      decide +kernel
    exact hstate s hs
  have hproc : t.proc = some 0 := by
    have hstate : ∀ u ∈ (execute Listener.step init connectionFails).bind fun s =>
        s.step (.reject 0), u.proc = some 0 := by
      decide +kernel
    exact hstate t ht
  refine ⟨s, t, hs, startRejects_reject hpending hreject, ?_⟩
  intro hreleased
  exact (hreleased [] t rfl).2 0 rfl hproc

end Listener

end Sdk
end AvaListener
