import AvaListener.Audio.ResetsSettle

/-!
# Starts and stops of the streamer

The streamer can be started again after a stop, if starts and stops wait for each other and
no reset gets between the two transitions of a `shutdown`.  `Phase` lists where an orderly
run of the streamer can be.
-/

namespace AvaListener
namespace Audio

open Library Kernel

namespace Streamer

/-- The states between which resets move the ASR while it runs. -/
def Up (state : SubsystemState) : Prop :=
  state = .active ∨ state = .faulted ∨ state = .recovering

theorem Up.asrAfter {state : SubsystemState} (h : Up state) (op : ResetOp) :
    Up (asrAfter state op) := by
  rcases h with rfl | rfl | rfl
  all_goals
    cases op with
    | _ => simp [Streamer.asrAfter, Up]

/-- Resets leave the ASR alone while it does not run. -/
theorem asrAfter_of_down {state : SubsystemState} (op : ResetOp)
    (h : state = .offline ∨ state = .initializing ∨ state = .ready) :
    asrAfter state op = state := by
  rcases h with rfl | rfl | rfl
  all_goals
    cases op with
    | _ => rfl

/-- Nobody gets in the way of a start or a stop: a start waits for the last stop, a stop for the
start and its worker, the microphone opens, and no reset moves the ASR to RECOVERING between
the two transitions of a `shutdown`. -/
def Undisturbed (s : Streamer) : StreamerEvent ⊕ Operation → Prop
  | .inl .start => s.stops = []
  | .inl .micFails => False
  | .inl .newStop => s.main = some .listening ∧ s.entering = 0 ∧ s.stops = []
  | .inr (.reset .recoverAsr) => s.asr = .faulted → .offlineAsr ∉ s.stops
  | _ => True

instance (s : Streamer) : ∀ l, Decidable (s.Undisturbed l)
  | .inl .start => inferInstanceAs (Decidable (s.stops = []))
  | .inl .micFails => inferInstanceAs (Decidable False)
  | .inl .newStop => inferInstanceAs (Decidable (_ ∧ _ ∧ _))
  | .inr (.reset .recoverAsr) =>
      inferInstanceAs (Decidable (s.asr = .faulted → .offlineAsr ∉ s.stops))
  | .inl .micOpens | .inl .loopEnds | .inl .newReset | .inr (.start _) | .inr .worker
  | .inr (.reset .faultAsr) | .inr (.reset .faultVad) | .inr (.reset .recoverVad)
  | .inr (.reset .resumeAsr) | .inr (.reset .resumeVad) | .inr (.stop _) => isTrue trivial

/-- What a stop finds at each of its operations. -/
def Finds (asr audio : SubsystemState) : StopOp → Prop
  | .testAsr => (Up asr ∧ audio = .active) ∨ (asr = .offline ∧ audio = .offline)
  | .releaseAsr => Up asr ∧ audio = .active
  | .offlineAsr => (asr = .ready ∨ asr = .faulted) ∧ audio = .active
  | .testAudio => asr = .offline ∧ (audio = .active ∨ audio = .offline)
  | .releaseAudio => asr = .offline ∧ audio = .active
  | .offlineAudio => asr = .offline ∧ audio = .ready

/-- What `start` finds of the audio subsystem, once the ASR is READY. -/
def audioAt : MainStage → Option SubsystemState
  | .moving .initAudio => some .offline
  | .moving .readyAudio => some .initializing
  | .opening | .moving .activateAudio => some .ready
  | .listening => some .active
  | _ => none

/-- Where the streamer is in an orderly run. -/
inductive Phase (s : Streamer) : Prop where
  | down (main : s.main = none ∨ s.main = some .listening) (stops : s.stops = [])
      (entering : s.entering = 0) (asr : s.asr = .offline) (audio : s.audio = .offline)
  | initAsr (main : s.main = some (.moving .initAsr)) (event : s.stopEvent = false)
      (stops : s.stops = []) (entering : s.entering = 0) (asr : s.asr = .offline)
      (audio : s.audio = .offline)
  | readyAsr (main : s.main = some (.moving .readyAsr)) (event : s.stopEvent = false)
      (stops : s.stops = []) (entering : s.entering = 0) (asr : s.asr = .initializing)
      (audio : s.audio = .offline)
  | coming (stage : MainStage) (main : s.main = some stage) (event : s.stopEvent = false)
      (stops : s.stops = []) (asr : (s.entering = 1 ∧ s.asr = .ready) ∨ (s.entering = 0 ∧ Up s.asr))
      (audio : audioAt stage = some s.audio)
  | stopping (op : StopOp) (main : s.main = none ∨ s.main = some .listening)
      (stops : s.stops = [op]) (entering : s.entering = 0) (finds : Finds s.asr s.audio op)

variable {s t : Streamer}

theorem Phase.reset (h : s.Phase) (op : ResetOp) (hcond : s.Undisturbed (.inr (.reset op))) :
    (s.perform (.reset op)).Phase := by
  rw [perform_reset]
  cases h with
  | down hmain hstops hentering hasr haudio =>
      refine .down hmain hstops hentering ?_ haudio
      show Streamer.asrAfter s.asr op = _
      rw [asrAfter_of_down op (.inl hasr), hasr]
  | initAsr hmain hevent hstops hentering hasr haudio =>
      refine .initAsr hmain hevent hstops hentering ?_ haudio
      show Streamer.asrAfter s.asr op = _
      rw [asrAfter_of_down op (.inl hasr), hasr]
  | readyAsr hmain hevent hstops hentering hasr haudio =>
      refine .readyAsr hmain hevent hstops hentering ?_ haudio
      show Streamer.asrAfter s.asr op = _
      rw [asrAfter_of_down op (.inr (.inl hasr)), hasr]
  | coming stage hmain hevent hstops hasr haudio =>
      refine .coming stage hmain hevent hstops ?_ haudio
      rcases hasr with ⟨hentering, hready⟩ | ⟨hentering, hup⟩
      · left
        refine ⟨hentering, ?_⟩
        show Streamer.asrAfter s.asr op = _
        rw [asrAfter_of_down op (.inr (.inr hready)), hready]
      · exact .inr ⟨hentering, hup.asrAfter op⟩
  | stopping sop hmain hstops hentering hfinds =>
      refine .stopping sop hmain hstops hentering ?_
      show Finds (Streamer.asrAfter s.asr op) s.audio sop
      cases sop with
      | testAsr =>
          rcases hfinds with ⟨hup, haudio⟩ | ⟨hasr, haudio⟩
          · exact .inl ⟨hup.asrAfter op, haudio⟩
          · exact .inr ⟨(asrAfter_of_down op (.inl hasr)).trans hasr, haudio⟩
      | releaseAsr => exact ⟨hfinds.1.asrAfter op, hfinds.2⟩
      | offlineAsr =>
          obtain ⟨hready | hfaulted, haudio⟩ := hfinds
          · exact ⟨.inl ((asrAfter_of_down op (.inr (.inr hready))).trans hready), haudio⟩
          · refine ⟨.inr ?_, haudio⟩
            rw [hfaulted]
            cases op with
            | recoverAsr => exact absurd (by simp [hstops]) (hcond hfaulted)
            | _ => rfl
      | _ => exact ⟨(asrAfter_of_down op (.inl hfinds.1)).trans hfinds.1, hfinds.2⟩

/-- The state from which an operation of `start` gets to its target. -/
def expects : StartOp → SubsystemState
  | .initAsr | .initAudio => .offline
  | .readyAsr | .readyAudio => .initializing
  | .activateAudio => .ready

/-- An operation of `start` that finds what it expects does not raise. -/
theorem perform_start (s : Streamer) (op : StartOp)
    (h : s.view (Operation.start op).subsystem = expects op) :
    s.perform (.start op) =
      (s.put op.target (Operation.start op).subsystem).proceed op.target (.start op) := by
  rw [perform, h]
  cases op with
  | _ => rfl

/-- The operations of `start` do not raise in an orderly run. -/
theorem Phase.start (h : s.Phase) {op : StartOp} (hmain : s.main = some (.moving op)) :
    (s.perform (.start op)).Phase ∧ (s.perform (.start op)).raised = s.raised := by
  cases h with
  | down hmain' =>
      rcases hmain' with hnone | hlistening
      · simp [hnone] at hmain
      · simp [hlistening] at hmain
  | initAsr hmain' hevent hstops hentering hasr haudio =>
      obtain rfl : op = .initAsr := by simpa [hmain'] using hmain.symm
      rw [perform_start s .initAsr hasr]
      exact ⟨.readyAsr rfl hevent hstops hentering rfl haudio, rfl⟩
  | readyAsr hmain' hevent hstops hentering hasr haudio =>
      obtain rfl : op = .readyAsr := by simpa [hmain'] using hmain.symm
      rw [perform_start s .readyAsr hasr]
      refine ⟨.coming _ rfl hevent hstops (.inl ⟨?_, rfl⟩) (congrArg some haudio.symm), rfl⟩
      show s.entering + 1 = 1
      rw [hentering]
  | coming stage hmain' hevent hstops hasr haudio =>
      obtain rfl := Option.some.inj (hmain'.symm.trans hmain)
      cases op with
      | initAsr => cases haudio
      | readyAsr => cases haudio
      -- The audio subsystem is as the last operation left it.
      | initAudio =>
          rw [perform_start s .initAudio (Option.some.inj haudio).symm]
          exact ⟨.coming _ rfl hevent hstops hasr rfl, rfl⟩
      | readyAudio =>
          rw [perform_start s .readyAudio (Option.some.inj haudio).symm]
          exact ⟨.coming _ rfl hevent hstops hasr rfl, rfl⟩
      | activateAudio =>
          rw [perform_start s .activateAudio (Option.some.inj haudio).symm]
          exact ⟨.coming _ rfl hevent hstops hasr rfl, rfl⟩
  | stopping sop hmain' =>
      rcases hmain' with hnone | hlistening
      · simp [hnone] at hmain
      · simp [hlistening] at hmain

theorem Phase.stop (h : s.Phase) {op : StopOp} (hmem : op ∈ s.stops) :
    (s.perform (.stop op)).Phase := by
  have hstopping : (s.main = none ∨ s.main = some .listening) ∧ s.stops = [op] ∧ s.entering = 0 ∧
      Finds s.asr s.audio op := by
    cases h with
    | stopping op' hmain hstops hentering hfinds =>
        rw [hstops, List.mem_singleton] at hmem
        exact ⟨hmain, hmem ▸ hstops, hentering, hmem ▸ hfinds⟩
    | down hmain hstops => simp [hstops] at hmem
    | initAsr hmain hevent hstops => simp [hstops] at hmem
    | readyAsr hmain hevent hstops => simp [hstops] at hmem
    | coming stage hmain hevent hstops => simp [hstops] at hmem
  obtain ⟨hmain, hstops, hentering, hfinds⟩ := hstopping
  rw [perform_stop, hstops]
  cases op with
  | testAsr =>
      rcases hfinds with ⟨hup, haudio⟩ | ⟨hasr, haudio⟩
      · have hrunning : s.asr ≠ .offline := by
          rcases hup with hasr | hasr | hasr
          all_goals simp [hasr]
        exact .stopping .releaseAsr hmain
          (by simp [StopOp.next, view, Operation.subsystem, hrunning]) hentering ⟨hup, haudio⟩
      · exact .stopping .testAudio hmain (by simp [StopOp.next, view, Operation.subsystem, hasr])
          hentering ⟨hasr, .inr haudio⟩
  | releaseAsr =>
      refine .stopping .offlineAsr hmain (by simp [StopOp.next]) hentering ⟨?_, hfinds.2⟩
      show s.asr.released = .ready ∨ s.asr.released = .faulted
      rcases hfinds.1 with hasr | hasr | hasr
      · exact .inl (by rw [hasr]; rfl)
      · exact .inr (by rw [hasr]; rfl)
      · exact .inr (by rw [hasr]; rfl)
  | offlineAsr =>
      obtain ⟨hhalf, haudio⟩ := hfinds
      refine .stopping .testAudio hmain (by simp [StopOp.next]) hentering ⟨?_, .inl haudio⟩
      show s.asr.offlined = .offline
      rcases hhalf with hasr | hasr
      · rw [hasr]
        rfl
      · rw [hasr]
        rfl
  | testAudio =>
      obtain ⟨hasr, haudio | haudio⟩ := hfinds
      · exact .stopping .releaseAudio hmain
          (by simp [StopOp.next, view, Operation.subsystem, haudio]) hentering ⟨hasr, haudio⟩
      · exact .down hmain (by simp [StopOp.next, view, Operation.subsystem, haudio]) hentering hasr
          haudio
  | releaseAudio =>
      refine .stopping .offlineAudio hmain (by simp [StopOp.next]) hentering ⟨hfinds.1, ?_⟩
      show s.audio.released = .ready
      rw [hfinds.2]
      rfl
  | offlineAudio =>
      refine .down hmain (by simp [StopOp.next]) hentering hfinds.1 ?_
      show s.audio.offlined = .offline
      rw [hfinds.2]
      rfl

/-- An orderly run so far. -/
structure Orderly (s : Streamer) : Prop where
  phase : s.Phase
  raised : s.raised = []

theorem orderly_init : init.Orderly := ⟨.down (.inl rfl) rfl rfl rfl rfl, rfl⟩

theorem Orderly.worker (h : s.Orderly) (hentering : 0 < s.entering) :
    (s.perform .worker).Orderly := by
  cases h.phase with
  | down _ _ hnone => omega
  | initAsr _ _ _ hnone => omega
  | readyAsr _ _ _ hnone => omega
  | stopping _ _ _ hnone => omega
  | coming stage hmain hevent hstops hasr haudio =>
      rcases hasr with ⟨hone, hready⟩ | ⟨hnone, -⟩
      · rw [perform_worker, if_pos (.inl hready)]
        refine ⟨.coming stage hmain hevent hstops (.inr ⟨?_, .inl rfl⟩) haudio, h.raised⟩
        show s.entering - 1 = 0
        omega
      · omega

theorem Orderly.newStop (h : s.Orderly) (hcond : s.Undisturbed (.inl .newStop)) :
    ({ s with stopEvent := true, stops := s.stops ++ [.testAsr] } : Streamer).Orderly := by
  obtain ⟨hmain, hentering, hstops⟩ := hcond
  refine ⟨?_, h.raised⟩
  have hone : s.stops ++ [.testAsr] = [.testAsr] := by rw [hstops, List.nil_append]
  cases h.phase with
  | down _ _ _ hasr haudio =>
      exact .stopping .testAsr (.inr hmain) hone hentering (.inr ⟨hasr, haudio⟩)
  | initAsr hmain' => simp [hmain] at hmain'
  | readyAsr hmain' => simp [hmain] at hmain'
  | coming stage hmain' _ _ hasr haudio =>
      obtain rfl := Option.some.inj (hmain.symm.trans hmain')
      refine .stopping .testAsr (.inr hmain) hone hentering
        (.inl ⟨?_, (Option.some.inj haudio).symm⟩)
      rcases hasr with ⟨hwaiting, -⟩ | ⟨-, hup⟩
      · omega
      · exact hup
  | stopping op _ hstops' => simp [hstops] at hstops'

theorem Orderly.event (h : s.Orderly) {e : StreamerEvent} (hcond : s.Undisturbed (.inl e))
    (hevent : s.event e = some t) : t.Orderly := by
  cases e with
  | start =>
      obtain ⟨hmain, ht⟩ := Option.ite_none_right_eq_some.mp hevent
      cases ht
      have hstops : s.stops = [] := hcond
      refine ⟨?_, h.raised⟩
      cases h.phase with
      | down _ hstops hentering hasr haudio => exact .initAsr rfl rfl hstops hentering hasr haudio
      | initAsr hmain' => simp [hmain] at hmain'
      | readyAsr hmain' => simp [hmain] at hmain'
      | coming stage hmain' => simp [hmain] at hmain'
      | stopping op _ hstops' => simp [hstops] at hstops'
  | micOpens =>
      obtain ⟨hmain, ht⟩ := Option.ite_none_right_eq_some.mp hevent
      cases ht
      refine ⟨?_, h.raised⟩
      cases h.phase with
      | coming stage hmain' hevent' hstops hasr haudio =>
          obtain rfl := Option.some.inj (hmain.symm.trans hmain')
          exact .coming _ rfl hevent' hstops hasr haudio
      | down hmain' => simp [hmain] at hmain'
      | initAsr hmain' => simp [hmain] at hmain'
      | readyAsr hmain' => simp [hmain] at hmain'
      | stopping op hmain' => simp [hmain] at hmain'
  | micFails => exact hcond.elim
  | loopEnds =>
      obtain ⟨⟨hmain, hset⟩, ht⟩ := Option.ite_none_right_eq_some.mp hevent
      cases ht
      refine ⟨?_, h.raised⟩
      cases h.phase with
      | down _ hstops hentering hasr haudio => exact .down (.inl rfl) hstops hentering hasr haudio
      | stopping op _ hstops hentering hfinds =>
          exact .stopping op (.inl rfl) hstops hentering hfinds
      -- Before a stop the event is not set.
      | initAsr _ hunset => simp [hset] at hunset
      | readyAsr _ hunset => simp [hset] at hunset
      | coming stage _ hunset => simp [hset] at hunset
  | newReset =>
      cases hevent
      refine ⟨?_, h.raised⟩
      cases h.phase with
      | down hmain hstops hentering hasr haudio => exact .down hmain hstops hentering hasr haudio
      | initAsr hmain hevent hstops hentering hasr haudio =>
          exact .initAsr hmain hevent hstops hentering hasr haudio
      | readyAsr hmain hevent hstops hentering hasr haudio =>
          exact .readyAsr hmain hevent hstops hentering hasr haudio
      | coming stage hmain hevent hstops hasr haudio =>
          exact .coming stage hmain hevent hstops hasr haudio
      | stopping op hmain hstops hentering hfinds =>
          exact .stopping op hmain hstops hentering hfinds
  | newStop =>
      cases hevent
      exact h.newStop hcond

theorem Orderly.step (h : s.Orderly) {l : StreamerEvent ⊕ Operation} (hcond : s.Undisturbed l)
    (hstep : threads.atomic s l = some t) : t.Orderly := by
  cases l with
  | inl e => exact h.event hcond hstep
  | inr op =>
      obtain ⟨hwaiting, rfl⟩ := perform_of_atomic hstep
      cases op with
      | start op =>
          obtain ⟨hphase, hraised⟩ := h.phase.start (main_of_waiting hwaiting)
          exact ⟨hphase, hraised.trans h.raised⟩
      | worker => exact h.worker hwaiting
      | reset op =>
          refine ⟨h.phase.reset op hcond, ?_⟩
          rw [perform_reset]
          exact h.raised
      | stop op =>
          refine ⟨h.phase.stop (List.count_pos_iff.mp hwaiting), ?_⟩
          rw [perform_stop]
          exact h.raised

/-- The streamer is fine: nothing raised, and it is OFFLINE while nobody starts or stops it. -/
def Startable (s : Streamer) : Prop :=
  s.raised = [] ∧ (s.main = none → s.stops = [] → s.asr = .offline ∧ s.audio = .offline)

instance (s : Streamer) : Decidable s.Startable :=
  inferInstanceAs (Decidable (_ ∧ _))

theorem Orderly.startable (h : s.Orderly) : s.Startable := by
  refine ⟨h.raised, fun hmain hstops => ?_⟩
  cases h.phase with
  | down _ _ _ hasr haudio => exact ⟨hasr, haudio⟩
  | initAsr hmain' => simp [hmain] at hmain'
  | readyAsr hmain' => simp [hmain] at hmain'
  | coming stage hmain' => simp [hmain] at hmain'
  | stopping op _ hstops' => simp [hstops] at hstops'

/-- **Starts and stops.**  In every interleaving in which no thread writes a life cycle amid
another's operation on it, starts and stops wait for each other, the microphone opens and no
reset cuts into a `shutdown`, no life cycle call ever raises, resets overlapping as they like,
and between a stop and the next start both life cycles are OFFLINE, so the streamer can be
started again. -/
theorem startable_of_undisturbed {labels : List (AccessLabel StreamerEvent Operation)}
    (hmeets : MeetsAlong threads.interleaved
      (fun s l => threads.Uncrossed s l ∧ ∀ a ∈ threads.completes s l, s.core.Undisturbed a)
      ⟨init, []⟩ labels) :
    Always threads.interleaved (fun s => s.core.Startable) ⟨init, []⟩ labels :=
  SharedSystem.always_of_uncrossed threads_lawful orderly_init (fun _ hs => hs.startable)
    (fun _ _ _ hs hcond hst => hs.step hcond hst) hmeets

/-- A start, a reset, a stop, and a second start. -/
def startedTwice : List (AccessLabel StreamerEvent Operation) :=
  [.event .start, .begin (.start .initAsr), .goOn 0, .begin (.start .readyAsr), .goOn 0,
    .begin .worker, .goOn 0, .goOn 0, .event .newReset, .begin (.start .initAudio), .goOn 0,
    .begin (.reset .faultAsr), .begin (.start .readyAudio), .goOn 0, .goOn 0, .goOn 0,
    .event .micOpens, .begin (.start .activateAudio), .goOn 0, .event .newStop,
    .begin (.stop .testAsr), .begin (.stop .releaseAsr), .goOn 0, .goOn 0,
    .begin (.stop .offlineAsr), .goOn 0, .goOn 0, .begin (.reset .recoverAsr), .event .loopEnds,
    .begin (.stop .testAudio), .begin (.stop .releaseAudio), .goOn 0, .goOn 0, .goOn 0,
    .begin (.stop .offlineAudio), .goOn 0, .goOn 0, .event .start, .begin (.start .initAsr),
    .goOn 0]

theorem startedTwice_startable :
    (execute threads.interleaved ⟨init, []⟩ startedTwice).isSome = true ∧
    Always threads.interleaved (fun s => s.core.Startable) ⟨init, []⟩ startedTwice :=
  ⟨by decide +kernel, startable_of_undisturbed (by decide +kernel)⟩

/-- A reset that moves the ASR to RECOVERING between the transitions of `shutdown` leaves it
running. -/
example : (execute threads.interleaved ⟨init, []⟩
    [.event .start, .begin (.start .initAsr), .goOn 0, .begin (.start .readyAsr), .goOn 0,
      .begin .worker, .goOn 0, .goOn 0, .begin (.start .initAudio), .goOn 0,
      .begin (.start .readyAudio), .goOn 0, .event .micOpens, .begin (.start .activateAudio),
      .goOn 0, .event .newReset, .begin (.reset .faultAsr), .goOn 0, .goOn 0, .event .newStop,
      .begin (.stop .testAsr), .begin (.stop .releaseAsr), .goOn 0, .goOn 0,
      .begin (.reset .recoverAsr), .goOn 0, .goOn 0, .begin (.stop .offlineAsr),
      .begin (.stop .testAudio), .begin (.stop .releaseAudio), .goOn 0, .goOn 0, .goOn 0,
      .begin (.stop .offlineAudio), .goOn 0, .goOn 0, .event .loopEnds]).map
        (fun s => (s.core.main, s.core.stops, s.core.asr)) = some (none, [], .recovering) := by
  decide +kernel

end Streamer

end Audio
end AvaListener
