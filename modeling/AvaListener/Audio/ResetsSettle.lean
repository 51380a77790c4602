import AvaListener.Audio.StreamerThreads

/-!
# Resets settle

Resets of the streamer may overlap.  `Settling` says that a subsystem on its way from
FAULTED to ACTIVE has a thread that takes it on; every operation in one piece keeps it, and
so does every interleaving of reads and writes in which no write crosses an operation.
-/

namespace AvaListener
namespace Audio

open Library Kernel

namespace Streamer

/-! ## What the operations do -/

/-- An operation in one piece. -/
def perform (s : Streamer) (op : Operation) : Streamer :=
  s.finish op (op.program.run (s.view op.subsystem))

theorem perform_of_atomic {s t : Streamer} {op : Operation}
    (h : threads.atomic s (.inr op) = some t) : 0 < s.waiting op ∧ s.perform op = t := by
  obtain ⟨hwaiting, ht⟩ := Option.ite_none_right_eq_some.mp h
  exact ⟨hwaiting, Option.some.inj ht⟩

/-- What an operation of a reset makes of the ASR's state. -/
def asrAfter (asr : SubsystemState) : ResetOp → SubsystemState
  | .faultAsr => if asr = .active then .faulted else asr
  | .recoverAsr => if asr = .faulted then .recovering else asr
  | .resumeAsr => if asr = .recovering then .active else asr
  | _ => asr

/-- What it makes of the VAD's state. -/
def vadAfter (vad : SubsystemState) : ResetOp → SubsystemState
  | .faultVad => if vad = .active then .faulted else vad
  | .recoverVad => if vad = .faulted then .recovering else vad
  | .resumeVad => if vad = .recovering then .active else vad
  | _ => vad

/-- A reset does not raise. -/
theorem perform_reset (s : Streamer) (op : ResetOp) :
    s.perform (.reset op) = { s with
      asr := asrAfter s.asr op
      vad := vadAfter s.vad op
      resets := s.resets.erase op ++ op.next.toList } := by
  cases op with
  | faultAsr => exact congrArg (s.finish _) (SubsystemState.run_fault _)
  | recoverAsr => exact congrArg (s.finish _) (SubsystemState.run_beginRecovery _)
  | faultVad => exact congrArg (s.finish _) (SubsystemState.run_fault _)
  | recoverVad => exact congrArg (s.finish _) (SubsystemState.run_beginRecovery _)
  | resumeAsr => exact congrArg (s.finish _) (SubsystemState.run_resume _)
  | resumeVad => exact congrArg (s.finish _) (SubsystemState.run_resume _)

/-- What an operation of a stop makes of the ASR's state. -/
def asrStopped (asr : SubsystemState) : StopOp → SubsystemState
  | .releaseAsr => asr.released
  | .offlineAsr => asr.offlined
  | _ => asr

/-- What it makes of the audio subsystem's state. -/
def audioStopped (audio : SubsystemState) : StopOp → SubsystemState
  | .releaseAudio => audio.released
  | .offlineAudio => audio.offlined
  | _ => audio

/-- A stop does not raise either. -/
theorem perform_stop (s : Streamer) (op : StopOp) :
    s.perform (.stop op) = { s with
      asr := asrStopped s.asr op
      audio := audioStopped s.audio op
      stops := s.stops.erase op ++ (op.next (s.view (Operation.stop op).subsystem)).toList } := by
  cases op with
  | testAsr => rfl
  | releaseAsr => exact congrArg (s.finish _) (SubsystemState.run_release _)
  | offlineAsr => exact congrArg (s.finish _) (SubsystemState.run_goOffline _)
  | testAudio => rfl
  | releaseAudio => exact congrArg (s.finish _) (SubsystemState.run_release _)
  | offlineAudio => exact congrArg (s.finish _) (SubsystemState.run_goOffline _)

/-- A worker that enters takes READY to ACTIVE, or raises. -/
theorem perform_worker (s : Streamer) :
    s.perform .worker =
      if s.asr = .ready ∨ s.asr = .active then
        { s with asr := .active, entering := s.entering - 1 }
      else { s with entering := s.entering - 1, raised := s.raised ++ [.worker] } := by
  show s.finish .worker (SubsystemState.enterRun.run s.asr) = _
  rw [SubsystemState.run_enterRun]
  split
  · rfl
  · rfl

/-- `start` moves the ASR to INITIALIZING or READY only, and its exceptions are its own. -/
theorem perform_start_frame (s : Streamer) (op : StartOp) :
    ∃ asr audio main entering raised, s.perform (.start op) =
        { s with
          asr := asr
          audio := audio
          main := main
          entering := entering
          raised := raised } ∧
      (asr = s.asr ∨ asr = .initializing ∨ asr = .ready) ∧
      (raised = s.raised ∨ raised = s.raised ++ [.main]) := by
  unfold perform
  cases hrun : (Operation.start op).program.run (s.view (Operation.start op).subsystem) with
  | none => exact ⟨_, _, _, _, _, rfl, .inl rfl, .inr rfl⟩
  | some state =>
      cases op with
      | initAsr =>
          have hstate := SubsystemState.run_transition_eq_some hrun
          exact ⟨_, _, _, _, _, rfl, .inr (.inl hstate), .inl rfl⟩
      | readyAsr =>
          have hstate := SubsystemState.run_transition_eq_some hrun
          exact ⟨_, _, _, _, _, rfl, .inr (.inr hstate), .inl rfl⟩
      | initAudio => exact ⟨_, _, _, _, _, rfl, .inl rfl, .inl rfl⟩
      | readyAudio => exact ⟨_, _, _, _, _, rfl, .inl rfl, .inl rfl⟩
      | activateAudio => exact ⟨_, _, _, _, _, rfl, .inl rfl, .inl rfl⟩

/-! ## Resets settle -/

section After

variable {state : SubsystemState} {op : ResetOp}

theorem asrAfter_eq_faulted (h : asrAfter state op = .faulted) :
    op = .faultAsr ∨ (state = .faulted ∧ op ≠ .recoverAsr) := by
  revert h
  cases op with
  | _ =>
    cases state with
    | _ => simp [asrAfter]

theorem asrAfter_eq_recovering (h : asrAfter state op = .recovering) :
    op = .recoverAsr ∨ (state = .recovering ∧ op ≠ .resumeAsr) := by
  revert h
  cases op with
  | _ =>
    cases state with
    | _ => simp [asrAfter]

theorem vadAfter_eq_faulted (h : vadAfter state op = .faulted) :
    op = .faultVad ∨ (state = .faulted ∧ op ≠ .recoverVad) := by
  revert h
  cases op with
  | _ =>
    cases state with
    | _ => simp [vadAfter]

theorem vadAfter_eq_recovering (h : vadAfter state op = .recovering) :
    op = .recoverVad ∨ (state = .recovering ∧ op ≠ .resumeVad) := by
  revert h
  cases op with
  | _ =>
    cases state with
    | _ => simp [vadAfter]

theorem vadAfter_runs (h : state = .active ∨ state = .faulted ∨ state = .recovering) :
    vadAfter state op = .active ∨ vadAfter state op = .faulted ∨
      vadAfter state op = .recovering := by
  rcases h with rfl | rfl | rfl
  all_goals
    cases op with
    | _ => simp [vadAfter]

end After

/-- Some reset is at one of these operations. -/
def ResetAt (resets ops : List ResetOp) : Prop := ∃ q ∈ ops, q ∈ resets

/-- A thread that is at another operation stays where it is. -/
theorem mem_advance {α : Type} [DecidableEq α] {l rest : List α} {q op : α} (h : q ∈ l)
    (hne : q ≠ op) : q ∈ l.erase op ++ rest :=
  List.mem_append_left _ ((List.mem_erase_of_ne hne).mpr h)

theorem mem_next {l : List ResetOp} {q op : ResetOp} (h : op.next = some q) :
    q ∈ l.erase op ++ op.next.toList := by
  simp [h]

/-- A reset that performs an operation is at one of these operations still, if the next
one is among them. -/
theorem ResetAt.advance {resets ops : List ResetOp} {op : ResetOp} (h : ResetAt resets ops)
    (hnext : op ∈ ops → ∃ q ∈ ops, op.next = some q) :
    ResetAt (resets.erase op ++ op.next.toList) ops := by
  obtain ⟨q, hq, hmem⟩ := h
  by_cases hsame : q = op
  · obtain ⟨r, hr, heq⟩ := hnext (hsame ▸ hq)
    exact ⟨r, hr, mem_next heq⟩
  · exact ⟨q, hq, mem_advance hmem hsame⟩

/-- A subsystem that is on its way has a thread that takes it on. -/
structure Settling (s : Streamer) : Prop where
  asrFaulted : s.asr = .faulted → ResetAt s.resets [.recoverAsr] ∨ .offlineAsr ∈ s.stops
  asrRecovering : s.asr = .recovering → ResetAt s.resets [.faultVad, .recoverVad, .resumeAsr]
  vadRuns : s.vad = .active ∨ s.vad = .faulted ∨ s.vad = .recovering
  vadFaulted : s.vad = .faulted → ResetAt s.resets [.recoverVad]
  vadRecovering : s.vad = .recovering → ResetAt s.resets [.resumeAsr, .resumeVad]
  raised : ∀ c ∈ s.raised, c = .main ∨ c = .worker

theorem settling_init : init.Settling := by
  constructor
  all_goals simp [init]

variable {s t : Streamer}

theorem Settling.reset (h : s.Settling) (op : ResetOp) : (s.perform (.reset op)).Settling := by
  rw [perform_reset]
  refine ⟨fun hasr => ?_, fun hasr => ?_, vadAfter_runs h.vadRuns, fun hvad => ?_, fun hvad => ?_,
    h.raised⟩
  · rcases asrAfter_eq_faulted hasr with rfl | ⟨hbefore, hother⟩
    · exact .inl ⟨.recoverAsr, by simp, mem_next rfl⟩
    · rcases h.asrFaulted hbefore with hreset | hstop
      · exact .inl (hreset.advance fun hmem => absurd (List.mem_singleton.mp hmem) hother)
      · exact .inr hstop
  · rcases asrAfter_eq_recovering hasr with rfl | ⟨hbefore, hother⟩
    · exact ⟨.faultVad, by simp, mem_next rfl⟩
    · refine (h.asrRecovering hbefore).advance fun hmem => ?_
      simp only [List.mem_cons, List.not_mem_nil, or_false] at hmem
      rcases hmem with rfl | rfl | rfl
      · exact ⟨.recoverVad, by simp, rfl⟩
      · exact ⟨.resumeAsr, by simp, rfl⟩
      · exact absurd rfl hother
  · rcases vadAfter_eq_faulted hvad with rfl | ⟨hbefore, hother⟩
    · exact ⟨.recoverVad, by simp, mem_next rfl⟩
    · exact (h.vadFaulted hbefore).advance fun hmem => absurd (List.mem_singleton.mp hmem) hother
  · rcases vadAfter_eq_recovering hvad with rfl | ⟨hbefore, hother⟩
    · exact ⟨.resumeAsr, by simp, mem_next rfl⟩
    · refine (h.vadRecovering hbefore).advance fun hmem => ?_
      simp only [List.mem_cons, List.not_mem_nil, or_false] at hmem
      rcases hmem with rfl | rfl
      · exact ⟨.resumeVad, by simp, rfl⟩
      · exact absurd rfl hother

/-- Steps of other threads that move the ASR out of the way only, or not at all. -/
theorem Settling.of_fields (h : s.Settling) (hvad : t.vad = s.vad) (hresets : t.resets = s.resets)
    (hfaulted : t.asr = .faulted →
      (s.asr = .faulted ∧ (.offlineAsr ∈ s.stops → .offlineAsr ∈ t.stops)) ∨ .offlineAsr ∈ t.stops)
    (hrecovering : t.asr = .recovering → s.asr = .recovering)
    (hraised : ∀ c ∈ t.raised, c ∈ s.raised ∨ c = .main ∨ c = .worker) : t.Settling where
  asrFaulted hasr := by
    rw [hresets]
    rcases hfaulted hasr with ⟨hbefore, hstops⟩ | hstop
    · exact (h.asrFaulted hbefore).imp_right hstops
    · exact .inr hstop
  asrRecovering hasr := by
    rw [hresets]
    exact h.asrRecovering (hrecovering hasr)
  vadRuns := by
    rw [hvad]
    exact h.vadRuns
  vadFaulted := by
    rw [hvad, hresets]
    exact h.vadFaulted
  vadRecovering := by
    rw [hvad, hresets]
    exact h.vadRecovering
  raised c hc := by
    rcases hraised c hc with hold | hnew
    · exact h.raised c hold
    · exact hnew

/-- An exception of the main thread or of a worker is allowed. -/
theorem raised_append {c new : Caller} {raised : List Caller} (h : c ∈ raised ++ [new])
    (hnew : new = .main ∨ new = .worker) : c ∈ raised ∨ c = .main ∨ c = .worker := by
  rcases List.mem_append.mp h with hold | hlast
  · exact .inl hold
  · rw [List.mem_singleton.mp hlast]
    exact .inr hnew

theorem Settling.stop (h : s.Settling) (op : StopOp) : (s.perform (.stop op)).Settling := by
  rw [perform_stop]
  refine h.of_fields rfl rfl ?_ ?_ fun c hc => .inl hc
  · intro hasr
    cases op with
    | releaseAsr =>
        -- A stop that leaves FAULTED behind goes on to OFFLINE.
        exact .inr (by simp [StopOp.next])
    | offlineAsr =>
        cases hbefore : s.asr with
        | _ => simp [asrStopped, SubsystemState.offlined, hbefore] at hasr
    | _ => exact .inl ⟨hasr, fun hmem => mem_advance hmem (by decide)⟩
  · intro hasr
    cases op with
    | releaseAsr =>
        cases hbefore : s.asr with
        | recovering => rfl
        | _ => simp [asrStopped, SubsystemState.released, hbefore] at hasr
    | offlineAsr =>
        cases hbefore : s.asr with
        | recovering => rfl
        | _ => simp [asrStopped, SubsystemState.offlined, hbefore] at hasr
    | _ => exact hasr

theorem Settling.start (h : s.Settling) (op : StartOp) : (s.perform (.start op)).Settling := by
  obtain ⟨asr, audio, main, entering, raised, hframe, hasr, hraised⟩ := perform_start_frame s op
  rw [hframe]
  have hmoved (state : SubsystemState) (hup : state = .faulted ∨ state = .recovering)
      (hat : asr = state) : s.asr = state := by
    rcases hasr with hsame | hbad | hbad
    · exact hsame.symm.trans hat
    · rw [hbad] at hat
      subst hat
      simp at hup
    · rw [hbad] at hat
      subst hat
      simp at hup
  refine h.of_fields rfl rfl (fun hat => .inl ⟨hmoved _ (.inl rfl) hat, id⟩)
    (hmoved _ (.inr rfl)) fun c hc => ?_
  rcases hraised with rfl | rfl
  · exact .inl hc
  · exact raised_append hc (.inl rfl)

theorem Settling.worker (h : s.Settling) : (s.perform .worker).Settling := by
  rw [perform_worker]
  split
  · exact h.of_fields rfl rfl (fun hasr => by cases hasr) (fun hasr => by cases hasr)
      fun c hc => .inl hc
  · exact h.of_fields rfl rfl (fun hasr => .inl ⟨hasr, id⟩) id
      fun c hc => raised_append hc (.inr rfl)

theorem Settling.event (h : s.Settling) {e : StreamerEvent} (hevent : s.event e = some t) :
    t.Settling := by
  cases e with
  | newReset =>
      cases hevent
      have hgrow {ops : List ResetOp} (hat : ResetAt s.resets ops) :
          ResetAt (s.resets ++ [.faultAsr]) ops := by
        obtain ⟨q, hq, hmem⟩ := hat
        exact ⟨q, hq, List.mem_append_left _ hmem⟩
      exact ⟨fun hasr => (h.asrFaulted hasr).imp_left hgrow,
        fun hasr => hgrow (h.asrRecovering hasr), h.vadRuns, fun hvad => hgrow (h.vadFaulted hvad),
        fun hvad => hgrow (h.vadRecovering hvad), h.raised⟩
  | newStop =>
      cases hevent
      exact h.of_fields rfl rfl
        (fun hasr => .inl ⟨hasr, fun hmem => List.mem_append_left _ hmem⟩) id fun c hc => .inl hc
  | micFails =>
      obtain ⟨-, ht⟩ := Option.ite_none_right_eq_some.mp hevent
      cases ht
      exact h.of_fields rfl rfl (fun hasr => .inl ⟨hasr, id⟩) id
        fun c hc => raised_append hc (.inl rfl)
  | _ =>
      obtain ⟨-, ht⟩ := Option.ite_none_right_eq_some.mp hevent
      cases ht
      exact h.of_fields rfl rfl (fun hasr => .inl ⟨hasr, id⟩) id fun c hc => .inl hc

theorem Settling.step (h : s.Settling) {l : StreamerEvent ⊕ Operation}
    (hstep : threads.atomic s l = some t) : t.Settling := by
  cases l with
  | inl e => exact h.event hstep
  | inr op =>
      obtain ⟨-, rfl⟩ := perform_of_atomic hstep
      cases op with
      | start op => exact h.start op
      | worker => exact h.worker
      | reset op => exact h.reset op
      | stop op => exact h.stop op

/-- Resets and stops do not raise, and a subsystem is on its way only while a thread is. -/
def Settled (s : Streamer) : Prop :=
  (∀ c ∈ s.raised, c = .main ∨ c = .worker) ∧
    (s.resets = [] → s.vad = .active ∧ s.asr ≠ .recovering ∧
      (s.asr = .faulted → .offlineAsr ∈ s.stops))

theorem Settling.settled (h : s.Settling) : s.Settled := by
  refine ⟨h.raised, fun hnone => ?_⟩
  have hnowhere : ∀ ops : List ResetOp, ¬ ResetAt s.resets ops := by
    rintro ops ⟨q, -, hmem⟩
    rw [hnone] at hmem
    cases hmem
  refine ⟨?_, fun hasr => hnowhere _ (h.asrRecovering hasr),
    fun hasr => (h.asrFaulted hasr).resolve_left (hnowhere _)⟩
  rcases h.vadRuns with hactive | hfaulted | hrecovering
  · exact hactive
  · exact absurd (h.vadFaulted hfaulted) (hnowhere _)
  · exact absurd (h.vadRecovering hrecovering) (hnowhere _)

/-- **Resets settle.**  In every interleaving of starts, worker threads, resets and stops in
which no thread writes a life cycle amid another's operation on it, no reset and no stop
ever raises, and whenever no reset is under way the VAD is ACTIVE and the ASR is not left
RECOVERING, nor FAULTED but by a stop, however many resets overlapped. -/
theorem resets_settle {labels : List (AccessLabel StreamerEvent Operation)}
    (huncrossed : MeetsAlong threads.interleaved threads.Uncrossed ⟨init, []⟩ labels) :
    Always threads.interleaved (fun s => s.core.Settled) ⟨init, []⟩ labels := by
  have hmeets : MeetsAlong threads.interleaved
      (fun s l => threads.Uncrossed s l ∧ ∀ a ∈ threads.completes s l, True) ⟨init, []⟩ labels :=
    meetsAlong_imp _ trivial (fun _ _ _ _ _ => trivial)
      (fun _ _ (_ : True) hl => ⟨hl, fun _ _ => trivial⟩) huncrossed
  exact SharedSystem.always_of_uncrossed threads_lawful settling_init (fun _ hs => hs.settled)
    (fun _ _ _ hs (_ : True) hst => hs.step hst) hmeets

/-- Three resets overlap and settle. -/
def overlappingResets : List (AccessLabel StreamerEvent Operation) :=
  [.event .start, .begin (.start .initAsr), .goOn 0, .begin (.start .readyAsr), .goOn 0,
    .begin .worker, .goOn 0, .goOn 0, .event .newReset, .event .newReset,
    -- One reset finds the ASR ACTIVE, the other FAULTED.
    .begin (.reset .faultAsr), .begin (.start .initAudio), .goOn 0, .goOn 1, .goOn 0,
    .begin (.reset .faultAsr), .begin (.reset .recoverAsr), .goOn 0, .goOn 0,
    .begin (.reset .recoverAsr), .begin (.reset .faultVad), .event .newReset,
    .begin (.reset .faultAsr), .goOn 0, .goOn 0, .begin (.reset .faultVad),
    .begin (.reset .recoverVad), .goOn 0, .goOn 0, .begin (.reset .recoverVad),
    -- The third reads RECOVERING amid the first one's way back to ACTIVE.
    .begin (.reset .resumeAsr), .begin (.reset .recoverAsr), .goOn 0, .goOn 0,
    .begin (.reset .resumeAsr), .begin (.reset .faultVad), .begin (.reset .recoverVad),
    .begin (.reset .resumeVad), .goOn 0, .goOn 0, .begin (.reset .resumeVad),
    .begin (.reset .resumeAsr), .begin (.reset .resumeVad)]

theorem overlappingResets_settle :
    (execute threads.interleaved ⟨init, []⟩ overlappingResets).map (fun s => s.core.resets) =
      some [] ∧
    Always threads.interleaved (fun s => s.core.Settled) ⟨init, []⟩ overlappingResets :=
  ⟨by decide +kernel, resets_settle (by decide +kernel)⟩

/-- A `shutdown` amid the first transition of a reset makes the reset raise. -/
example : (execute threads.interleaved ⟨init, []⟩
    [.event .start, .begin (.start .initAsr), .goOn 0, .begin (.start .readyAsr), .goOn 0,
      .begin .worker, .goOn 0, .goOn 0, .event .newReset, .event .newStop,
      .begin (.reset .faultAsr), .begin (.stop .testAsr), .begin (.stop .releaseAsr), .goOn 1,
      .goOn 1, .goOn 1, .begin (.stop .offlineAsr), .goOn 1, .goOn 1, .goOn 0]).map
        (fun s => (s.core.asr, s.core.raised)) = some (.offline, [.reset]) := by
  decide +kernel

end Streamer

end Audio
end AvaListener
