import AvaListener.Supervision.RestartRate

/-!
# After `stop`

`Supervisor.stop` sets the stop event and asks the worker to end.  The monitor reads
the event at the head of an iteration only, so an action it was waiting to take is
still taken.  After that one action the loop takes no other, and a worker that the
action respawned is left to itself.
-/

namespace AvaListener
namespace Supervision

open Library

namespace Supervisor

/-- The monitor is on its way to an action that spawns a worker. -/
def respawnDue (s : Supervisor) : Bool :=
  match s.phase with
  | .backoff .workerRestart _ | .backoff .providerReload _ | .backoff .runtimeRestart _ => true
  | .terminating => true
  | _ => false

/-- Everything a step can do once the stop event is set. -/
inductive StoppedStep (s t : Supervisor) : Label → Prop where
  | workerExits (phase : t.phase = s.phase) : StoppedStep s t .workerExits
  | heartbeat (now : ℚ) (phase : t.phase = s.phase) (worker : t.workerProc = s.workerProc) :
      StoppedStep s t (.heartbeat now)
  | stop (phase : t.phase = s.phase) (worker : t.workerProc = s.workerProc) :
      StoppedStep s t .stop
  | finish (now : ℚ) (idle : s.phase = .idle) (phase : t.phase = .finished)
      (worker : t.workerProc = s.workerProc) : StoppedStep s t (.iterate now)
  /-- The action under way, with or without a new worker. -/
  | act (l : Label) (busy : s.phase ≠ .idle ∧ s.phase ≠ .finished) (later : ∀ now, l ≠ .iterate now)
      (phase : t.phase = .idle)
      (spawns : s.respawnAt l ≠ none → s.respawnDue = true ∧ t.workerProc = some .running) :
      StoppedStep s t l

variable {s t : Supervisor}

theorem stopped_recoveryAction (checked recorded beat : ℚ) (popen : Bool) (step : RecoveryStep)
    (h : s.stopped = true) :
    (s.recoveryAction checked recorded beat popen step).stopped = true := by
  cases step with
  | workerRestart =>
      exact (handleWorkerExit_frame s checked recorded beat popen).2.1.trans h
  | providerReload =>
      exact (handleWorkerExit_frame s checked recorded beat popen).2.1.trans h
  | runtimeRestart =>
      obtain ⟨-, -, hstopped, -⟩ := spawnWorker_frame
        { s with recoveryPolicy := s.recoveryPolicy.reset, restartPolicy := .default } beat popen
      exact hstopped.trans h
  | degradedMode => rfl
  | fatal => exact h

/-- An action that respawns the worker leaves it running. -/
theorem workerProc_recoveryAction {checked recorded beat wakeAt : ℚ} {popen : Bool}
    {step : RecoveryStep} (hphase : s.phase = .backoff step wakeAt)
    (h : s.respawnAt (.act checked recorded beat popen) ≠ none) :
    s.respawnDue = true ∧
      (s.recoveryAction checked recorded beat popen step).workerProc = some .running := by
  have hhandle (hrestarts : (s.restartPolicy.canRestart checked).1 = true ∧ popen = true) :
      (s.handleWorkerExit checked recorded beat popen).workerProc = some .running := by
    unfold handleWorkerExit
    simp only [if_pos hrestarts.1, workerProc_spawnWorker, if_pos hrestarts.2]
  simp only [respawnAt, hphase] at h
  simp only [respawnDue, hphase]
  cases step with
  | workerRestart => exact ⟨rfl, hhandle (by_contra fun hno => h (if_neg hno))⟩
  | providerReload => exact ⟨rfl, hhandle (by_contra fun hno => h (if_neg hno))⟩
  | runtimeRestart =>
      have hpopen : popen = true := by_contra fun hno => h (if_neg hno)
      refine ⟨rfl, ?_⟩
      show (actionRuntimeRestart s beat popen).workerProc = _
      rw [actionRuntimeRestart, workerProc_spawnWorker, if_pos hpopen]
  | degradedMode => exact absurd rfl h
  | fatal => exact absurd rfl h

theorem stoppedStep_of_step {l : Label} (hstopped : s.stopped = true) (h : s.step l = some t) :
    t.stopped = true ∧ StoppedStep s t l := by
  cases l with
  | workerExits =>
      simp only [step] at h
      split at h
      · cases h
        exact ⟨hstopped, .workerExits rfl⟩
      · cases h
  | heartbeat now =>
      simp only [step] at h
      split at h
      · cases h
        exact ⟨hstopped, .heartbeat now rfl rfl⟩
      · cases h
  | stop =>
      cases h
      exact ⟨rfl, .stop rfl rfl⟩
  | iterate now =>
      simp only [step] at h
      split at h
      next henabled =>
        have hfinish : ({ s with clock := now }.iteration now) =
            { s with clock := now, phase := .finished } := by
          simp [iteration, hstopped]
        rw [hfinish] at h
        cases h
        exact ⟨hstopped, .finish now henabled.1 rfl rfl⟩
      · cases h
  | act checked recorded beat popen =>
      simp only [step] at h
      split at h
      next step wakeAt hphase =>
        split at h
        · cases h
          have hbusy : s.phase ≠ .idle ∧ s.phase ≠ .finished := by simp [hphase]
          exact ⟨stopped_recoveryAction checked recorded beat popen step hstopped,
            .act _ hbusy (by simp) rfl (workerProc_recoveryAction hphase)⟩
        · cases h
      · cases h
  | respawn terminated recorded beat popen =>
      simp only [step] at h
      split at h
      next henabled =>
        cases h
        have hbusy : s.phase ≠ .idle ∧ s.phase ≠ .finished := by simp [henabled.1]
        have hframe := restartWorker_frame s recorded beat terminated popen
        refine ⟨hframe.2.1.trans hstopped, .act _ hbusy (by simp) rfl fun hspawns => ?_⟩
        have hpopen : popen = true := by
          by_contra hno
          exact hspawns (if_neg hno)
        refine ⟨by simp [respawnDue, henabled.1], ?_⟩
        show (s.restartWorker terminated recorded beat popen).workerProc = some .running
        rw [restartWorker, workerProc_spawnWorker, if_pos hpopen]
      · cases h

/-! ## Runs -/

theorem respawns_cons {l : Label} (h : s.step l = some t) (rest : List Label) :
    respawns s (l :: rest) = (s.respawnAt l).toList ++ respawns t rest := by
  simp only [respawns, h]

/-- What a stopped supervisor can still do by the end of a schedule. -/
structure WindsDown (s : Supervisor) (labels : List Label) (t : Supervisor) : Prop where
  stopped : t.stopped = true
  few : (respawns s labels).length ≤ if s.respawnDue then 1 else 0
  /-- Once the loop has read the event it is over. -/
  finished : s.phase = .finished ∨ (∃ now, .iterate now ∈ labels) → t.phase = .finished
  /-- The respawned worker ends by itself or not at all. -/
  left : respawns s labels ≠ [] → .workerExits ∉ labels → t.workerProc = some .running
  kept : s.phase = .idle ∨ s.phase = .finished → .workerExits ∉ labels →
    t.workerProc = s.workerProc

theorem windsDown_of_execute {labels : List Label} {u : Supervisor} (hstopped : s.stopped = true)
    (hrun : execute step s labels = some u) : WindsDown s labels u := by
  induction labels generalizing s with
  | nil =>
      obtain rfl := Option.some.inj hrun
      exact ⟨hstopped, Nat.zero_le _, fun h => h.elim id (by simp), fun h => absurd rfl h,
        fun _ _ => rfl⟩
  | cons l rest ih =>
      obtain ⟨t, hst, hrest⟩ := execute_cons_eq_some step hrun
      obtain ⟨htstopped, hstep⟩ := stoppedStep_of_step hstopped hst
      have h := ih htstopped hrest
      -- A step that spawns nothing and keeps the phase passes everything on.
      have hpass (hphase : t.phase = s.phase) (hnone : s.respawnAt l = none)
          (hl : ∀ now, l ≠ .iterate now) (hworker : l ≠ .workerExits →
            t.workerProc = s.workerProc) : WindsDown s (l :: rest) u := by
        have hdue : t.respawnDue = s.respawnDue := by rw [respawnDue, respawnDue, hphase]
        have hsame : respawns s (l :: rest) = respawns t rest := by
          rw [respawns_cons hst, hnone, Option.toList_none, List.nil_append]
        refine ⟨h.stopped, ?_, ?_, ?_, ?_⟩
        · rw [hsame, ← hdue]
          exact h.few
        · rw [← hphase]
          rintro (hfinished | ⟨now, hmem⟩)
          · exact h.finished (.inl hfinished)
          · rcases List.mem_cons.mp hmem with heq | htail
            · exact absurd heq.symm (hl now)
            · exact h.finished (.inr ⟨now, htail⟩)
        · rw [hsame]
          exact fun hne hmem => h.left hne fun hin => hmem (List.mem_cons_of_mem _ hin)
        · intro hquiet hmem
          rw [← hphase] at hquiet
          have hne : l ≠ .workerExits := fun heq => hmem (heq ▸ List.mem_cons_self ..)
          rw [h.kept hquiet fun hin => hmem (List.mem_cons_of_mem _ hin), hworker hne]
      cases hstep with
      | workerExits hphase => exact hpass hphase rfl (by simp) (fun hne => absurd rfl hne)
      | heartbeat now hphase hworker => exact hpass hphase rfl (by simp) fun _ => hworker
      | stop hphase hworker => exact hpass hphase rfl (by simp) fun _ => hworker
      | finish now hidle hphase hworker =>
          have hnone : respawns s (.iterate now :: rest) = [] := by
            have hzero : (respawns t rest).length ≤ 0 := by
              have hle := h.few
              rw [respawnDue, hphase] at hle
              exact hle
            rw [respawns_cons hst, List.length_eq_zero_iff.mp (Nat.le_zero.mp hzero)]
            rfl
          refine ⟨h.stopped, ?_, fun _ => h.finished (.inl hphase), ?_, ?_⟩
          · rw [hnone]
            exact Nat.zero_le _
          · rw [hnone]
            exact fun hne => absurd rfl hne
          · intro _ hmem
            rw [h.kept (.inr hphase) fun hin => hmem (List.mem_cons_of_mem _ hin), hworker]
      | act _ hbusy hlater hphase hspawns =>
          have hrest : respawns t rest = [] := by
            have hle := h.few
            rw [respawnDue, hphase] at hle
            exact List.length_eq_zero_iff.mp (Nat.le_zero.mp hle)
          have hsame : respawns s (l :: rest) = (s.respawnAt l).toList := by
            rw [respawns_cons hst, hrest, List.append_nil]
          refine ⟨h.stopped, ?_, ?_, ?_, ?_⟩
          · rw [hsame]
            cases hat : s.respawnAt l with
            | none => exact Nat.zero_le _
            | some at' =>
                rw [if_pos (hspawns (by simp [hat])).1]
                exact le_rfl
          · rintro (hfinished | ⟨now, hmem⟩)
            · exact absurd hfinished hbusy.2
            · rcases List.mem_cons.mp hmem with heq | htail
              · exact absurd heq.symm (hlater now)
              · exact h.finished (.inr ⟨now, htail⟩)
          · rw [hsame]
            intro hne hmem
            have hat : s.respawnAt l ≠ none := fun hnone => hne (by rw [hnone]; rfl)
            rw [h.kept (.inl hphase) fun hin => hmem (List.mem_cons_of_mem _ hin)]
            exact (hspawns hat).2
          · rintro (hidle | hfinished)
            · exact absurd hidle hbusy.1
            · exact absurd hfinished hbusy.2

/-! ## The action under way -/

/-- A policy that admits any restart admits one late enough. -/
theorem exists_canRestart {p : RestartPolicy} (hlimit : 0 < p.maxRestarts) (start : ℚ) :
    ∃ now, start ≤ now ∧ (p.canRestart now).1 = true := by
  have hbound : ∀ (age : ℚ) (stamps : List ℚ), ∃ b, start ≤ b ∧ ∀ stamp ∈ stamps,
      age < b - stamp := by
    intro age stamps
    induction stamps with
    | nil => exact ⟨start, le_rfl, by simp⟩
    | cons stamp rest ih =>
        obtain ⟨b, hstart, hrest⟩ := ih
        refine ⟨max b (age + stamp + 1), hstart.trans (le_max_left _ _), ?_⟩
        intro other hother
        rcases List.mem_cons.mp hother with rfl | hin
        · have hle := le_max_right b (age + other + 1)
          linarith
        · have hold := hrest other hin
          have hle := le_max_left b (age + stamp + 1)
          linarith
  -- An age of more than twice the window is beyond it when it has been rounded.
  obtain ⟨now, hstart, hold⟩ := hbound (max 0 (2 * binary64 p.windowS)) p.timestamps
  refine ⟨now, hstart, ?_⟩
  have hpruned : (p.prune now).timestamps = [] := by
    refine List.dropWhile_eq_nil_iff.mpr fun stamp hin => decide_eq_true ?_
    obtain ⟨hpositive, hbeyond⟩ := max_lt_iff.mp (hold stamp hin)
    have hround := lt_two_mul_binary64 hpositive
    linarith
  simp only [RestartPolicy.canRestart, hpruned, List.length_nil, Nat.cast_zero, hlimit, decide_true]

/-- **When a stopped supervisor still spawns a worker.** -/
theorem exists_respawn_after_stop_iff (hlimit : 0 < s.restartPolicy.maxRestarts) :
    (∃ after, respawns s (.stop :: after) ≠ []) ↔ s.respawnDue = true := by
  have hstop : s.step .stop = some s.stop := rfl
  have hdue : s.stop.respawnDue = s.respawnDue := rfl
  constructor
  · rintro ⟨after, hne⟩
    by_contra hnot
    rw [respawns_cons hstop] at hne
    -- Whatever part of the schedule is run, it has no respawn.
    have hnone : ∀ (labels : List Label) (u : Supervisor), u.stopped = true →
        u.respawnDue = false → respawns u labels = [] := by
      intro labels
      induction labels with
      | nil => exact fun _ _ _ => rfl
      | cons l rest ih =>
          intro u hu hdue
          cases hst : u.step l with
          | none => simp [respawns, hst]
          | some v =>
              obtain ⟨hv, hstep⟩ := stoppedStep_of_step hu hst
              have hat : u.respawnAt l = none ∧ v.respawnDue = false := by
                cases hstep with
                | workerExits hphase => exact ⟨rfl, by rw [← hdue, respawnDue, respawnDue, hphase]⟩
                | heartbeat now hphase =>
                    exact ⟨rfl, by rw [← hdue, respawnDue, respawnDue, hphase]⟩
                | stop hphase => exact ⟨rfl, by rw [← hdue, respawnDue, respawnDue, hphase]⟩
                | finish now _ hphase => exact ⟨rfl, by rw [respawnDue, hphase]⟩
                | act _ _ _ hphase hspawns =>
                    refine ⟨by_contra fun hne => ?_, by rw [respawnDue, hphase]⟩
                    rw [(hspawns hne).1] at hdue
                    cases hdue
              rw [respawns_cons hst, hat.1, ih v hv hat.2]
              rfl
    exact hne (by rw [hnone after s.stop rfl (by simpa [hdue] using hnot)]; rfl)
  · intro hrespawn
    cases hphase : s.phase with
    | idle => simp [respawnDue, hphase] at hrespawn
    | finished => simp [respawnDue, hphase] at hrespawn
    | terminating =>
        have hst : s.stop.step (.respawn true s.clock s.clock true) ≠ none := by
          simp [step, stop, hphase]
        obtain ⟨t, ht⟩ := Option.ne_none_iff_exists'.mp hst
        refine ⟨[.respawn true s.clock s.clock true], ?_⟩
        rw [respawns_cons hstop, respawns_cons ht]
        simp [respawnAt]
    | backoff action wakeAt =>
        obtain ⟨now, hstart, hadmitted⟩ := exists_canRestart hlimit (max s.clock wakeAt)
        have hst : s.stop.step (.act now now now true) ≠ none := by
          simp [step, stop, hphase, (le_max_left _ _).trans hstart, (le_max_right _ _).trans hstart]
        obtain ⟨t, ht⟩ := Option.ne_none_iff_exists'.mp hst
        refine ⟨[.act now now now true], ?_⟩
        rw [respawns_cons hstop, respawns_cons ht]
        cases action with
        | workerRestart => simp [respawnAt, stop, hphase, hadmitted]
        | providerReload => simp [respawnAt, stop, hphase, hadmitted]
        | runtimeRestart => simp [respawnAt, stop, hphase]
        | degradedMode => simp [respawnDue, hphase] at hrespawn
        | fatal => simp [respawnDue, hphase] at hrespawn

/-- The monitor waits to restart a worker that exited. -/
def inBackoff : Supervisor :=
  (execute step (init ⟨.create 3 60, 12, 0⟩) [.workerExits, .iterate 1]).getD
    (init ⟨.create 3 60, 12, 0⟩)

end Supervisor

end Supervision
end AvaListener
