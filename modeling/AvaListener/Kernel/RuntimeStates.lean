import AvaListener.Kernel.CandidateSessions
import AvaListener.Matcher.AsciiText

/-!
# What the runtime state says

`WakeEngine.start` puts the state machine to LISTENING, and only the candidate life
cycle and FIRE move it afterwards.  So at every point between calls the state shows
the last thing that happened to a candidate: it was started, it was dropped, or a
wake fired.  COOLDOWN in particular is not left when the cooldown ends, but when the
next candidate starts.
-/

namespace AvaListener
namespace Kernel

open Library Config Matcher Audio Telemetry

/-- What can happen to the candidate in one call, seen from outside. -/
inductive Mark where
  | started
  | dropped
  | woke
  deriving DecidableEq, Repr

/-- The state that shows the last mark. -/
def RuntimeState.showing : Option Mark → RuntimeState
  | none => .listening
  | some .started => .candidateTracking
  | some .dropped => .listening
  | some .woke => .cooldown

namespace WakeEngine

variable (lib : TextLib)

/-- The engine when `start` hands over to the streamer. -/
def started (m : MatcherState) : WakeEngine :=
  { init m with stateMachine := RuntimeEvent.start.target }

/-- The mark a call leaves; a wake comes after what the candidate stage did. -/
def callMark (s : WakeEngine) (c : Call) : Option Mark :=
  if s.detectionPaused then none
  else if s.Triggers lib c then some .woke
  else if s.startsCandidate lib c then some .started
  else if s.dropsCandidate lib c then some .dropped
  else none

def inputMark (v : WakeEngine × EngineInput) : Option Mark :=
  match v.2 with
  | .hypothesis c => v.1.callMark lib c
  | .reconfigure _ => none
  | .loadProfile _ => none

/-- The last mark of a run. -/
def lastMark (s : WakeEngine) (inputs : List EngineInput) : Option Mark :=
  ((visits (WakeEngine.step lib) s inputs).filterMap (inputMark lib)).getLast?

/-- The state machine shows `last`, and there is a candidate exactly if it was just started. -/
structure Shows (s : WakeEngine) (last : Option Mark) : Prop where
  state : s.stateMachine = .showing last
  candidate : s.candidate.isSome = true ↔ last = some .started

variable {s : WakeEngine} {last : Option Mark}

/-! ## One call -/

/-- The candidate stage. -/
theorem Shows.trackCandidate (h : s.Shows last) (hpaused : s.detectionPaused = false) (c : Call) :
    (s.trackCandidate lib c (s.observe lib c)).Shows
      (if s.startsCandidate lib c then some .started
        else if s.dropsCandidate lib c then some .dropped else last) := by
  unfold WakeEngine.trackCandidate
  by_cases hphrase : (s.observe lib c).result.phrase ≠ [] ∧ 0.50 ≤ (s.observe lib c).rawConf
  · rw [if_pos hphrase]
    by_cases hother : s.candidate.all (·.phrase ≠ (s.observe lib c).result.phrase) = true
    · have hstarts : s.startsCandidate lib c := ⟨hpaused, hphrase.1, hphrase.2, hother⟩
      rw [if_pos hother, if_pos hstarts]
      exact ⟨rfl, iff_of_true rfl rfl⟩
    · have hstarts : ¬ s.startsCandidate lib c := fun hstarts => hother hstarts.2.2.2
      have hdrops : ¬ s.dropsCandidate lib c := fun hdrops => hdrops.1 hphrase
      rw [if_neg hother, if_neg hstarts, if_neg hdrops]
      -- The candidate is of the same phrase, so there is one to update.
      cases hcandidate : s.candidate with
      | none => exact absurd (by simp [hcandidate]) hother
      | some session =>
          have hlast : last = some .started := h.candidate.mp (by simp [hcandidate])
          simp only [WakeEngine.updateCandidate, hlast]
          exact ⟨rfl, iff_of_true rfl rfl⟩
  · have hstarts : ¬ s.startsCandidate lib c := fun hstarts =>
      hphrase ⟨hstarts.2.1, hstarts.2.2.1⟩
    rw [if_neg hphrase, if_neg hstarts]
    by_cases hstale : s.candidate.any (fun session => 1 < c.clock.now - session.lastUpdate) = true
    · rw [if_pos hstale, if_pos (show s.dropsCandidate lib c from ⟨hphrase, hstale⟩)]
      cases hcandidate : s.candidate with
      | none => simp [hcandidate] at hstale
      | some session =>
          simp only [WakeEngine.dropCandidate]
          exact ⟨rfl, by simp⟩
    · have hdrops : ¬ s.dropsCandidate lib c := fun hdrops => hstale hdrops.2
      rw [if_neg hstale, if_neg hdrops]
      exact ⟨h.state, h.candidate⟩

/-- FIRE leaves no candidate, whether there was one or not. -/
theorem shows_fire (s : WakeEngine) (c : Call) (w : WakeEvent) :
    (s.fire c w).Shows (some .woke) := by
  refine ⟨rfl, ?_⟩
  have hnone : (s.fire c w).candidate = none := by
    unfold fire confirmCandidate
    dsimp only
    split
    next hcandidate => exact hcandidate
    · rfl
  simp [hnone]

/-- **One call** moves the display to its mark. -/
theorem Shows.onHypothesis (h : s.Shows last) (c : Call) :
    (s.onHypothesis lib c).1.Shows ((s.callMark lib c).or last) := by
  unfold callMark
  cases hpaused : s.detectionPaused with
  | true =>
      rw [onHypothesis_paused lib s c hpaused]
      exact h
  | false =>
      rw [if_neg Bool.false_ne_true]
      by_cases htriggers : s.Triggers lib c
      · rw [onHypothesis_fired lib s c hpaused htriggers, if_pos htriggers]
        exact shows_fire _ _ _
      · have htracked := h.trackCandidate lib hpaused c
        rw [onHypothesis_quiet lib s c hpaused htriggers, if_neg htriggers]
        have hlast : ((if s.startsCandidate lib c then some Mark.started
            else if s.dropsCandidate lib c then some .dropped else none).or last) =
            if s.startsCandidate lib c then some .started
            else if s.dropsCandidate lib c then some .dropped else last := by
          split
          · rfl
          · split
            · rfl
            · rfl
        rw [hlast]
        exact ⟨htracked.state, htracked.candidate⟩

theorem Shows.step (h : s.Shows last) (input : EngineInput) :
    (s.step lib input).1.Shows ((inputMark lib (s, input)).or last) := by
  by_cases hcall : ∃ c, input = .hypothesis c
  · obtain ⟨c, rfl⟩ := hcall
    exact h.onHypothesis lib c
  · obtain ⟨m, hm⟩ := step_reconfigures lib s input (fun c heq => hcall ⟨c, heq⟩)
    have hmark : inputMark lib (s, input) = none := by
      cases input with
      | hypothesis c => exact absurd ⟨c, rfl⟩ hcall
      | reconfigure m => rfl
      | loadProfile wakePhrases => rfl
    rw [hm, hmark]
    exact ⟨h.state, h.candidate⟩

/-! ## Runs -/

theorem lastMark_append (s : WakeEngine) (past : List EngineInput) (input : EngineInput) :
    s.lastMark lib (past ++ [input]) =
      (inputMark lib (finalState (WakeEngine.step lib) s past, input)).or (s.lastMark lib past) := by
  simp only [lastMark, visits_append, List.filterMap_append, visits_cons, visits_nil]
  cases hmark : inputMark lib (finalState (WakeEngine.step lib) s past, input) with
  | none => simp [hmark]
  | some mark => simp [hmark]

/-- **The runtime state is the last mark.**  At every point between calls of every run of a
started engine, the state machine shows the last candidate event of the run, and an open
candidate is there exactly while the state is CANDIDATE_TRACKING; WAKE_CONFIRMED is
never seen, and the state is COOLDOWN exactly when nothing was started since the last wake. -/
theorem runtime_state_shows_last (m : MatcherState) (past : List EngineInput) :
    let s := finalState (WakeEngine.step lib) (started m) past
    s.stateMachine = .showing ((started m).lastMark lib past) ∧
      (s.candidate.isSome = true ↔ s.stateMachine = .candidateTracking) ∧
      s.stateMachine ≠ .wakeConfirmed ∧
      (s.stateMachine = .cooldown ↔ (started m).lastMark lib past = some .woke) := by
  have h : (finalState (WakeEngine.step lib) (started m) past).Shows
      ((started m).lastMark lib past) := by
    refine history_invariant (WakeEngine.step lib)
      (fun past s => s.Shows ((started m).lastMark lib past)) ⟨rfl, by simp [started, init, lastMark]⟩
      ?_ past
    intro past input hpast
    rw [lastMark_append]
    exact hpast.step lib input
  have hdisplay : ∀ last : Option Mark,
      (last = some .started ↔ RuntimeState.showing last = .candidateTracking) ∧
        RuntimeState.showing last ≠ .wakeConfirmed ∧
        (RuntimeState.showing last = .cooldown ↔ last = some .woke) := by
    intro last
    rcases last with _ | _ | _ | _
    all_goals decide
  obtain ⟨htracking, hconfirmed, hcooldown⟩ := hdisplay ((started m).lastMark lib past)
  dsimp only
  rw [h.state]
  exact ⟨rfl, h.candidate.trans htracking, hconfirmed, hcooldown⟩

/-- The state is still COOLDOWN a minute after the wake. -/
example : (finalState (WakeEngine.step AsciiText.lib) (started .empty)
    [.loadProfile AsciiText.customWakePhrases, .hypothesis (.still "hey assistant".toList 2 1 10),
      .hypothesis (.still "well".toList 0 2 71)]).stateMachine = .cooldown := by
  decide +kernel

end WakeEngine

end Kernel
end AvaListener
