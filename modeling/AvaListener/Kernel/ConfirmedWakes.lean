import AvaListener.Kernel.CandidateSessions
import AvaListener.Kernel.WakeEvidence

/-!
# Wakes and their candidate sessions

FIRE closes the open candidate as confirmed.  The candidate stage has run before
it, and it looks at the raw confidence alone: with less than `0.50` of it a stale
candidate is dropped, and the EMA, kept high while the cooldown suppressed the
call, may still fire.  A wake then has no confirmed session, and its utterance
was counted as a false wake.

A firing call confirms its own session exactly when its raw confidence is at least
`0.50` or it finds a candidate updated within the last second.  The invariant
behind this is `EmaOnCandidate`: an EMA at the threshold speaks for the phrase of
the candidate.
-/

namespace AvaListener
namespace Kernel

open Library Config Matcher Audio Telemetry

namespace WakeEngine

variable (lib : TextLib)

/-! ## The sessions that a wake archives -/

/-- The sessions one call archives, oldest first. -/
def archivedBy (s : WakeEngine) (c : Call) : List CandidateSnapshot :=
  (s.onHypothesis lib c).1.telemetry.candidateSessions.drop s.telemetry.candidateSessions.length

/-- A wake for `p` comes with exactly one archived session of `p`, a confirmed
one. -/
def ConfirmsItsWake (s : WakeEngine) (c : Call) : Prop :=
  ∀ w ∈ wakeOf (s.onHypothesis lib c).2,
    ((s.archivedBy lib c).filter (·.phrase = w.phrase)).map (·.state) = [.confirmed]

/-- The confirmed sessions are the wakes, and no session is both a wake and a
false wake. -/
structure CountsAgree (s : WakeEngine) : Prop where
  confirmed : s.telemetry.candidateSessions.countP (·.state = .confirmed) = s.telemetry.wakeCount
  disjoint : s.telemetry.wakeCount + s.telemetry.falseWakeCount =
    s.telemetry.candidateSessions.length

/-- Throughout a run, every wake confirms its session and the counts agree. -/
structure WakesConfirmed (m : MatcherState) (inputs : List EngineInput) : Prop where
  each : ∀ past c, past ++ [.hypothesis c] <+: inputs →
    (finalState (WakeEngine.step lib) (init m) past).ConfirmsItsWake lib c
  counts : ∀ past, past <+: inputs →
    (finalState (WakeEngine.step lib) (init m) past).CountsAgree

/-- If the call fires, it has raw confidence for a candidate or finds one that is
not stale. -/
def tracksWake (s : WakeEngine) (c : Call) : Prop :=
  s.detectionPaused = false ∧ s.Triggers lib c →
    0.50 ≤ (s.observe lib c).rawConf ∨
      s.candidate.any (fun session => c.clock.now - session.lastUpdate ≤ 1) = true

instance (s : WakeEngine) (c : Call) : Decidable (s.tracksWake lib c) :=
  inferInstanceAs (Decidable (_ → _))

/-! ## The log under one call, by raw confidence -/

section OneCall

variable {lib} {s : WakeEngine} {c : Call}

/-- With enough raw confidence the call's phrase is the open candidate, and only a
candidate of another phrase was closed. -/
theorem Mirrored.lifecycleLog_of_high (h : s.Mirrored) (hpaused : s.detectionPaused = false)
    (hphrase : (s.observe lib c).result.phrase ≠ []) (hraw : 0.50 ≤ (s.observe lib c).rawConf) :
    (s.lifecycleLog lib c).active = some (s.observe lib c).result.phrase ∧
      ∃ replaced : List Text, (s.observe lib c).result.phrase ∉ replaced ∧
        (s.lifecycleLog lib c).closed =
          s.telemetry.candidateLog.closed ++ replaced.map fun p => (p, .dropped) := by
  unfold lifecycleLog
  by_cases hstarts : s.startsCandidate lib c
  · rw [if_pos hstarts]
    refine ⟨rfl, s.telemetry.candidateLog.active.toList, ?_, CandidateLog.start_closed _ _⟩
    rw [← h.candidate]
    simpa [Option.all_eq_true] using hstarts.2.2.2
  · have hdrops : ¬ s.dropsCandidate lib c := fun hdrops => hdrops.1 ⟨hphrase, hraw⟩
    have hsame : s.candidate.all (·.phrase ≠ (s.observe lib c).result.phrase) = false := by
      by_contra hother
      exact hstarts ⟨hpaused, hphrase, hraw, by simpa using hother⟩
    rw [if_neg hstarts, if_neg hdrops]
    refine ⟨?_, [], List.not_mem_nil, (List.append_nil _).symm⟩
    rw [← h.candidate]
    cases hcandidate : s.candidate with
    | none => simp [hcandidate] at hsame
    | some session => simpa [hcandidate] using hsame

/-- Without it, a stale candidate is dropped and any other is kept. -/
theorem lifecycleLog_of_low (hraw : ¬ 0.50 ≤ (s.observe lib c).rawConf) :
    s.lifecycleLog lib c =
      if s.candidate.any (fun session => 1 < c.clock.now - session.lastUpdate) then
        s.telemetry.candidateLog.close .dropped
      else s.telemetry.candidateLog := by
  have hstarts : ¬ s.startsCandidate lib c := fun hstarts => hraw hstarts.2.2.1
  have hdrops : s.dropsCandidate lib c ↔
      s.candidate.any (fun session => 1 < c.clock.now - session.lastUpdate) = true :=
    ⟨fun hdrops => hdrops.2, fun hstale => ⟨fun hhigh => hraw hhigh.2, hstale⟩⟩
  unfold lifecycleLog
  rw [if_neg hstarts]
  exact if_congr hdrops rfl rfl

theorem settled_callLog (h : s.telemetry.candidateLog.Settled) :
    (s.callLog lib c).Settled := by
  have hlifecycle : (s.lifecycleLog lib c).Settled := by
    unfold lifecycleLog
    split
    · exact h.start _
    · split
      · exact h.close (Or.inr rfl)
      · exact h
  unfold callLog
  split
  · exact h
  · split
    · exact hlifecycle.close (Or.inl rfl)
    · exact hlifecycle

end OneCall

/-! ## The EMA speaks for the candidate -/

/-- An EMA at the threshold belongs to the phrase of the candidate, if there is
one. -/
structure EmaOnCandidate (s : WakeEngine) : Prop where
  le_one : s.smoothConf ≤ 1
  same : defaultThreshold ≤ s.smoothConf →
    ∀ p ∈ s.telemetry.candidateLog.active, p = s.lastMatchedPhrase

section EmaOnCandidate

variable {lib} {s : WakeEngine} {c : Call}

/-- After the candidate stage, an EMA at the threshold speaks for the open
candidate. -/
theorem EmaOnCandidate.active_lifecycleLog (h : s.EmaOnCandidate) (hmirrored : s.Mirrored)
    (hpaused : s.detectionPaused = false)
    (hreach : defaultThreshold ≤ s.smoothedConf c (s.observe lib c)) :
    ∀ p ∈ (s.lifecycleLog lib c).active, p = (s.observe lib c).result.phrase := by
  have hphrase := phrase_ne_nil_of_threshold_le_smoothed lib s c h.le_one hreach
  by_cases hraw : 0.50 ≤ (s.observe lib c).rawConf
  · intro p hp
    rw [(hmirrored.lifecycleLog_of_high hpaused hphrase hraw).1] at hp
    exact (Option.some.inj hp).symm
  · rw [lifecycleLog_of_low hraw]
    split
    · simp
    · rcases raw_or_carried_of_threshold_le_smoothed lib s c hreach with
        hhigh | ⟨hcarried, -, hsame⟩
      · have hlow : (0.50 : ℚ) ≤ defaultThreshold := by norm_num [defaultThreshold]
        exact absurd (hlow.trans hhigh) hraw
      · have hlast : (s.observe lib c).result.phrase = s.lastMatchedPhrase := by
          simpa [phraseChanged, hphrase] using hsame
        rw [hlast]
        exact h.same hcarried

theorem EmaOnCandidate.onHypothesis (h : s.EmaOnCandidate) (hmirrored : s.Mirrored) (c : Call) :
    (s.onHypothesis lib c).1.EmaOnCandidate := by
  cases hpaused : s.detectionPaused with
  | true =>
      rw [onHypothesis_paused lib s c hpaused]
      exact h
  | false =>
      by_cases htriggers : s.Triggers lib c
      · rw [onHypothesis_fired lib s c hpaused htriggers]
        refine ⟨by simp, ?_⟩
        intro hreach
        rw [fire_smoothConf] at hreach
        exact absurd hreach (by norm_num [defaultThreshold])
      · rw [onHypothesis_quiet lib s c hpaused htriggers]
        refine ⟨smoothedConf_le_one lib s c h.le_one, ?_⟩
        intro hreach
        have hphrase := phrase_ne_nil_of_threshold_le_smoothed lib s c h.le_one hreach
        rw [lastMatchedPhrase_scored lib s c, if_neg hphrase]
        have hlog : (s.scored lib c).telemetry.candidateLog = s.lifecycleLog lib c :=
          (hmirrored.trackCandidate lib hpaused c).2
        rw [hlog]
        exact h.active_lifecycleLog hmirrored hpaused hreach

end EmaOnCandidate

/-! ## One firing call -/

section Firing

variable {lib} {s : WakeEngine} {c : Call}

/-- The archived sessions of one phrase, read off the log. -/
theorem Mirrored.archivedBy_states (h : s.Mirrored) (phrase : Text) :
    ((s.archivedBy lib c).filter (·.phrase = phrase)).map (·.state) =
      (((s.callLog lib c).closed.drop s.telemetry.candidateLog.closed.length).filter
        (·.1 = phrase)).map (·.2) := by
  have hlength : s.telemetry.candidateLog.closed.length =
      s.telemetry.candidateSessions.length := List.length_map _
  rw [← (h.onHypothesis lib c).2, hlength]
  rw [TelemetryCollector.candidateLog, ← List.map_drop, List.filter_map, List.map_map]
  rfl

/-- What a firing call adds to the archive, by what the candidate stage closed and
left open. -/
theorem Mirrored.archivedBy_firing (h : s.Mirrored) (hpaused : s.detectionPaused = false)
    (htriggers : s.Triggers lib c) {dropped : List Text}
    (hclosed : (s.lifecycleLog lib c).closed =
      s.telemetry.candidateLog.closed ++ dropped.map fun p => (p, .dropped)) (phrase : Text) :
    ((s.archivedBy lib c).filter (·.phrase = phrase)).map (·.state) =
      (dropped.filter (· = phrase)).map (fun _ => .dropped) ++
        ((s.lifecycleLog lib c).active.toList.filter (· = phrase)).map fun _ => .confirmed := by
  have hcall : (s.callLog lib c).closed = s.telemetry.candidateLog.closed ++
      (dropped.map (fun p => (p, .dropped)) ++
        (s.lifecycleLog lib c).active.toList.map fun p => (p, .confirmed)) := by
    unfold callLog
    rw [if_neg (by simp [hpaused]), if_pos htriggers, CandidateLog.close_closed, hclosed,
      List.append_assoc]
  rw [h.archivedBy_states, hcall, List.drop_left]
  simp [List.filter_map, List.map_map, Function.comp_def]

/-- With enough raw confidence a firing call confirms the session of its phrase. -/
theorem Mirrored.confirms_of_high (h : s.Mirrored) (hpaused : s.detectionPaused = false)
    (htriggers : s.Triggers lib c) (hraw : 0.50 ≤ (s.observe lib c).rawConf) :
    ((s.archivedBy lib c).filter (·.phrase = (s.observe lib c).result.phrase)).map (·.state) =
      [.confirmed] := by
  have hphrase : (s.observe lib c).result.phrase ≠ [] :=
    phrase_ne_nil_of_lt_rawConf lib s c (lt_of_lt_of_le (by norm_num) hraw)
  obtain ⟨hactive, replaced, hother, hclosed⟩ := h.lifecycleLog_of_high hpaused hphrase hraw
  have hnone : replaced.filter (· = (s.observe lib c).result.phrase) = [] := by
    refine List.filter_eq_nil_iff.mpr fun p hp heq => ?_
    exact hother (of_decide_eq_true heq ▸ hp)
  rw [h.archivedBy_firing hpaused htriggers hclosed, hactive, hnone]
  simp

/-- Without it, a call fired by the EMA confirms the session of its phrase exactly
when it finds a candidate that is not stale. -/
theorem EmaOnCandidate.confirms_of_low_iff (h : s.EmaOnCandidate) (hmirrored : s.Mirrored)
    (hpaused : s.detectionPaused = false) (htriggers : s.Triggers lib c)
    (hraw : ¬ 0.50 ≤ (s.observe lib c).rawConf)
    (hema : defaultThreshold ≤ s.smoothedConf c (s.observe lib c)) :
    ((s.archivedBy lib c).filter (·.phrase = (s.observe lib c).result.phrase)).map (·.state) =
        [.confirmed] ↔
      s.candidate.any (fun session => c.clock.now - session.lastUpdate ≤ 1) = true := by
  have hlow := lifecycleLog_of_low hraw
  have hkeeps (hkept : s.lifecycleLog lib c = s.telemetry.candidateLog) :
      (s.lifecycleLog lib c).closed = s.telemetry.candidateLog.closed ++
        ([] : List Text).map fun p => (p, .dropped) := by
    rw [hkept, List.map_nil, List.append_nil]
  cases hcandidate : s.candidate with
  | none =>
      have hnone : s.telemetry.candidateLog.active = none := by
        rw [← hmirrored.candidate, hcandidate, Option.map_none]
      have hkept : s.lifecycleLog lib c = s.telemetry.candidateLog := by
        rw [hlow, hcandidate, Option.any_none, if_neg Bool.false_ne_true]
      rw [hmirrored.archivedBy_firing hpaused htriggers (hkeeps hkept), hkept, hnone]
      simp
  | some session =>
      have hactive : s.telemetry.candidateLog.active = some session.phrase := by
        rw [← hmirrored.candidate, hcandidate, Option.map_some]
      rw [hcandidate, Option.any_some] at hlow
      rw [Option.any_some, decide_eq_true_eq]
      by_cases hstale : 1 < c.clock.now - session.lastUpdate
      · -- The session is dropped, and FIRE finds nothing to confirm.
        rw [if_pos (decide_eq_true hstale)] at hlow
        have hclosed : (s.lifecycleLog lib c).closed = s.telemetry.candidateLog.closed ++
            [session.phrase].map fun p => (p, .dropped) := by
          rw [hlow, CandidateLog.close_closed, hactive, Option.toList_some]
        rw [hmirrored.archivedBy_firing hpaused htriggers hclosed, hlow, CandidateLog.close_active]
        refine iff_of_false ?_ (not_le.mpr hstale)
        by_cases hsame : session.phrase = (s.observe lib c).result.phrase
        · simp [hsame]
        · simp [hsame]
      · rw [if_neg (by simpa using not_lt.mp hstale)] at hlow
        have hsame : session.phrase = (s.observe lib c).result.phrase :=
          h.active_lifecycleLog hmirrored hpaused hema session.phrase (by rw [hlow, hactive]; rfl)
        rw [hmirrored.archivedBy_firing hpaused htriggers (hkeeps hlow), hlow, hactive]
        exact iff_of_true (by simp [hsame]) (not_lt.mp hstale)

/-- **One call.**  It confirms its wake exactly when it tracks it. -/
theorem EmaOnCandidate.confirmsItsWake_iff (h : s.EmaOnCandidate) (hmirrored : s.Mirrored) :
    s.ConfirmsItsWake lib c ↔ s.tracksWake lib c := by
  by_cases hfires : s.detectionPaused = false ∧ s.Triggers lib c
  · obtain ⟨hpaused, htriggers⟩ := hfires
    have hwake : wakeOf (s.onHypothesis lib c).2 = some (s.wakeEvent lib c) :=
      (wakeOf_onHypothesis_eq_some_iff lib s c).mpr ⟨hpaused, htriggers, rfl⟩
    have hconfirms : s.ConfirmsItsWake lib c ↔
        ((s.archivedBy lib c).filter (·.phrase = (s.observe lib c).result.phrase)).map (·.state) =
          [.confirmed] := by
      unfold ConfirmsItsWake
      rw [hwake]
      exact ⟨fun h => h _ rfl, fun h w hw => Option.some.inj hw ▸ h⟩
    rw [hconfirms, tracksWake, imp_iff_right ⟨hpaused, htriggers⟩]
    by_cases hraw : 0.50 ≤ (s.observe lib c).rawConf
    · exact iff_of_true (hmirrored.confirms_of_high hpaused htriggers hraw) (Or.inl hraw)
    · rw [or_iff_right hraw]
      refine h.confirms_of_low_iff hmirrored hpaused htriggers hraw ?_
      -- The escape hatch needs a high raw confidence, so the EMA fired.
      rcases (confident_iff _ _ _).mp htriggers.1 with hescape | hema
      · have hhatch : (0.50 : ℚ) ≤ defaultThreshold + 0.08 := by norm_num [defaultThreshold]
        exact absurd (hhatch.trans hescape) hraw
      · exact hema
  · have hnone : wakeOf (s.onHypothesis lib c).2 = none := by
      cases hwake : wakeOf (s.onHypothesis lib c).2 with
      | none => rfl
      | some w =>
          obtain ⟨hpaused, htriggers, -⟩ := (wakeOf_onHypothesis_eq_some_iff lib s c).mp hwake
          exact absurd ⟨hpaused, htriggers⟩ hfires
    refine iff_of_true ?_ fun hfiring => absurd hfiring hfires
    intro w hw
    rw [hnone] at hw
    cases hw

/-- A firing call that tracks its wake leaves a candidate open for FIRE. -/
theorem Mirrored.isSome_active_lifecycleLog (h : s.Mirrored) (hpaused : s.detectionPaused = false)
    (hphrase : (s.observe lib c).result.phrase ≠ [])
    (htracks : 0.50 ≤ (s.observe lib c).rawConf ∨
      s.candidate.any (fun session => c.clock.now - session.lastUpdate ≤ 1) = true) :
    ∃ p, (s.lifecycleLog lib c).active = some p := by
  by_cases hraw : 0.50 ≤ (s.observe lib c).rawConf
  · exact ⟨_, (h.lifecycleLog_of_high hpaused hphrase hraw).1⟩
  · obtain ⟨session, hcandidate, hfresh⟩ :=
      (Option.any_eq_true _ _).mp (htracks.resolve_left hraw)
    have hkept : s.lifecycleLog lib c = s.telemetry.candidateLog := by
      rw [lifecycleLog_of_low hraw, hcandidate, Option.any_some, if_neg]
      simpa using hfresh
    refine ⟨session.phrase, ?_⟩
    rw [hkept, ← h.candidate, hcandidate, Option.map_some]

end Firing

/-! ## The counters of one call -/

section Counters

variable {lib} (s : WakeEngine) (c : Call)

theorem trackCandidate_wakeCount (o : Observation) :
    (s.trackCandidate lib c o).telemetry.wakeCount = s.telemetry.wakeCount := by
  unfold trackCandidate
  dsimp only
  split
  · split
    · exact TelemetryCollector.wakeCount_startCandidate _ _
    · unfold updateCandidate
      split
      · rfl
      · rfl
  · split
    · unfold dropCandidate
      split
      · rfl
      · exact TelemetryCollector.wakeCount_dropCandidate _
    · rfl

theorem fire_wakeCount (w : WakeEvent) :
    (s.fire c w).telemetry.wakeCount = s.telemetry.wakeCount + 1 := by
  unfold fire confirmCandidate
  dsimp only
  split
  · rfl
  · exact TelemetryCollector.wakeCount_confirmCandidate _

theorem closedAs_confirmed_lifecycleLog :
    (s.lifecycleLog lib c).closedAs .confirmed = s.telemetry.candidateLog.closedAs .confirmed := by
  have hdrop : (s.telemetry.candidateLog.close .dropped).closedAs .confirmed =
      s.telemetry.candidateLog.closedAs .confirmed :=
    CandidateLog.closedAs_close_of_ne _ _ (by decide)
  unfold lifecycleLog
  split
  · exact hdrop
  · split
    · exact hdrop
    · rfl

variable {s c}

/-- As many sessions are confirmed as wakes are registered, if every wake is
tracked. -/
theorem EmaOnCandidate.confirmed_callLog (h : s.EmaOnCandidate) (hmirrored : s.Mirrored)
    (htracks : s.tracksWake lib c)
    (hcount : s.telemetry.candidateLog.closedAs .confirmed = s.telemetry.wakeCount) :
    (s.callLog lib c).closedAs .confirmed = (s.onHypothesis lib c).1.telemetry.wakeCount := by
  have hlifecycle : (s.lifecycleLog lib c).closedAs .confirmed = s.telemetry.wakeCount :=
    (closedAs_confirmed_lifecycleLog s c).trans hcount
  have hscored : (s.scored lib c).telemetry.wakeCount = s.telemetry.wakeCount :=
    trackCandidate_wakeCount s c _
  unfold callLog
  cases hpaused : s.detectionPaused with
  | true =>
      rw [onHypothesis_paused lib s c hpaused]
      exact hcount
  | false =>
      by_cases htriggers : s.Triggers lib c
      · have hphrase := phrase_ne_nil_of_triggers lib s c h.le_one htriggers
        obtain ⟨p, hactive⟩ :=
          hmirrored.isSome_active_lifecycleLog hpaused hphrase (htracks ⟨hpaused, htriggers⟩)
        rw [onHypothesis_fired lib s c hpaused htriggers, fire_wakeCount, hscored, if_pos htriggers,
          if_neg Bool.false_ne_true, CandidateLog.closedAs_close_of_some _ _ _ _ hactive,
          hlifecycle, if_pos rfl]
      · rw [onHypothesis_quiet lib s c hpaused htriggers, if_neg htriggers,
          if_neg Bool.false_ne_true, hlifecycle]
        exact hscored.symm

end Counters

/-! ## Runs -/

/-- What every run keeps. -/
structure Tracked (s : WakeEngine) : Prop where
  mirrored : s.Mirrored
  ema : s.EmaOnCandidate
  settled : s.telemetry.candidateLog.Settled

variable {lib} in
theorem Tracked.step {s : WakeEngine} (h : s.Tracked) (input : EngineInput) :
    (s.step lib input).1.Tracked := by
  by_cases hcall : ∃ c, input = .hypothesis c
  · obtain ⟨c, rfl⟩ := hcall
    obtain ⟨hmirrored, hlog⟩ := h.mirrored.onHypothesis lib c
    refine ⟨hmirrored, h.ema.onHypothesis h.mirrored c, ?_⟩
    show (s.onHypothesis lib c).1.telemetry.candidateLog.Settled
    rw [hlog]
    exact settled_callLog h.settled
  · obtain ⟨m, hm⟩ := step_reconfigures lib s input (fun c heq => hcall ⟨c, heq⟩)
    rw [hm]
    exact ⟨⟨h.mirrored.candidate, h.mirrored.tallied⟩, ⟨h.ema.le_one, h.ema.same⟩, h.settled⟩

theorem tracked_run (m : MatcherState) (past : List EngineInput) :
    (finalState (WakeEngine.step lib) (init m) past).Tracked := by
  refine finalState_invariant _ Tracked past ⟨mirrored_init m, ⟨by simp [init], ?_⟩, ?_⟩
    fun s input _ hs => hs.step input
  · intro hreach
    exact absurd hreach (by norm_num [init, defaultThreshold])
  · intro x hx
    cases hx

/-- The counts follow from the invariant once the confirmed sessions are the
wakes. -/
theorem Tracked.countsAgree {s : WakeEngine} (h : s.Tracked)
    (hcount : s.telemetry.candidateLog.closedAs .confirmed = s.telemetry.wakeCount) :
    s.CountsAgree := by
  refine ⟨?_, ?_⟩
  · rw [← hcount]
    simp [CandidateLog.closedAs, TelemetryCollector.candidateLog, List.countP_map,
      Function.comp_def]
  · have hlength := h.settled.length_closed
    rw [hcount, ← show s.telemetry.falseWakeCount = _ from h.mirrored.tallied] at hlength
    rw [← hlength]
    exact List.length_map _

/-- **Wakes and confirmed sessions.**  In every run, all wakes confirm their own
sessions, with the counters in step throughout, exactly when every firing call
has raw confidence for a candidate or finds one that is not stale. -/
theorem wakesConfirmed_iff (m : MatcherState) (inputs : List EngineInput) :
    WakesConfirmed lib m inputs ↔
      ∀ past c, past ++ [.hypothesis c] <+: inputs →
        (finalState (WakeEngine.step lib) (init m) past).tracksWake lib c := by
  have heach (past : List EngineInput) (c : Call) :
      (finalState (WakeEngine.step lib) (init m) past).ConfirmsItsWake lib c ↔
        (finalState (WakeEngine.step lib) (init m) past).tracksWake lib c :=
    (tracked_run lib m past).ema.confirmsItsWake_iff (tracked_run lib m past).mirrored
  constructor
  · intro h past c hpast
    exact (heach past c).mp (h.each past c hpast)
  · intro htracks
    refine ⟨fun past c hpast => (heach past c).mpr (htracks past c hpast), ?_⟩
    intro past hpast
    refine (tracked_run lib m past).countsAgree ?_
    induction past using List.reverseRecOn with
    | nil => rfl
    | append_singleton past input ih =>
        have hcount := ih ((List.prefix_append past [input]).trans hpast)
        rw [finalState_append, finalState_cons, finalState_nil]
        by_cases hcall : ∃ c, input = .hypothesis c
        · obtain ⟨c, rfl⟩ := hcall
          have hrun := tracked_run lib m past
          have hlog := (hrun.mirrored.onHypothesis lib c).2
          show ((finalState (WakeEngine.step lib) (init m) past).onHypothesis
            lib c).1.telemetry.candidateLog.closedAs .confirmed = _
          rw [hlog]
          exact hrun.ema.confirmed_callLog hrun.mirrored (htracks past c hpast) hcount
        · obtain ⟨input', hm⟩ := step_reconfigures lib
            (finalState (WakeEngine.step lib) (init m) past) input
            (fun c heq => hcall ⟨c, heq⟩)
          rw [hm]
          exact hcount

/-- Two utterances of `hey assistant`, the second one during the cooldown of the
first; four seconds of silence later it goes on as `assistants could`. -/
def suppressedUtterance : List EngineInput :=
  [.loadProfile AsciiText.customWakePhrases,
    .hypothesis (.still "hey assistant".toList 2 1 10),
    .hypothesis (.still "hey assistant".toList 2 2 10.5),
    .hypothesis (.still "hey assistant".toList 2 2 10.6),
    .hypothesis (.still "hey assistant".toList 2 2 10.7),
    .hypothesis (.still "hey assistant".toList 2 2 10.8),
    .hypothesis (.still "assistants could".toList 0 2 15)]

/-- Two wakes, one confirmed session: the session of the second utterance is
dropped by the call that wakes for it. -/
theorem wakesConfirmed_fails :
    ¬ WakesConfirmed AsciiText.lib .empty suppressedUtterance := by
  intro h
  have hcounts := (h.counts _ (List.prefix_refl _)).confirmed
  revert hcounts
  decide +kernel

end WakeEngine

end Kernel
end AvaListener
