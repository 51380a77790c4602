import AvaListener.Kernel.WakeLog

/-!
# Cooldowns of single phrases

Each registered phrase carries a `cooldown_ms`, documented as the minimum time
between its consecutive wakes.  The firing path reads none of them: its only
timer is the one `CooldownGate`, with `COOLDOWN_SECONDS` for all phrases.  So a
phrase is held to its own cooldown as far as the common timer covers it.
-/

namespace AvaListener
namespace Kernel

open Library Config Matcher Audio

/-- A wake, with the registry it was emitted under. -/
structure Firing where
  wake : WakeEvent
  registry : PhraseRegistry

namespace Firing

/-- Two wakes are every cooldown configured for the second one's phrase apart. -/
def Cooled (a b : Firing) : Prop :=
  ∀ cfg ∈ b.registry.getAll, cfg.phrase = b.wake.phrase →
    a.wake.markedAt + cfg.cooldownMs / 1000 ≤ b.wake.markedAt

instance : DecidableRel Cooled := fun a b =>
  inferInstanceAs (Decidable (∀ cfg ∈ b.registry.getAll, cfg.phrase = b.wake.phrase →
    a.wake.markedAt + cfg.cooldownMs / 1000 ≤ b.wake.markedAt))

end Firing

namespace WakeEngine

open Firing

variable (lib : TextLib)

/-- The wakes of a run, each with its registry, in order. -/
def firings (s : WakeEngine) (inputs : List EngineInput) : List Firing :=
  (visits (step lib) s inputs).filterMap fun v =>
    (wakeOf (v.1.step lib v.2).2).map fun w => ⟨w, v.1.matcher.registry⟩

theorem firings_cons (s : WakeEngine) (input : EngineInput) (rest : List EngineInput) :
    s.firings lib (input :: rest) =
      ((wakeOf (s.step lib input).2).map fun w => ⟨w, s.matcher.registry⟩).toList ++
        (s.step lib input).1.firings lib rest := by
  cases hwake : wakeOf (s.step lib input).2 with
  | none => simp [firings, hwake]
  | some w => simp [firings, hwake]

/-- The wakes of phrase `p`. -/
def firingsOf (s : WakeEngine) (inputs : List EngineInput) (p : Text) : List Firing :=
  (s.firings lib inputs).filter (·.wake.phrase = p)

/-- Without the registries the firings are the wake log. -/
theorem firings_wakes (s : WakeEngine) (inputs : List EngineInput) :
    (s.firings lib inputs).map (·.wake) = s.wakeLog lib inputs := by
  induction inputs generalizing s with
  | nil => rfl
  | cons input rest ih =>
      rw [firings_cons, wakeLog_cons, List.map_append, ih]
      cases wakeOf (s.step lib input).2 with
      | none => rfl
      | some w => rfl

/-- Any two wakes are the common cooldown apart, whatever their phrases. -/
theorem firings_spaced (s : WakeEngine) (inputs : List EngineInput) :
    (s.firings lib inputs).Pairwise fun a b =>
      a.wake.markedAt + cooldownSeconds ≤ b.wake.markedAt := by
  have hspaced := (wakeLog_spaced lib s inputs).2
  rw [← firings_wakes, List.pairwise_map] at hspaced
  exact hspaced

/-- The registry of a firing is one that the run has visited. -/
theorem exists_visit_of_mem_firings {s : WakeEngine} {inputs : List EngineInput} {b : Firing}
    (hb : b ∈ s.firings lib inputs) :
    ∃ v ∈ visits (step lib) s inputs, v.1.matcher.registry = b.registry := by
  obtain ⟨v, hv, hfired⟩ := List.mem_filterMap.mp hb
  obtain ⟨w, -, rfl⟩ := Option.map_eq_some_iff.mp hfired
  exact ⟨v, hv, rfl⟩

/-- In a run that only meets registries whose cooldowns for `p` are at most
`COOLDOWN_SECONDS`, any two wakes of `p` are cooled: the common timer has held
the second one back for that long. -/
theorem firingsOf_cooled (p : Text) (s : WakeEngine) (inputs : List EngineInput)
    (hshort : ∀ v ∈ visits (step lib) s inputs, ∀ cfg ∈ v.1.matcher.registry.getAll,
      cfg.phrase = p → cfg.cooldownMs ≤ 2000) :
    (s.firingsOf lib inputs p).Pairwise Cooled := by
  have hspaced : (s.firingsOf lib inputs p).Pairwise fun a b =>
      a.wake.markedAt + cooldownSeconds ≤ b.wake.markedAt :=
    (firings_spaced lib s inputs).sublist List.filter_sublist
  refine hspaced.imp_of_mem ?_
  intro a b _ hb hapart cfg hcfg hphrase
  obtain ⟨hmem, hof⟩ := List.mem_filter.mp hb
  obtain ⟨v, hv, hregistry⟩ := exists_visit_of_mem_firings lib hmem
  have hof' : b.wake.phrase = p := by simpa using hof
  have hle := hshort v hv cfg (by rw [hregistry]; exact hcfg) (hphrase.trans hof')
  have hle' : (cfg.cooldownMs : ℚ) ≤ 2000 := by exact_mod_cast hle
  have hseconds : cooldownSeconds = 2 := by norm_num [cooldownSeconds]
  rw [hseconds] at hapart
  linarith

/-! ## A hypothesis that wakes twice -/

/-- What is pushed at a clock that stands still is kept. -/
theorem purge_still (t : ℚ) (text : Text) (stability : ℕ) :
    (⟨[⟨t, text, stability⟩]⟩ : HypothesisBuffer).purge t = ⟨[⟨t, text, stability⟩]⟩ := by
  have hfresh : HypothesisBuffer.stale t ⟨t, text, stability⟩ = false := by
    have hpos : (0 : ℚ) ≤ windowSeconds := by norm_num [windowSeconds]
    simp [HypothesisBuffer.stale, hpos]
  simp [HypothesisBuffer.purge, hfresh]

/-- A still call that finds no buffered hypothesis and no hits scores its own
text. -/
theorem observe_still {s : WakeEngine} (hbuffer : s.buffer = .empty) (hhits : s.hitCount = 0)
    (text : Text) (stability generation : ℕ) (t : ℚ) :
    (s.observe lib (.still text stability generation t)).result =
        bestMatch lib s.matcher [⟨text, min stability stabilityCap⟩] ∧
      (s.observe lib (.still text stability generation t)).rawConf =
        computeConfidence
          (bestMatch lib s.matcher [⟨text, min stability stabilityCap⟩]).score 1
          (if 0.50 < (bestMatch lib s.matcher [⟨text, min stability stabilityCap⟩]).score then 1
            else 0) := by
  have hpush : HypothesisBuffer.empty.push t t text (min stability stabilityCap) =
      ⟨[⟨t, text, min stability stabilityCap⟩]⟩ := by
    simp [HypothesisBuffer.push, HypothesisBuffer.empty, HypothesisBuffer.kept, purge_still]
  have hwindow : (⟨[⟨t, text, min stability stabilityCap⟩]⟩ : HypothesisBuffer).window =
      [⟨text, min stability stabilityCap⟩] := rfl
  simp [observe, Call.still, CallClock.still, hbuffer, hhits, hpush, purge_still, hwindow]

/-- A still call of a new generation triggers from any such engine whose cooldown
is over, if it triggers from one. -/
theorem triggers_still {s t : WakeEngine} (hmatcher : t.matcher = s.matcher)
    (hs : s.buffer = .empty ∧ s.hitCount = 0) (ht : t.buffer = .empty ∧ t.hitCount = 0)
    {text : Text} {stability g : ℕ} {now : ℚ} (h : ℕ) (later : ℚ)
    (hnewS : s.newGeneration (.still text stability g now) = true)
    (hnewT : t.newGeneration (.still text stability h later) = true)
    (hfresh : (h : ℤ) ≠ t.lastTriggerGeneration)
    (hcool : t.cooldown.canTrigger later = true)
    (htriggers : s.Triggers lib (.still text stability g now)) :
    t.Triggers lib (.still text stability h later) ∧
      (t.observe lib (.still text stability h later)).result.phrase =
        (s.observe lib (.still text stability g now)).result.phrase := by
  obtain ⟨hresultS, hrawS⟩ := observe_still lib hs.1 hs.2 text stability g now
  obtain ⟨hresultT, hrawT⟩ := observe_still lib ht.1 ht.2 text stability h later
  rw [hmatcher] at hresultT hrawT
  have hresult := hresultT.trans hresultS.symm
  have hraw := hrawT.trans hrawS.symm
  -- A new generation starts its EMA from zero, whatever phrase came last.
  have hsmooth : t.smoothedConf (.still text stability h later)
        (t.observe lib (.still text stability h later)) =
      s.smoothedConf (.still text stability g now)
        (s.observe lib (.still text stability g now)) := by
    simp only [smoothedConf, hnewS, hnewT, true_or, if_true, hraw]
  refine ⟨⟨?_, hfresh, hcool⟩, by rw [hresult]⟩
  rw [hsmooth, hresult, hraw]
  exact htriggers.1

/-- A still call from the new engine fires for `p`. -/
def WakesAtOnce (m : MatcherState) (p text : Text) (stability : ℕ) : Prop :=
  (init m).Triggers lib (.still text stability 1 2) ∧
    ((init m).observe lib (.still text stability 1 2)).result.phrase = p

/-- The same hypothesis in two generations, two seconds apart. -/
def saidTwice (text : Text) (stability : ℕ) : List Call :=
  [.still text stability 1 2, .still text stability 2 4]

/-- After a wake at once, the second generation wakes the same way. -/
theorem WakesAtOnce.twice {m : MatcherState} {p text : Text} {stability : ℕ}
    (h : WakesAtOnce lib m p text stability) :
    ∃ v w : WakeEvent, v.markedAt = 2 ∧ w.markedAt = 4 ∧ w.phrase = p ∧
      (init m).firingsOf lib ((saidTwice text stability).map .hypothesis) p =
        [⟨v, m.registry⟩, ⟨w, m.registry⟩] := by
  obtain ⟨htriggers, hphrase⟩ := h
  have hfirst := onHypothesis_fired lib (init m) (.still text stability 1 2) rfl htriggers
  generalize hnext : ((init m).scored lib (.still text stability 1 2)).fire
    (.still text stability 1 2) ((init m).wakeEvent lib (.still text stability 1 2)) = s at hfirst
  have hmatcher : s.matcher = m := by
    rw [← hnext, fire_matcher, scored_matcher]
    rfl
  have hpaused : s.detectionPaused = false := by
    rw [← hnext, fire_detectionPaused, scored_detectionPaused]
    rfl
  have hseen : s.lastSeenGeneration = 1 := by
    rw [← hnext, fire_lastSeenGeneration, scored_lastSeenGeneration]
    rfl
  have hlast : s.lastTriggerGeneration = 1 := by
    rw [← hnext, fire_lastTriggerGeneration]
    rfl
  have hcooldown : s.cooldown = ⟨2⟩ := by
    rw [← hnext, fire_cooldown]
    rfl
  have hclear : s.buffer = .empty ∧ s.hitCount = 0 := by
    rw [← hnext]
    exact ⟨fire_buffer _ _ _, fire_hitCount _ _ _⟩
  have hnew : s.newGeneration (.still text stability 2 4) = true := by
    simp [newGeneration, hseen, Call.still]
  have hfresh : ((2 : ℕ) : ℤ) ≠ s.lastTriggerGeneration := by
    rw [hlast]
    decide
  have hcool : s.cooldown.canTrigger 4 = true := by
    rw [hcooldown]
    decide +kernel
  obtain ⟨hagain, hsame⟩ := triggers_still lib (s := init m) (t := s) hmatcher ⟨rfl, rfl⟩ hclear
    2 4 rfl hnew hfresh hcool htriggers
  have hsecond := onHypothesis_fired lib s (.still text stability 2 4) hpaused hagain
  refine ⟨(init m).wakeEvent lib (.still text stability 1 2),
    s.wakeEvent lib (.still text stability 2 4), rfl, rfl, hsame.trans hphrase, ?_⟩
  have hstep : (init m).step lib (.hypothesis (.still text stability 1 2)) = _ := hfirst
  have hstep' : s.step lib (.hypothesis (.still text stability 2 4)) = _ := hsecond
  have hlog : (init m).firings lib ((saidTwice text stability).map .hypothesis) =
      [⟨(init m).wakeEvent lib (.still text stability 1 2), m.registry⟩,
        ⟨s.wakeEvent lib (.still text stability 2 4), m.registry⟩] := by
    rw [saidTwice, List.map_cons, List.map_singleton, firings_cons, hstep, firings_cons, hstep',
      hmatcher]
    rfl
  rw [firingsOf, hlog]
  have hv : ((init m).wakeEvent lib (.still text stability 1 2)).phrase = p := hphrase
  have hw : (s.wakeEvent lib (.still text stability 2 4)).phrase = p := hsame.trans hphrase
  simp [hv, hw]

/-- A phrase that some hypothesis wakes at once and that is cooled in every ordered
run has no cooldown beyond `COOLDOWN_SECONDS`: it can be said twice in that time. -/
theorem WakesAtOnce.cooldownMs_le {m : MatcherState} {p text : Text} {stability : ℕ}
    (h : WakesAtOnce lib m p text stability)
    (hruns : ∀ calls : List Call, (calls.Pairwise fun a b => a.clock.marked ≤ b.clock.t0) →
      ((init m).firingsOf lib (calls.map .hypothesis) p).IsChain Cooled) :
    ∀ cfg ∈ m.registry.getAll, cfg.phrase = p → cfg.cooldownMs ≤ 2000 := by
  intro cfg hmem hcfg
  obtain ⟨v, w, hv, hw, hphrase, hlog⟩ := h.twice
  have hordered : (saidTwice text stability).Pairwise
      fun a b => a.clock.marked ≤ b.clock.t0 := by
    refine List.pairwise_pair.mpr ?_
    show (2 : ℚ) ≤ 4
    norm_num
  have hchain := hruns (saidTwice text stability) hordered
  rw [hlog] at hchain
  have hcooled := (List.isChain_cons_cons.mp hchain).1 cfg hmem (hcfg.trans hphrase.symm)
  simp only [hv, hw] at hcooled
  have hle : (cfg.cooldownMs : ℚ) ≤ 2000 := by linarith
  exact_mod_cast hle

/-- Hypotheses leave the registry alone, so that a run of them visits only the one
it starts with. -/
theorem visits_hypotheses_registry (m : MatcherState) (calls : List Call) :
    ∀ v ∈ visits (step lib) (init m) (calls.map .hypothesis),
      v.1.matcher.registry = m.registry := by
  intro v hv
  have hmatcher := (visits_invariant (step lib) (fun s : WakeEngine => s.matcher = m)
    (calls.map .hypothesis) rfl ?_ v hv).1
  · rw [hmatcher]
  · intro s input hinput hs
    obtain ⟨c, -, rfl⟩ := List.mem_map.mp hinput
    exact (onHypothesis_keeps lib s c).1.trans hs

/-- **The cooldowns that hold.**  In every run, over all hypotheses, profile loads,
registry changes and clock readings, consecutive wakes of a phrase are its
configured cooldown apart as long as no registry of the run configures more than
`COOLDOWN_SECONDS` for it.  No longer cooldown holds: where some hypothesis wakes
the phrase at once, the runs of calls on a clock that does not go back all respect
its cooldown exactly when that is at most `COOLDOWN_SECONDS`. -/
theorem phrase_cooldown_holds (m : MatcherState) (p : Text) :
    (∀ inputs : List EngineInput,
      (∀ v ∈ visits (step lib) (init m) inputs, ∀ cfg ∈ v.1.matcher.registry.getAll,
        cfg.phrase = p → cfg.cooldownMs ≤ 2000) →
      ((init m).firingsOf lib inputs p).IsChain Cooled) ∧
    ∀ (text : Text) (stability : ℕ), WakesAtOnce lib m p text stability →
      ((∀ calls : List Call, (calls.Pairwise fun a b => a.clock.marked ≤ b.clock.t0) →
          ((init m).firingsOf lib (calls.map .hypothesis) p).IsChain Cooled) ↔
        ∀ cfg ∈ m.registry.getAll, cfg.phrase = p → cfg.cooldownMs ≤ 2000) := by
  refine ⟨fun inputs hshort => (firingsOf_cooled lib p (init m) inputs hshort).isChain, ?_⟩
  intro text stability honce
  refine ⟨honce.cooldownMs_le lib, ?_⟩
  intro hle calls _
  refine (firingsOf_cooled lib p (init m) (calls.map .hypothesis) ?_).isChain
  intro v hv
  rw [visits_hypotheses_registry lib m calls v hv]
  exact hle

/-- `profiles/custom.json` with another cooldown. -/
def customCooled (cooldownMs : ℤ) : List PhraseEntry :=
  AsciiText.customWakePhrases.map fun entry => { entry with cooldownMs := cooldownMs }

/-- The registry and index after it. -/
def cooledMatcher (cooldownMs : ℤ) : MatcherState :=
  match MatcherState.empty.loadPhrases AsciiText.lib (customCooled cooldownMs) with
  | .ok m => m
  | .error _ => .empty

/-- Two utterances three seconds apart, after the profile is loaded. -/
def threeSecondsApart (cooldownMs : ℤ) : List EngineInput :=
  [.loadProfile (customCooled cooldownMs),
    .hypothesis (.still "hey assistant".toList 3 1 10),
    .hypothesis (.still "hey assistant".toList 3 2 13)]

/-- A cooldown of two seconds holds in this run; with one of five seconds in the
registry some ordered run breaks it. -/
theorem twoSeconds_hold :
    ((init .empty).firingsOf AsciiText.lib (threeSecondsApart 2000)
        "hey assistant".toList).IsChain Cooled ∧
      ¬ ∀ calls : List Call, (calls.Pairwise fun a b => a.clock.marked ≤ b.clock.t0) →
        ((init (cooledMatcher 5000)).firingsOf AsciiText.lib (calls.map .hypothesis)
          "hey assistant".toList).IsChain Cooled := by
  refine ⟨(phrase_cooldown_holds AsciiText.lib .empty "hey assistant".toList).1
    (threeSecondsApart 2000) (by decide +kernel), ?_⟩
  rw [(phrase_cooldown_holds AsciiText.lib (cooledMatcher 5000) "hey assistant".toList).2
    "hey assistant".toList 3 (by unfold WakesAtOnce; decide +kernel)]
  decide +kernel

/-- A configured cooldown of five seconds does not hold the second wake back. -/
theorem fiveSeconds_not_cooled :
    ((init .empty).firingsOf AsciiText.lib (threeSecondsApart 5000)
        "hey assistant".toList).map (·.wake.markedAt) = [10, 13] ∧
      ¬ ((init .empty).firingsOf AsciiText.lib (threeSecondsApart 5000)
        "hey assistant".toList).IsChain Cooled := by
  constructor
  · decide +kernel
  · decide +kernel

end WakeEngine

end Kernel
end AvaListener
