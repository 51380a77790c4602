import Mathlib.Tactic.Ring
import AvaListener.Library.Runs
import AvaListener.Vad.HybridVAD

/-!
# The counters of the detector

With a Silero session every chunk leaves the cascade through one exit.  Each exit counts
the chunk once, but for one: a chunk that the prefilter rejects is counted as dropped, and
counted again as passed when its energy overrules the rejection.
-/

namespace AvaListener
namespace Vad

open Library HybridVAD

variable {F Detector Session Tensor : Type} [FloatOps F]

inductive Counter where
  | webrtcDropped
  | sileroDropped
  | speechPassed
  deriving DecidableEq

namespace VadStats

omit [FloatOps F] in
def count (stats : VadStats F) : Counter → ℕ
  | .webrtcDropped => stats.webrtcDropped
  | .sileroDropped => stats.sileroDropped
  | .speechPassed => stats.speechPassed

/-- `total_vad` of the engine's metrics. -/
def total (stats : VadStats F) : ℕ :=
  stats.webrtcDropped + stats.sileroDropped + stats.speechPassed

/-- `pass_rate` of the engine's metrics, in percent. -/
def passRate (stats : VadStats F) : ℚ :=
  if stats.total > 0 then stats.speechPassed / stats.total * 100 else 0

end VadStats

section Calls

variable (lib : VadLib F Detector Session Tensor)

/-- A call, with what `process_chunk` answers. -/
def call (v : HybridVAD F Detector Session Tensor) :
    VadCall F → HybridVAD F Detector Session Tensor × Option (Except VadError (VadResult F))
  | .processChunk chunk => ((v.processChunk lib chunk).2, some (v.processChunk lib chunk).1)
  | .resetState => (v.resetState lib, none)

/-- The results of the chunks that were processed. -/
def results (v : HybridVAD F Detector Session Tensor) (calls : List (VadCall F)) :
    List (VadResult F) :=
  (trace (call lib) v calls).filterMap fun a => a.2.bind Except.toOption

/-- The prefilter rejects the chunk, and its energy passes it. -/
def overruled (v : HybridVAD F Detector Session Tensor) : VadCall F → Bool
  | .processChunk chunk =>
      !chunk.isEmpty && !silent lib chunk && !v.webrtcSpeech lib chunk && v.energetic lib chunk
  | .resetState => false

/-- A call from `v` to `w` increments exactly one counter, and the one for speech exactly
when the chunk passes. -/
structure CountsOnce (v w : HybridVAD F Detector Session Tensor) (pass : Bool) : Prop where
  one : ∃ c, ∀ d, w.stats.count d = v.stats.count d + if d = c then 1 else 0
  speech : v.stats.speechPassed < w.stats.speechPassed ↔ pass = true

/-- What the counters of a whole run are to say. -/
structure CountersAccurate (sess : Session) (calls : List (VadCall F)) : Prop where
  each : ∀ visit ∈ visits (call lib) (HybridVAD.init lib (some sess)) calls, ∀ chunk result w,
    visit.2 = .processChunk chunk → visit.1.processChunk lib chunk = (.ok result, w) →
      CountsOnce visit.1 w result.pass
  total : (finalState (call lib) (HybridVAD.init lib (some sess)) calls).stats.total =
    (results lib (HybridVAD.init lib (some sess)) calls).length
  rate : (finalState (call lib) (HybridVAD.init lib (some sess)) calls).stats.passRate =
    if 0 < (results lib (HybridVAD.init lib (some sess)) calls).length then
      ((results lib (HybridVAD.init lib (some sess)) calls).countP VadResult.pass : ℚ) /
        (results lib (HybridVAD.init lib (some sess)) calls).length * 100
    else 0

end Calls

variable {lib : VadLib F Detector Session Tensor} {v w : HybridVAD F Detector Session Tensor}
  {chunk : List F}

/-! ## One chunk -/

variable (lib) in
/-- **What a chunk is counted as.** -/
theorem processChunk_adds (h : v.Initialised) (hne : chunk ≠ []) :
    ∃ result w dropped, v.processChunk lib chunk = (.ok result, w) ∧ w.Initialised ∧
      Adds v w dropped.toNat (!dropped && !result.pass).toNat result.pass.toNat ∧
        (dropped && result.pass) = overruled lib v (.processChunk chunk) := by
  have hempty : chunk.isEmpty = false := by simpa using hne
  cases hsilent : silent lib chunk with
  | true =>
      obtain ⟨result, hcall, hpass⟩ := processChunk_of_silent (v := v) hne hsilent
      refine ⟨result, _, true, hcall, ?_, ?_, ?_⟩
      · exact ⟨h.sess, h.sr, h.buffer, h.state, h.context, h.frames⟩
      · rw [hpass]
        exact ⟨rfl, rfl, rfl⟩
      · simp [overruled, hempty, hsilent, hpass]
  | false =>
      cases hspeech : v.webrtcSpeech lib chunk with
      | false =>
          -- The one exit that can count twice: dropped first, then passed by its energy.
          obtain ⟨result, w, hcall, hpass, -, -, hinit, hadds⟩ :=
            processChunk_of_rejected hne hsilent h.buffer hspeech
          refine ⟨result, w, true, hcall, hinit h, ?_, ?_⟩
          · rw [hpass]
            exact hadds
          · simp [overruled, hempty, hsilent, hspeech, hpass]
      | true =>
          obtain ⟨result, w, hcall, hw, -, hadds⟩ :=
            processChunk_of_accepted hne hsilent hspeech h
          refine ⟨result, w, false, hcall, hw, hadds, ?_⟩
          simp [overruled, hspeech]

omit [FloatOps F] in
/-- A chunk is counted once unless it is both dropped and passed. -/
theorem countsOnce_iff {dropped pass : Bool}
    (h : Adds v w dropped.toNat (!dropped && !pass).toNat pass.toNat) :
    CountsOnce v w pass ↔ (dropped && pass) = false := by
  constructor
  · rintro ⟨⟨c, hc⟩, -⟩
    -- The two counters in question cannot both be the one that is incremented.
    have hdropped := (hc .webrtcDropped).symm.trans h.webrtc
    have hpassed := (hc .speechPassed).symm.trans h.speech
    cases dropped <;> cases pass <;> cases c <;>
      simp [VadStats.count] at hdropped hpassed ⊢
  · intro hnot
    refine ⟨?_, ?_⟩
    · refine ⟨if pass then .speechPassed else if dropped then .webrtcDropped else .sileroDropped,
        fun d => ?_⟩
      cases dropped <;> cases pass <;> cases d <;>
        simp_all [VadStats.count, h.webrtc, h.silero, h.speech]
    · rw [h.speech]
      cases pass <;> simp

/-! ## Runs -/

theorem results_cons (v : HybridVAD F Detector Session Tensor) (l : VadCall F)
    (rest : List (VadCall F)) :
    results lib v (l :: rest) =
      ((call lib v l).2.bind Except.toOption).toList ++ results lib (call lib v l).1 rest := by
  rw [results, trace_cons, List.filterMap_cons]
  cases (call lib v l).2.bind Except.toOption <;> rfl

variable (lib) in
/-- One call of a run, on the totals. -/
theorem call_adds (h : v.Initialised) (l : VadCall F) :
    (call lib v l).1.Initialised ∧
      (call lib v l).1.stats.speechPassed = v.stats.speechPassed +
        ((call lib v l).2.bind Except.toOption).toList.countP VadResult.pass ∧
      (call lib v l).1.stats.total = v.stats.total +
        ((call lib v l).2.bind Except.toOption).toList.length + (overruled lib v l).toNat := by
  cases l with
  | resetState =>
      refine ⟨initialised_resetState h.sess h.sr, ?_, ?_⟩
      · simp [call]
      · simp [call, overruled]
  | processChunk chunk =>
      by_cases hne : chunk = []
      · subst hne
        exact ⟨h, rfl, rfl⟩
      · obtain ⟨result, w, dropped, hcall, hw, hadds, hboth⟩ :=
          processChunk_adds lib h hne
        have hanswer : call lib v (.processChunk chunk) = (w, some (.ok result)) := by
          simp only [call, hcall]
        rw [hanswer, ← hboth]
        refine ⟨hw, ?_, ?_⟩
        · rw [hadds.speech]
          cases hpass : result.pass <;> simp [Except.toOption, hpass]
        · simp only [VadStats.total, hadds.webrtc, hadds.silero, hadds.speech, Option.bind_some,
            Except.toOption, Option.toList_some, List.length_singleton]
          cases dropped <;> cases result.pass <;> simp <;> omega

variable (lib) in
/-- **The totals of a run**: each chunk is counted once, and once more if it is overruled. -/
theorem totals_of_initialised (h : v.Initialised) (calls : List (VadCall F)) :
    (finalState (call lib) v calls).stats.speechPassed =
        v.stats.speechPassed + (results lib v calls).countP VadResult.pass ∧
      (finalState (call lib) v calls).stats.total = v.stats.total + (results lib v calls).length +
        (visits (call lib) v calls).countP fun visit => overruled lib visit.1 visit.2 := by
  induction calls generalizing v with
  | nil => exact ⟨rfl, rfl⟩
  | cons l rest ih =>
      obtain ⟨hw, hspeech, htotal⟩ := call_adds lib h l
      obtain ⟨hrestSpeech, hrestTotal⟩ := ih hw
      rw [finalState_cons, results_cons, visits_cons, List.countP_append, List.length_append,
        List.countP_cons]
      constructor
      · omega
      · cases hover : overruled lib v l <;> simp [hover] at htotal ⊢ <;> omega

/-- Every state of a run that starts with a session is fully set up. -/
theorem initialised_of_visit (sess : Session) (calls : List (VadCall F)) :
    ∀ visit ∈ visits (call lib) (HybridVAD.init lib (some sess)) calls, visit.1.Initialised :=
  fun visit hvisit => (visits_invariant (call lib) HybridVAD.Initialised calls
    (initialised_init sess) (fun _ l _ h => (call_adds lib h l).1) visit hvisit).1

theorem stats_init (sess : Session) : (HybridVAD.init lib (some sess)).stats = ⟨0, 0, 0, []⟩ := by
  simp only [HybridVAD.init, resetState_frame.2.2.1]

/-- **Exactly when the counters are accurate**: no chunk is overruled. -/
theorem countersAccurate_iff (lib : VadLib F Detector Session Tensor) (sess : Session)
    (calls : List (VadCall F)) :
    CountersAccurate lib sess calls ↔
      ∀ visit ∈ visits (call lib) (HybridVAD.init lib (some sess)) calls,
        overruled lib visit.1 visit.2 = false := by
  constructor
  · rintro h ⟨v, l⟩ hvisit
    have hv := initialised_of_visit sess calls _ hvisit
    cases l with
    | resetState => rfl
    | processChunk chunk =>
        by_cases hne : chunk = []
        · simp [overruled, hne]
        · obtain ⟨result, w, dropped, hcall, -, hadds, hboth⟩ := processChunk_adds lib hv hne
          have honce := h.each _ hvisit chunk result w rfl hcall
          exact hboth.symm.trans ((countsOnce_iff hadds).mp honce)
  · intro hnone
    obtain ⟨hspeech, htotal⟩ := totals_of_initialised lib (initialised_init sess) calls
    have hcount : ((visits (call lib) (HybridVAD.init lib (some sess)) calls).countP
        fun visit => overruled lib visit.1 visit.2) = 0 := by
      rw [List.countP_eq_zero]
      intro visit hvisit
      simp [hnone visit hvisit]
    have hzero : (⟨0, 0, 0, []⟩ : VadStats F).total = 0 := rfl
    rw [hcount, stats_init, hzero, Nat.add_zero, Nat.zero_add] at htotal
    rw [stats_init, Nat.zero_add] at hspeech
    refine ⟨?_, htotal, ?_⟩
    · rintro ⟨v, l⟩ hvisit chunk result w rfl hanswer
      have hv := initialised_of_visit sess calls _ hvisit
      have hne : chunk ≠ [] := by
        rintro rfl
        cases hanswer
      obtain ⟨result', w', dropped, hcall, -, hadds, hboth⟩ := processChunk_adds lib hv hne
      obtain ⟨hresult, rfl⟩ := Prod.mk.inj (hcall.symm.trans hanswer)
      obtain rfl := Except.ok.inj hresult
      exact (countsOnce_iff hadds).mpr (hboth.trans (hnone _ hvisit))
    · rw [VadStats.passRate, htotal, hspeech]

/-- One full-scale chunk that the prefilter rejects is counted twice. -/
theorem counters_fail :
    (finalState (call (fullScale false)) (HybridVAD.init (fullScale false) (some ()))
        [.processChunk [1]]).stats = ⟨1, 0, 1, []⟩ ∧
      ¬ CountersAccurate (fullScale false) () [.processChunk [1]] := by
  have hrun : (finalState (call (fullScale false)) (HybridVAD.init (fullScale false) (some ()))
      [.processChunk [1]]).stats = ⟨1, 0, 1, []⟩ := by
    decide +kernel
  refine ⟨hrun, fun h => ?_⟩
  have htotal := h.total
  rw [hrun] at htotal
  have hone : (results (fullScale false) (HybridVAD.init (fullScale false) (some ()))
      [.processChunk [1]]).length = 1 := by
    decide +kernel
  rw [hone] at htotal
  cases htotal

end Vad
end AvaListener
