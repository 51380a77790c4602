import AvaListener.Library.Reblocking
import AvaListener.Vad.ChunkCounters

/-!
# The segments that the verifier hears

The microphone's blocks have 1600 samples and Silero's segments 512, so `process_chunk`
cuts its chunks anew: what does not fill a segment waits in the buffer, and the last 64
samples of a segment stand before the next.

Since the verifier was last reset, by `reset_state` or by a chunk that the prefilter
rejects, its segments are those of one pass over the samples accepted, wherever the chunks
were cut.
-/

namespace AvaListener
namespace Vad

open Library HybridVAD

variable {F Detector Session Tensor : Type} [FloatOps F]

/-- Silero on one long recording. -/
def verifier (lib : VadLib F Detector Session Tensor) (sess : Session) :
    BlockReader F F Tensor where
  size := segmentSamples
  size_pos := by decide
  lead := List.replicate contextSamples 0.0
  initial := lib.zeroState
  read input state := lib.run sess input state sampleRate

/-- The detector, and the samples it has accepted since the last reset. -/
structure Listening (F Detector Session Tensor : Type) where
  vad : HybridVAD F Detector Session Tensor
  accepted : List F

namespace Listening

variable (lib : VadLib F Detector Session Tensor)

def start (sess : Session) : Listening F Detector Session Tensor :=
  ⟨HybridVAD.init lib (some sess), []⟩

/-- The samples accepted after a call. -/
def hears (s : Listening F Detector Session Tensor) : VadCall F → List F
  | .processChunk chunk =>
      if chunk.isEmpty || silent lib chunk then s.accepted
      else if s.vad.webrtcSpeech lib chunk then s.accepted ++ chunk
      else []
  | .resetState => []

def step (s : Listening F Detector Session Tensor) (c : VadCall F) :
    Listening F Detector Session Tensor × Option (Except VadError (VadResult F)) :=
  (⟨(call lib s.vad c).1, s.hears lib c⟩, (call lib s.vad c).2)

end Listening

/-- The verifier has read `k` segments of the audio, and the rest of it waits. -/
structure ReadTo (lib : VadLib F Detector Session Tensor) (sess : Session)
    (v : HybridVAD F Detector Session Tensor) (audio : List F) (k : ℕ) : Prop where
  session : v.sileroSess = some sess
  rate : v.sileroSr = some sampleRate
  whole : segmentSamples * k ≤ audio.length
  buffer : v.audioBuffer = some (audio.drop (segmentSamples * k))
  context : v.sileroContext = some ((verifier lib sess).overlap audio k)
  state : v.sileroState = some ((verifier lib sess).stateAt audio k)
  frames : v.frameCount = some k

variable {lib : VadLib F Detector Session Tensor} {sess : Session}
  {v w : HybridVAD F Detector Session Tensor} {audio chunk : List F} {k : ℕ}

namespace ReadTo

theorem reading (h : ReadTo lib sess v audio k) :
    (verifier lib sess).Reading audio k (audio.drop (segmentSamples * k))
      ((verifier lib sess).overlap audio k) ((verifier lib sess).stateAt audio k) :=
  ⟨h.whole, rfl, rfl, rfl⟩

theorem initialised (h : ReadTo lib sess v audio k) : v.Initialised where
  sess := by rw [h.session]; rfl
  sr := by rw [h.rate]; rfl
  buffer := by rw [h.buffer]; rfl
  state := by rw [h.state]; rfl
  context := by rw [h.context]; rfl
  frames := by rw [h.frames]; rfl

/-- The parts of the detector that the verifier reads. -/
theorem congr (h : ReadTo lib sess v audio k) (hsess : w.sileroSess = v.sileroSess)
    (hsr : w.sileroSr = v.sileroSr) (hbuffer : w.audioBuffer = v.audioBuffer)
    (hcontext : w.sileroContext = v.sileroContext) (hstate : w.sileroState = v.sileroState)
    (hframes : w.frameCount = v.frameCount) : ReadTo lib sess w audio k :=
  ⟨hsess.trans h.session, hsr.trans h.rate, h.whole, hbuffer.trans h.buffer,
    hcontext.trans h.context, hstate.trans h.state, hframes.trans h.frames⟩

/-- A reset starts a new recording. -/
theorem of_resetState (hsess : v.sileroSess = some sess) (hsr : v.sileroSr = some sampleRate) :
    ReadTo lib sess (v.resetState lib) [] 0 where
  session := resetState_frame.1.trans hsess
  rate := resetState_frame.2.1.trans hsr
  whole := Nat.le_refl _
  buffer := resetState_audioBuffer
  context := by
    rw [← (verifier lib sess).reading_nil.before]
    simp [HybridVAD.resetState, hsess, verifier]
  state := by
    rw [← (verifier lib sess).reading_nil.state]
    simp [HybridVAD.resetState, hsess, verifier]
  frames := by simp [HybridVAD.resetState, hsess]

theorem init (lib : VadLib F Detector Session Tensor) (sess : Session) :
    ReadTo lib sess (HybridVAD.init lib (some sess)) [] 0 := by
  simp only [HybridVAD.init]
  exact of_resetState rfl rfl

/-- The chunk that is heard waits behind the rest. -/
theorem heard (h : ReadTo lib sess v audio k) (chunk : List F) :
    ReadTo lib sess (v.heard lib (audio.drop (segmentSamples * k)) chunk) (audio ++ chunk) k :=
  have hnext := h.reading.append chunk
  { session := h.session
    rate := h.rate
    whole := hnext.whole
    buffer := congrArg some hnext.pending
    context := h.context.trans (congrArg some hnext.before)
    state := h.state.trans (congrArg some hnext.state)
    frames := h.frames }

/-- **One segment**: the verifier answers as in the one pass. -/
theorem runSilero (h : ReadTo lib sess v audio k)
    (hfull : segmentSamples ≤ (audio.drop (segmentSamples * k)).length) :
    ∃ w, ({ v with audioBuffer := some ((audio.drop (segmentSamples * k)).drop segmentSamples) } :
        HybridVAD F Detector Session Tensor).runSilero lib
          ((audio.drop (segmentSamples * k)).take segmentSamples) =
        (.ok ((verifier lib sess).answerAt audio k), w) ∧ ReadTo lib sess w audio (k + 1) := by
  have hwindow := h.reading.window_eq
  have hnext := h.reading.next hfull
  simp only [HybridVAD.runSilero, h.context, h.state, h.rate, h.session, h.frames]
  rw [show (verifier lib sess).overlap audio k ++ (audio.drop (segmentSamples * k)).take
    segmentSamples = (verifier lib sess).window audio k from hwindow]
  refine ⟨_, rfl, ⟨rfl, rfl, hnext.whole, congrArg some hnext.pending, ?_, rfl, rfl⟩⟩
  rw [← hnext.before]
  simp [verifier]

variable (lib) in
/-- **The loop over the segments** reads every full one. -/
theorem drain (fuel : ℕ) (h : ReadTo lib sess v audio k) (probs : List F)
    (hfuel : v.buffered ≤ fuel) :
    ∃ w, drain lib fuel v probs =
        (.ok (probs ++ (List.range' k ((verifier lib sess).blocks audio - k)).map
          ((verifier lib sess).answerAt audio)), w) ∧
      ReadTo lib sess w audio ((verifier lib sess).blocks audio) := by
  have hbuffered : v.buffered = (audio.drop (segmentSamples * k)).length := by
    rw [buffered, h.buffer, Option.getD_some]
  induction fuel generalizing v k probs with
  | zero =>
      have hnone : (audio.drop (segmentSamples * k)).length < segmentSamples := by
        rw [← hbuffered, Nat.le_zero.mp hfuel]
        decide
      have hk := h.reading.blocks_eq hnone
      refine ⟨v, ?_, hk ▸ h⟩
      rw [← hk, Nat.sub_self]
      simp [HybridVAD.drain]
  | succ fuel ih =>
      simp only [HybridVAD.drain, h.buffer]
      by_cases hfull : segmentSamples ≤ (audio.drop (segmentSamples * k)).length
      · obtain ⟨w, hrun, hw⟩ := h.runSilero hfull
        have hmore : k + 1 ≤ (verifier lib sess).blocks audio :=
          BlockReader.size_mul_le_iff.mp hw.whole
        have hshorter : w.buffered ≤ fuel := by
          rw [hbuffered] at hfuel
          have hnext := hw.reading.pending
          have hpos : 0 < segmentSamples := by decide
          rw [buffered, hw.buffer, Option.getD_some, Nat.mul_succ, ← List.drop_drop,
            List.length_drop]
          omega
        have hwaiting : w.buffered = (audio.drop (segmentSamples * (k + 1))).length := by
          rw [buffered, hw.buffer, Option.getD_some]
        obtain ⟨u, hdrain, hu⟩ :=
          ih hw (probs ++ [(verifier lib sess).answerAt audio k]) hshorter hwaiting
        refine ⟨u, ?_, hu⟩
        rw [if_pos hfull, hrun]
        refine hdrain.trans ?_
        have hcount : (verifier lib sess).blocks audio - k =
            (verifier lib sess).blocks audio - (k + 1) + 1 := by omega
        rw [hcount, List.range'_succ, List.map_cons, List.append_assoc, List.singleton_append]
      · have hk := h.reading.blocks_eq (Nat.lt_of_not_le hfull)
        refine ⟨v, ?_, hk ▸ h⟩
        rw [if_neg hfull, ← hk, Nat.sub_self]
        simp

/-- The final gate leaves the verifier alone. -/
theorem finalGate (h : ReadTo lib sess v audio k) (probs : List F) (result : VadResult F) :
    ReadTo lib sess (v.finalGate probs result).2 audio k := by
  simp only [HybridVAD.finalGate]
  generalize FloatOps.le sileroThreshold (maxProbOf probs) = sileroPass
  generalize FloatOps.le (energyThreshold _) result.rms = energyPass
  generalize (Option.getD _ false) = last
  cases hpass : sileroPass || energyPass <;> cases last
  all_goals exact h.congr rfl rfl rfl rfl rfl rfl

variable (lib) in
/-- A rejected chunk starts a new recording. -/
theorem reject (h : ReadTo lib sess v audio k) (result : VadResult F) :
    ReadTo lib sess (v.reject lib result).2 [] 0 := by
  have hreset : ReadTo lib sess (v.countWebrtcDropped.resetState lib) [] 0 :=
    of_resetState h.session h.rate
  have hsome : v.countWebrtcDropped.sileroSess.isSome = true := h.initialised.sess
  have hempty : (v.countWebrtcDropped.resetState lib).audioBuffer = some [] :=
    resetState_audioBuffer
  simp only [HybridVAD.reject, if_pos hsome]
  split
  · exact hreset.congr rfl rfl hempty.symm rfl rfl rfl
  · exact hreset.congr rfl rfl hempty.symm rfl rfl rfl

/-! ## One chunk -/

theorem of_silent (h : ReadTo lib sess v audio k) (hne : chunk ≠ [])
    (hsilent : silent lib chunk = true) :
    ReadTo lib sess (v.processChunk lib chunk).2 audio k := by
  obtain ⟨result, hcall, -⟩ := processChunk_of_silent (v := v) hne hsilent
  rw [hcall]
  exact h.congr rfl rfl rfl rfl rfl rfl

theorem of_rejected (h : ReadTo lib sess v audio k) (hne : chunk ≠ [])
    (hloud : silent lib chunk = false) (hrejects : v.webrtcSpeech lib chunk = false) :
    ReadTo lib sess (v.processChunk lib chunk).2 [] 0 := by
  obtain ⟨first, rest, rfl⟩ := List.exists_cons_of_ne_nil hne
  rw [silent] at hloud
  simp only [processChunk, hloud, h.buffer, hrejects, Bool.false_eq_true, if_false]
  exact (h.heard (first :: rest)).reject lib _

/-- **An accepted chunk** is judged by the segments that it completes. -/
theorem of_accepted (h : ReadTo lib sess v audio k) (hne : chunk ≠ [])
    (hloud : silent lib chunk = false) (haccepts : v.webrtcSpeech lib chunk = true) :
    ∃ result w, v.processChunk lib chunk = (.ok result, w) ∧
      result.sileroProb = maxProbOf
        ((List.range' k ((verifier lib sess).blocks (audio ++ chunk) - k)).map
          ((verifier lib sess).answerAt (audio ++ chunk))) ∧
      result.sileroPass = FloatOps.le sileroThreshold result.sileroProb ∧
      ReadTo lib sess w (audio ++ chunk) ((verifier lib sess).blocks (audio ++ chunk)) := by
  obtain ⟨first, rest, rfl⟩ := List.exists_cons_of_ne_nil hne
  rw [silent] at hloud
  obtain ⟨w, hdrain, hw⟩ := (h.heard (first :: rest)).drain lib _ [] le_rfl
  rw [buffered] at hdrain
  have hsess : (v.heard lib (audio.drop (segmentSamples * k)) (first :: rest)).sileroSess =
      some sess := h.session
  simp only [processChunk, hloud, h.buffer, haccepts, hsess, verify, hdrain, Bool.false_eq_true,
    if_false, if_true, List.nil_append]
  exact ⟨_, _, rfl, rfl, rfl, hw.finalGate _ _⟩

end ReadTo

/-! ## Runs -/

namespace Listening

variable (lib sess) in
/-- The verifier has read all full segments of what was accepted. -/
def InOnePass (s : Listening F Detector Session Tensor) : Prop :=
  ReadTo lib sess s.vad s.accepted ((verifier lib sess).blocks s.accepted)

variable {s : Listening F Detector Session Tensor}

theorem inOnePass_start (lib : VadLib F Detector Session Tensor) (sess : Session) :
    (start lib sess).InOnePass lib sess := by
  rw [InOnePass, start, BlockReader.blocks_nil]
  exact ReadTo.init lib sess

/-- **One call.** -/
theorem InOnePass.step (h : s.InOnePass lib sess) (c : VadCall F) :
    (s.step lib c).1.InOnePass lib sess := by
  unfold InOnePass at h ⊢
  cases c with
  | resetState =>
      simp only [Listening.step, call, hears, BlockReader.blocks_nil]
      exact ReadTo.of_resetState h.session h.rate
  | processChunk chunk =>
      by_cases hne : chunk = []
      · -- An empty chunk raises before anything is done.
        subst hne
        exact h
      · have hnot : chunk.isEmpty = false := by simpa using hne
        simp only [Listening.step, call, hears, hnot, Bool.false_or]
        cases hsilent : silent lib chunk with
        | true => exact h.of_silent hne hsilent
        | false =>
            cases hspeech : s.vad.webrtcSpeech lib chunk with
            | false =>
                simp only [Bool.false_eq_true, if_false, BlockReader.blocks_nil]
                exact h.of_rejected hne hsilent hspeech
            | true =>
                obtain ⟨result, w, hcall, -, -, hw⟩ := h.of_accepted hne hsilent hspeech
                rw [hcall]
                exact hw

variable (lib sess) in
/-- A chunk that both gates let through is judged by the segments that it completes. -/
def Judged (s : Listening F Detector Session Tensor) : VadCall F → Prop
  | .processChunk chunk =>
      chunk ≠ [] → silent lib chunk = false → s.vad.webrtcSpeech lib chunk = true →
        ∃ result w, s.vad.processChunk lib chunk = (.ok result, w) ∧
          result.sileroProb = maxProbOf (((verifier lib sess).answers (s.accepted ++ chunk)).drop
            ((verifier lib sess).answers s.accepted).length) ∧
          result.sileroPass = FloatOps.le sileroThreshold result.sileroProb
  | .resetState => True

theorem InOnePass.judged (h : s.InOnePass lib sess) (c : VadCall F) : s.Judged lib sess c := by
  cases c with
  | resetState => exact trivial
  | processChunk chunk =>
      intro hne hloud haccepts
      obtain ⟨result, w, hcall, hprob, hpass, -⟩ := ReadTo.of_accepted h hne hloud haccepts
      refine ⟨result, w, hcall, ?_, hpass⟩
      rw [BlockReader.answers_append, List.drop_append_length]
      exact hprob

/-- **Where the chunks are cut does not matter.**  After every run of calls the verifier
stands where one pass over the samples accepted since its last reset leaves it, and every
accepted chunk has been judged by the segments that the pass adds with it. -/
theorem segments_of_one_pass (lib : VadLib F Detector Session Tensor) (sess : Session)
    (calls : List (VadCall F)) :
    (finalState (step lib) (start lib sess) calls).InOnePass lib sess ∧
      ∀ visit ∈ visits (step lib) (start lib sess) calls, visit.1.Judged lib sess visit.2 := by
  refine ⟨finalState_invariant (step lib) (InOnePass lib sess) calls (inOnePass_start lib sess)
    fun _ c _ h => h.step c, fun visit hvisit => ?_⟩
  have hkept := visits_invariant (step lib) (InOnePass lib sess) calls (inOnePass_start lib sess)
    (fun _ c _ h => h.step c) visit hvisit
  exact hkept.1.judged visit.2

/-- Two chunks of 600 samples are two segments. -/
example : (finalState (step (fullScale true)) (start (fullScale true) ())
    [.processChunk (List.replicate 600 1), .processChunk (List.replicate 600 1)]).vad.frameCount =
      some 2 := by
  decide +kernel

end Listening

end Vad
end AvaListener
