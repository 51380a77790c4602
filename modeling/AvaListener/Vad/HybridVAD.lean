import Mathlib.Algebra.Order.Ring.Rat
import Mathlib.Data.List.Sort
import AvaListener.Library.PyText

/-!
# The two-stage voice activity detector

`HybridVAD` of `runtime/vad/pipeline.py`: a cheap prefilter (`webrtcvad`), a neural
verifier (a Silero session of `onnxruntime`) and an energy gate as the last resort.

An attribute that only some path assigns is an `Option`, and reading it where it has not
been assigned raises.  What numpy, `webrtcvad` and `onnxruntime` compute is left open, and
so is the arithmetic: no law of it is assumed, so rounding and `nan` are covered.
-/

namespace AvaListener
namespace Vad

open Library

/-! ## Settings -/

def sampleRate : ℕ := 16000
def vadAggressiveness : ℕ := 1
def vadFrameSamples : ℕ := 480
def noiseHistoryFrames : ℕ := 40

/-- Samples of one Silero segment, and of the context in front of it. -/
def segmentSamples : ℕ := 512
def contextSamples : ℕ := 64

/-- Floats, with the operations of the cascade. -/
class FloatOps (F : Type) extends Add F, Mul F, Div F, Neg F, OfScientific F where
  lt : F → F → Bool
  le : F → F → Bool

/-- Exact arithmetic. -/
instance : FloatOps ℚ where
  lt a b := decide (a < b)
  le a b := decide (a ≤ b)

section Numbers

open FloatOps

variable {F : Type} [FloatOps F]

def rmsFloor : F := 0.005
def sileroThreshold : F := 0.15
def noiseFloorMultiplier : F := 1.8
def extremeSilence : F := 0.0001

/-- `max(a, b)`. -/
def pyMax (a b : F) : F := if lt a b then b else a

/-- `max` of a list that starts with `first`. -/
def maxOf (first : F) (rest : List F) : F := rest.foldl pyMax first

def absolute (x : F) : F := if lt x 0.0 then -x else x

/-- `np.clip(x, -1.0, 1.0)`. -/
def clip (x : F) : F :=
  if lt x (-1.0) then -1.0 else if lt 1.0 x then 1.0 else x

/-- `np.mean(chunk ** 2)`; the second argument is the number of samples. -/
def meanSquare (chunk : List F) (size : F) : F :=
  chunk.foldl (fun sum x => sum + x * x) 0.0 / size

/-- `statistics.median`. -/
def median (history : List F) : F :=
  let ordered := history.insertionSort fun a b => lt b a = false
  let n := ordered.length
  if n % 2 = 1 then ordered.getD (n / 2) 0.0
  else (ordered.getD (n / 2 - 1) 0.0 + ordered.getD (n / 2) 0.0) / 2.0

end Numbers

/-! ## What is imported -/

/-- The functions of numpy, `webrtcvad` and `onnxruntime` that the detector calls. -/
structure VadLib (F Detector Session Tensor : Type) where
  /-- `np.sqrt`, the length of an array as a float, and `astype(np.int16)`. -/
  sqrt : F → F
  size : ℕ → F
  int16 : F → ℤ
  /-- `webrtcvad.Vad(..)`. -/
  newDetector : ℕ → Detector
  /-- `is_speech`: its answer, `none` where it raises, and the detector after the call. -/
  isSpeech : Detector → List ℤ → ℕ → Option Bool × Detector
  /-- `np.zeros((2, 1, 128))`. -/
  zeroState : Tensor
  /-- `run` on an input, a state and a sample rate: the probability and the next state. -/
  run : Session → List F → Tensor → ℕ → F × Tensor

inductive VadError where
  /-- `np.max` of an empty array. -/
  | valueError
  | attributeError (name : Text)
  deriving DecidableEq

structure VadStats (F : Type) where
  webrtcDropped : ℕ
  sileroDropped : ℕ
  speechPassed : ℕ
  sileroProbs : List F
  deriving DecidableEq

/-- What `process_chunk` returns. -/
structure VadResult (F : Type) where
  webrtc : Bool
  sileroProb : F
  sileroPass : Bool
  rms : F
  peak : F
  pass : Bool

structure HybridVAD (F Detector Session Tensor : Type) where
  webrtc : Detector
  sileroSess : Option Session
  sileroSr : Option ℕ
  audioBuffer : Option (List F)
  sileroState : Option Tensor
  sileroContext : Option (List F)
  frameCount : Option ℕ
  lastSpeechPass : Option Bool
  stats : VadStats F
  noiseRmsHistory : List F

inductive VadCall (F : Type) where
  | processChunk (chunk : List F)
  | resetState
  deriving DecidableEq

variable {F Detector Session Tensor : Type} [FloatOps F]

namespace VadLib

variable (lib : VadLib F Detector Session Tensor)

def rms (chunk : List F) : F := lib.sqrt (meanSquare chunk (lib.size chunk.length))

/-- The frame that the prefilter judges, padded with zeros. -/
def pcm (chunk : List F) : List ℤ :=
  let frame := chunk.take vadFrameSamples
  let frame := frame ++ List.replicate (vadFrameSamples - frame.length) 0.0
  frame.map fun x => lib.int16 (clip x * 32767.0)

end VadLib

namespace HybridVAD

variable (lib : VadLib F Detector Session Tensor) (v : HybridVAD F Detector Session Tensor)

/-- `reset_state`. -/
def resetState : HybridVAD F Detector Session Tensor :=
  let v := { v with audioBuffer := some [] }
  match v.sileroSess with
  | none => v
  | some _ =>
      { v with
        sileroState := some lib.zeroState
        sileroContext := some (List.replicate contextSamples 0.0)
        frameCount := some 0
        lastSpeechPass := some false }

/-- `__init__`; `created` is the session, `none` where `create_session` finds no model
file. -/
def init (created : Option Session) : HybridVAD F Detector Session Tensor :=
  let v : HybridVAD F Detector Session Tensor :=
    { webrtc := lib.newDetector vadAggressiveness
      sileroSess := none
      sileroSr := none
      audioBuffer := none
      sileroState := none
      sileroContext := none
      frameCount := none
      lastSpeechPass := none
      stats := ⟨0, 0, 0, []⟩
      noiseRmsHistory := [] }
  match created with
  | none => v
  | some sess => resetState lib { v with sileroSess := some sess, sileroSr := some sampleRate }

/-- `_adaptive_noise_floor`. -/
def adaptiveNoiseFloor : F :=
  if v.noiseRmsHistory.isEmpty then rmsFloor else pyMax (median v.noiseRmsHistory) rmsFloor

def energyThreshold : F := pyMax rmsFloor (v.adaptiveNoiseFloor * noiseFloorMultiplier)

/-! ## The counters and the noise history -/

def countWebrtcDropped : HybridVAD F Detector Session Tensor :=
  { v with stats := { v.stats with webrtcDropped := v.stats.webrtcDropped + 1 } }

def countSileroDropped : HybridVAD F Detector Session Tensor :=
  { v with stats := { v.stats with sileroDropped := v.stats.sileroDropped + 1 } }

def countSpeechPassed : HybridVAD F Detector Session Tensor :=
  { v with stats := { v.stats with speechPassed := v.stats.speechPassed + 1 } }

/-- `append` of a deque with a `maxlen`. -/
def recordNoise (rms : F) : HybridVAD F Detector Session Tensor :=
  let history := v.noiseRmsHistory ++ [rms]
  { v with noiseRmsHistory := history.drop (history.length - noiseHistoryFrames) }

/-! ## The verifier -/

/-- `_run_silero`. -/
def runSilero (audio : List F) : Except VadError F × HybridVAD F Detector Session Tensor :=
  match v.sileroContext with
  | none => (.error (.attributeError "_silero_context".toList), v)
  | some context =>
      let audioWithContext := context ++ audio
      match v.sileroState with
      | none => (.error (.attributeError "_silero_state".toList), v)
      | some state =>
          match v.sileroSr with
          | none => (.error (.attributeError "_silero_sr".toList), v)
          | some sr =>
              match v.sileroSess with
              | none => (.error (.attributeError "run".toList), v)
              | some sess =>
                  let outs := lib.run sess audioWithContext state sr
                  let v :=
                    { v with
                      sileroState := some outs.2
                      sileroContext := some
                        (audioWithContext.drop (audioWithContext.length - contextSamples)) }
                  match v.frameCount with
                  | none => (.error (.attributeError "_frame_count".toList), v)
                  | some n => (.ok outs.1, { v with frameCount := some (n + 1) })

/-- The loop over the segments that are buffered. -/
def drain : ℕ → HybridVAD F Detector Session Tensor → List F →
    Except VadError (List F) × HybridVAD F Detector Session Tensor
  | 0, v, probs => (.ok probs, v)
  | fuel + 1, v, probs =>
      match v.audioBuffer with
      | none => (.error (.attributeError "_audio_buffer".toList), v)
      | some buffer =>
          if segmentSamples ≤ buffer.length then
            let v := { v with audioBuffer := some (buffer.drop segmentSamples) }
            match v.runSilero lib (buffer.take segmentSamples) with
            | (.error e, v) => (.error e, v)
            | (.ok prob, v) => drain fuel v (probs ++ [prob])
          else (.ok probs, v)

/-- `max(probs) if probs else 0.0`. -/
def maxProbOf : List F → F
  | [] => 0.0
  | first :: rest => maxOf first rest

/-- The last gate, given the probabilities of the segments. -/
def finalGate (probs : List F) (result : VadResult F) :
    VadResult F × HybridVAD F Detector Session Tensor :=
  let maxProb := maxProbOf probs
  let v := { v with stats := { v.stats with sileroProbs := v.stats.sileroProbs ++ [maxProb] } }
  let sileroPass := FloatOps.le sileroThreshold maxProb
  let pass := sileroPass || FloatOps.le v.energyThreshold result.rms
  let v := if pass then v.countSpeechPassed else v.countSileroDropped.recordNoise result.rms
  -- The transitions that are logged.
  let last := v.lastSpeechPass.getD false
  let v :=
    if pass && !last then { v with lastSpeechPass := some true }
    else if !pass && last then { v with lastSpeechPass := some false }
    else v
  ({ result with sileroProb := maxProb, sileroPass := sileroPass, pass := pass }, v)

/-- The second gate. -/
def verify (result : VadResult F) :
    Except VadError (VadResult F) × HybridVAD F Detector Session Tensor :=
  match drain lib (v.audioBuffer.getD []).length v [] with
  | (.error e, v) => (.error e, v)
  | (.ok probs, v) =>
      let decided := v.finalGate probs result
      (.ok decided.1, decided.2)

/-! ## The cascade -/

/-- What the prefilter says; where it raises, the chunk passes. -/
def webrtcSpeech (chunk : List F) : Bool :=
  (lib.isSpeech v.webrtc (lib.pcm chunk) sampleRate).1.getD true

/-- The chunk is buffered and the prefilter has heard it. -/
def heard (buffer chunk : List F) : HybridVAD F Detector Session Tensor :=
  { v with
    audioBuffer := some (buffer ++ chunk)
    webrtc := (lib.isSpeech v.webrtc (lib.pcm chunk) sampleRate).2 }

/-- A chunk that the prefilter rejects; its energy may still pass it. -/
def reject (result : VadResult F) : VadResult F × HybridVAD F Detector Session Tensor :=
  let v := v.countWebrtcDropped
  let v := if v.sileroSess.isSome then v.resetState lib else v
  let v := { v with audioBuffer := some [] }
  if FloatOps.le v.energyThreshold result.rms then ({ result with pass := true }, v.countSpeechPassed)
  else (result, v.recordNoise result.rms)

/-- `process_chunk`: how it ends, and the detector it leaves. -/
def processChunk (chunk : List F) :
    Except VadError (VadResult F) × HybridVAD F Detector Session Tensor :=
  match chunk with
  | [] => (.error .valueError, v)
  | first :: rest =>
      let rms := lib.rms chunk
      let peak := maxOf (absolute first) (rest.map absolute)
      let result : VadResult F := ⟨false, 0.0, false, rms, peak, false⟩
      if FloatOps.lt rms extremeSilence then (.ok result, v.countWebrtcDropped)
      else
        match v.audioBuffer with
        | none => (.error (.attributeError "_audio_buffer".toList), v)
        | some buffer =>
            let speech := v.webrtcSpeech lib chunk
            let v := v.heard lib buffer chunk
            let result := { result with webrtc := speech }
            if speech then
              match v.sileroSess with
              | none => (.ok { result with pass := true }, v.countSpeechPassed)
              | some _ => v.verify lib result
            else
              let rejected := v.reject lib result
              (.ok rejected.1, rejected.2)

/-! ## What is assigned, and what is buffered -/

/-- The samples that wait for the verifier. -/
def buffered (v : HybridVAD F Detector Session Tensor) : ℕ := (v.audioBuffer.getD []).length

omit [FloatOps F] in
theorem buffered_lt_of_empty {v : HybridVAD F Detector Session Tensor}
    (h : v.audioBuffer.getD [] = []) : v.buffered < segmentSamples := by
  rw [buffered, h]
  exact Nat.zero_lt_succ 511

/-- A session was created, and every attribute that goes with it has been assigned. -/
structure Initialised (v : HybridVAD F Detector Session Tensor) : Prop where
  sess : v.sileroSess.isSome = true
  sr : v.sileroSr.isSome = true
  buffer : v.audioBuffer.isSome = true
  state : v.sileroState.isSome = true
  context : v.sileroContext.isSome = true
  frames : v.frameCount.isSome = true

variable {lib} {v}

theorem energyThreshold_congr {w : HybridVAD F Detector Session Tensor}
    (h : w.noiseRmsHistory = v.noiseRmsHistory) : w.energyThreshold = v.energyThreshold := by
  rw [energyThreshold, adaptiveNoiseFloor, h]
  rfl

@[simp] theorem resetState_audioBuffer : (v.resetState lib).audioBuffer = some [] := by
  cases hsess : v.sileroSess <;> simp [resetState, hsess]

/-- What `reset_state` leaves alone. -/
@[simp] theorem resetState_frame :
    (v.resetState lib).sileroSess = v.sileroSess ∧ (v.resetState lib).sileroSr = v.sileroSr ∧
      (v.resetState lib).stats = v.stats ∧
        (v.resetState lib).noiseRmsHistory = v.noiseRmsHistory := by
  cases hsess : v.sileroSess <;> simp [resetState, hsess]

theorem initialised_resetState (hsess : v.sileroSess.isSome = true)
    (hsr : v.sileroSr.isSome = true) : (v.resetState lib).Initialised := by
  obtain ⟨sess, hsome⟩ := Option.isSome_iff_exists.mp hsess
  refine ⟨by simpa using hsess, by simpa using hsr, by simp, ?_, ?_, ?_⟩
  all_goals simp [resetState, hsome]

theorem initialised_init (sess : Session) : (init lib (some sess)).Initialised := by
  simp only [init]
  exact initialised_resetState rfl rfl

/-! ## The verifier keeps what it does not own -/

omit [FloatOps F] in
/-- A segment is judged, and only the verifier's own memory changes. -/
theorem Initialised.runSilero (h : v.Initialised)
    (lib : VadLib F Detector Session Tensor) (audio : List F) :
    ∃ prob w, v.runSilero lib audio = (.ok prob, w) ∧ w.Initialised ∧
      w.audioBuffer = v.audioBuffer ∧ w.stats = v.stats ∧
        w.noiseRmsHistory = v.noiseRmsHistory := by
  obtain ⟨context, hcontext⟩ := Option.isSome_iff_exists.mp h.context
  obtain ⟨state, hstate⟩ := Option.isSome_iff_exists.mp h.state
  obtain ⟨sr, hsr⟩ := Option.isSome_iff_exists.mp h.sr
  obtain ⟨sess, hsess⟩ := Option.isSome_iff_exists.mp h.sess
  obtain ⟨n, hn⟩ := Option.isSome_iff_exists.mp h.frames
  simp only [HybridVAD.runSilero, hcontext, hstate, hsr, hsess, hn]
  exact ⟨_, _, rfl, ⟨rfl, rfl, h.buffer, rfl, rfl, rfl⟩, rfl, rfl, rfl⟩

variable (lib) in
omit [FloatOps F] in
/-- **The loop over the segments** leaves less than a segment. -/
theorem drain_of_initialised (fuel : ℕ) (h : v.Initialised) (probs : List F)
    (hfuel : v.buffered ≤ fuel) :
    ∃ all w, drain lib fuel v probs = (.ok all, w) ∧ w.Initialised ∧
      w.buffered < segmentSamples ∧ w.stats = v.stats ∧
        w.noiseRmsHistory = v.noiseRmsHistory := by
  induction fuel generalizing v probs with
  | zero =>
      refine ⟨probs, v, rfl, h, ?_, rfl, rfl⟩
      rw [Nat.le_zero.mp hfuel]
      decide
  | succ fuel ih =>
      obtain ⟨buffer, hbuffer⟩ := Option.isSome_iff_exists.mp h.buffer
      have hlength : v.buffered = buffer.length := by rw [buffered, hbuffer, Option.getD_some]
      simp only [drain, hbuffer]
      by_cases hfull : segmentSamples ≤ buffer.length
      · rw [if_pos hfull]
        let rest : HybridVAD F Detector Session Tensor :=
          { v with audioBuffer := some (buffer.drop segmentSamples) }
        have hrest : rest.Initialised := ⟨h.sess, h.sr, rfl, h.state, h.context, h.frames⟩
        obtain ⟨prob, w, hrun, hw, hwbuffer, hwstats, hwnoise⟩ :=
          hrest.runSilero lib (buffer.take segmentSamples)
        have hshorter : w.buffered ≤ fuel := by
          have hdrop : w.buffered = buffer.length - segmentSamples := by
            rw [buffered, hwbuffer, Option.getD_some, List.length_drop]
          have hpos : 0 < segmentSamples := by decide
          omega
        obtain ⟨all, u, hdrain, hu, hless, hustats, hunoise⟩ := ih hw (probs ++ [prob]) hshorter
        refine ⟨all, u, ?_, hu, hless, hustats.trans hwstats, hunoise.trans hwnoise⟩
        simp only [rest] at hrun
        rw [hrun]
        exact hdrain
      · rw [if_neg hfull]
        exact ⟨probs, v, rfl, h, by omega, rfl, rfl⟩

/-! ## The exits of the cascade -/

variable (lib v) in
/-- The chunk is extremely silent. -/
def silent (chunk : List F) : Bool := FloatOps.lt (lib.rms chunk) extremeSilence

variable (lib v) in
/-- The energy of the chunk reaches the threshold. -/
def energetic (chunk : List F) : Bool := FloatOps.le v.energyThreshold (lib.rms chunk)

/-- What a call adds to the counters. -/
structure Adds (v w : HybridVAD F Detector Session Tensor) (webrtcDropped sileroDropped
    speechPassed : ℕ) : Prop where
  webrtc : w.stats.webrtcDropped = v.stats.webrtcDropped + webrtcDropped
  silero : w.stats.sileroDropped = v.stats.sileroDropped + sileroDropped
  speech : w.stats.speechPassed = v.stats.speechPassed + speechPassed

variable (lib v) in
/-- The energy gate behind a rejection. -/
theorem reject_spec (result : VadResult F) (hpass : result.pass = false) :
    (v.reject lib result).1.pass = FloatOps.le v.energyThreshold result.rms ∧
      (v.reject lib result).2.audioBuffer = some [] ∧
      (v.reject lib result).2.sileroSess = v.sileroSess ∧
      (v.Initialised → (v.reject lib result).2.Initialised) ∧
      Adds v (v.reject lib result).2 1 0
        (FloatOps.le v.energyThreshold result.rms).toNat := by
  let dropped := v.countWebrtcDropped
  let cooled := if dropped.sileroSess.isSome then dropped.resetState lib else dropped
  have hframe : cooled.sileroSess = v.sileroSess ∧ cooled.stats = dropped.stats ∧
      cooled.noiseRmsHistory = v.noiseRmsHistory := by
    simp only [cooled]
    split <;> simp [dropped, countWebrtcDropped]
  have hcooled : v.Initialised → cooled.Initialised := by
    intro h
    simp only [cooled]
    rw [if_pos (show dropped.sileroSess.isSome = true from h.sess)]
    exact initialised_resetState h.sess h.sr
  have hthreshold : ({ cooled with audioBuffer := some [] } :
      HybridVAD F Detector Session Tensor).energyThreshold = v.energyThreshold :=
    energyThreshold_congr hframe.2.2
  have hstats := hframe.2.1
  have hreject : v.reject lib result =
      if FloatOps.le v.energyThreshold result.rms then
        ({ result with pass := true }, { cooled with audioBuffer := some [] }.countSpeechPassed)
      else (result, { cooled with audioBuffer := some [] }.recordNoise result.rms) := by
    rw [← hthreshold]
    rfl
  rw [hreject]
  cases FloatOps.le v.energyThreshold result.rms with
  | true =>
      refine ⟨rfl, rfl, hframe.1, fun h => ?_, ⟨?_, ?_, ?_⟩⟩
      · have h := hcooled h
        exact ⟨h.sess, h.sr, rfl, h.state, h.context, h.frames⟩
      all_goals simp [countSpeechPassed, hstats, dropped, countWebrtcDropped]
  | false =>
      refine ⟨hpass, rfl, hframe.1, fun h => ?_, ⟨?_, ?_, ?_⟩⟩
      · have h := hcooled h
        exact ⟨h.sess, h.sr, rfl, h.state, h.context, h.frames⟩
      all_goals simp [recordNoise, hstats, dropped, countWebrtcDropped]

variable (v) in
/-- The final gate counts what it decides. -/
theorem finalGate_spec (probs : List F) (result : VadResult F) :
    Adds v (v.finalGate probs result).2 0 (!(v.finalGate probs result).1.pass).toNat
        (v.finalGate probs result).1.pass.toNat ∧
      (v.finalGate probs result).2.audioBuffer = v.audioBuffer ∧
      (v.Initialised → (v.finalGate probs result).2.Initialised) := by
  simp only [finalGate]
  generalize FloatOps.le sileroThreshold (maxProbOf probs) = sileroPass
  generalize FloatOps.le (energyThreshold _) result.rms = energyPass
  generalize (Option.getD _ false) = last
  cases hpass : sileroPass || energyPass <;> cases last
  all_goals
    exact ⟨⟨rfl, rfl, rfl⟩, rfl,
      fun h => ⟨h.sess, h.sr, h.buffer, h.state, h.context, h.frames⟩⟩

variable {chunk : List F}

theorem processChunk_of_silent (hne : chunk ≠ []) (hsilent : silent lib chunk = true) :
    ∃ result, v.processChunk lib chunk = (.ok result, v.countWebrtcDropped) ∧
      result.pass = false := by
  obtain ⟨first, rest, rfl⟩ := List.exists_cons_of_ne_nil hne
  rw [silent] at hsilent
  simp only [processChunk, if_pos hsilent]
  exact ⟨_, rfl, rfl⟩

/-- A chunk that is not silent needs the buffer. -/
theorem processChunk_of_unassigned (hne : chunk ≠ []) (hloud : silent lib chunk = false)
    (hbuffer : v.audioBuffer = none) :
    v.processChunk lib chunk = (.error (.attributeError "_audio_buffer".toList), v) := by
  obtain ⟨first, rest, rfl⟩ := List.exists_cons_of_ne_nil hne
  rw [silent] at hloud
  simp [processChunk, hloud, hbuffer]

/-- The prefilter's rejection empties the buffer; the energy decides whether it holds. -/
theorem processChunk_of_rejected (hne : chunk ≠ []) (hloud : silent lib chunk = false)
    (hbuffer : v.audioBuffer.isSome = true) (hrejects : v.webrtcSpeech lib chunk = false) :
    ∃ result w, v.processChunk lib chunk = (.ok result, w) ∧
      result.pass = v.energetic lib chunk ∧ w.audioBuffer = some [] ∧
      w.sileroSess = v.sileroSess ∧ (v.Initialised → w.Initialised) ∧
        Adds v w 1 0 (v.energetic lib chunk).toNat := by
  obtain ⟨first, rest, rfl⟩ := List.exists_cons_of_ne_nil hne
  obtain ⟨buffer, hsome⟩ := Option.isSome_iff_exists.mp hbuffer
  rw [silent] at hloud
  let result : VadResult F :=
    ⟨false, 0.0, false, lib.rms (first :: rest), maxOf (absolute first) (rest.map absolute), false⟩
  obtain ⟨hpass, hempty, hsess, hinit, hadds⟩ :=
    reject_spec lib (v.heard lib buffer (first :: rest)) result rfl
  refine ⟨_, _, ?_, hpass, hempty, hsess, fun h => hinit ?_,
    ⟨hadds.webrtc, hadds.silero, hadds.speech⟩⟩
  · simp [processChunk, hloud, hsome, hrejects, result]
  · exact ⟨h.sess, h.sr, rfl, h.state, h.context, h.frames⟩

/-- Without a session the chunk passes and stays buffered. -/
theorem processChunk_of_unverified (hne : chunk ≠ []) (hloud : silent lib chunk = false)
    {buffer : List F} (hbuffer : v.audioBuffer = some buffer)
    (haccepts : v.webrtcSpeech lib chunk = true) (hsess : v.sileroSess = none) :
    ∃ result w, v.processChunk lib chunk = (.ok result, w) ∧
      w.audioBuffer = some (buffer ++ chunk) ∧ w.sileroSess = none := by
  obtain ⟨first, rest, rfl⟩ := List.exists_cons_of_ne_nil hne
  rw [silent] at hloud
  let result : VadResult F :=
    ⟨true, 0.0, false, lib.rms (first :: rest), maxOf (absolute first) (rest.map absolute), true⟩
  refine ⟨result, (v.heard lib buffer (first :: rest)).countSpeechPassed, ?_, rfl, hsess⟩
  have hnone : (v.heard lib buffer (first :: rest)).sileroSess = none := hsess
  simp only [processChunk, hloud, hbuffer, haccepts, hnone, Bool.false_eq_true, if_false, if_true,
    result]

/-- With a session the verifier drains the buffer, and the final gate decides. -/
theorem processChunk_of_accepted (hne : chunk ≠ []) (hloud : silent lib chunk = false)
    (haccepts : v.webrtcSpeech lib chunk = true) (h : v.Initialised) :
    ∃ result w, v.processChunk lib chunk = (.ok result, w) ∧ w.Initialised ∧
      w.buffered < segmentSamples ∧ Adds v w 0 (!result.pass).toNat result.pass.toNat := by
  obtain ⟨first, rest, rfl⟩ := List.exists_cons_of_ne_nil hne
  obtain ⟨buffer, hbuffer⟩ := Option.isSome_iff_exists.mp h.buffer
  obtain ⟨sess, hsess⟩ := Option.isSome_iff_exists.mp h.sess
  rw [silent] at hloud
  let listening := v.heard lib buffer (first :: rest)
  have hlistening : listening.Initialised := ⟨h.sess, h.sr, rfl, h.state, h.context, h.frames⟩
  let result : VadResult F :=
    ⟨true, 0.0, false, lib.rms (first :: rest), maxOf (absolute first) (rest.map absolute), false⟩
  obtain ⟨probs, drained, hdrain, hdrained, hless, hstats, -⟩ :=
    drain_of_initialised lib _ hlistening [] le_rfl
  obtain ⟨hadds, hsame, hinit⟩ := finalGate_spec drained probs result
  have hverify : listening.verify lib result =
      (.ok (drained.finalGate probs result).1, (drained.finalGate probs result).2) := by
    rw [buffered] at hdrain
    rw [verify, hdrain]
  refine ⟨(drained.finalGate probs result).1, _, ?_, hinit hdrained, ?_, ?_⟩
  · simp only [processChunk, hloud, hbuffer, haccepts, Bool.false_eq_true, if_false, if_true]
    rw [show (v.heard lib buffer (first :: rest)).sileroSess = some sess from hsess]
    exact hverify
  · rw [buffered, hsame]
    exact hless
  · exact ⟨hadds.webrtc.trans (by rw [hstats]; rfl), hadds.silero.trans (by rw [hstats]; rfl),
      hadds.speech.trans (by rw [hstats]; rfl)⟩

end HybridVAD

/-- Exact arithmetic on chunks whose samples all are 0 or all are 1, where the mean square
is its own root.  The prefilter always gives the same answer. -/
def fullScale (speech : Bool) : VadLib ℚ Unit Unit Unit where
  sqrt x := x
  size n := n
  int16 x := x.num.tdiv x.den
  newDetector _ := ()
  isSpeech _ _ _ := (some speech, ())
  zeroState := ()
  run _ _ _ _ := (0.9, ())

end Vad
end AvaListener
