import Mathlib.Data.List.DropRight
import AvaListener.Config.Defaults
import AvaListener.Library.PyText

/-!
# The audio worker

`runtime/audio/worker.py` and the stream ownership of
`runtime/asr/providers/sherpa.py`: speech hysteresis over VAD decisions, the
pre-roll buffer, the trailing pad, the inactivity reset, and the tracking of the
decoded hypothesis.

The recogniser is not modelled: an iteration is given the text it decodes.  An
`OnlineStream` is the list of chunks it accepted.  One clock reading stands for
the readings of an iteration.  Durations, correlation ids, counters for the
watchdog and the life-cycle machines only feed logs and are left out.
-/

namespace AvaListener
namespace Audio

open Library Config

/-! ## The provider -/

/-- `SherpaProvider`; `stream` holds the chunks accepted since its creation. -/
structure SherpaProvider (κ : Type*) where
  stream : Option (List κ)
  streamStartTime : ℚ
  lastResetTime : ℚ
  resetCount : ℕ
  generationId : ℕ

namespace SherpaProvider

variable {κ : Type*}

def init (start : ℚ) : SherpaProvider κ :=
  ⟨none, start, start, 0, 0⟩

/-- `reset`: a new stream and a new generation. -/
def reset (p : SherpaProvider κ) (now : ℚ) : SherpaProvider κ :=
  ⟨some [], now, now, p.resetCount + 1, p.generationId + 1⟩

/-- `accept`: creates a stream if there is none. -/
def accept (p : SherpaProvider κ) (now : ℚ) (chunk : κ) : SherpaProvider κ :=
  match p.stream with
  | some fed => { p with stream := some (fed ++ [chunk]) }
  | none => { p.reset now with stream := some [chunk] }

/-- What the current stream has accepted. -/
def accepted (p : SherpaProvider κ) : List κ :=
  p.stream.getD []

/-- `result`, on the text the recogniser decodes. -/
def result (p : SherpaProvider κ) (decoded : Text) : Text :=
  if p.stream.isNone then [] else decoded

@[simp] theorem accepted_init (start : ℚ) : (init start : SherpaProvider κ).accepted = [] := rfl

@[simp] theorem accepted_reset (p : SherpaProvider κ) (now : ℚ) : (p.reset now).accepted = [] :=
  rfl

@[simp] theorem accepted_accept (p : SherpaProvider κ) (now : ℚ) (chunk : κ) :
    (p.accept now chunk).accepted = p.accepted ++ [chunk] := by
  cases h : p.stream with
  | none => simp [accept, accepted, h]
  | some fed => simp [accept, accepted, h]

@[simp] theorem accepted_foldl_accept (p : SherpaProvider κ) (now : ℚ) (chunks : List κ) :
    (chunks.foldl (fun p c => p.accept now c) p).accepted = p.accepted ++ chunks := by
  induction chunks generalizing p with
  | nil => simp
  | cons c rest ih => simp [ih]

end SherpaProvider

/-! ## The pre-roll buffer -/

/-- `deque(maxlen=5)`. -/
structure PreBuffer (κ : Type*) where
  chunks : List κ
  bounded : chunks.length ≤ preBufferLen

namespace PreBuffer

variable {κ : Type*}

def empty : PreBuffer κ := ⟨[], Nat.zero_le _⟩

/-- `append`: the oldest chunk is dropped from a full deque. -/
def append (b : PreBuffer κ) (chunk : κ) : PreBuffer κ where
  chunks := (b.chunks ++ [chunk]).rtake preBufferLen
  bounded := by
    rw [List.rtake, List.length_drop]
    omega

@[simp] theorem chunks_empty : (empty : PreBuffer κ).chunks = [] := rfl

/-- Seen from the back, an append is a push in front of at most four chunks. -/
theorem reverse_append (b : PreBuffer κ) (chunk : κ) :
    (b.append chunk).chunks.reverse = (chunk :: b.chunks.reverse).take preBufferLen := by
  simp [append, List.rtake_eq_reverse_take_reverse]

theorem append_sublist (b : PreBuffer κ) (chunk : κ) :
    (b.append chunk).chunks.Sublist (b.chunks ++ [chunk]) :=
  List.drop_sublist _ _

end PreBuffer

/-! ## The worker -/

/-- The speech state and frame state of `AudioWorker`, with its provider. -/
structure AudioWorker (κ : Type*) where
  isSpeaking : Bool
  consecutiveSpeech : ℕ
  consecutiveSilence : ℕ
  hasSpokenInGeneration : Bool
  trailingPad : ℕ
  lastHypothesis : Text
  stableFrames : ℕ
  /-- Longest result of the generation; `_peak_length` is its length. -/
  peakHypothesis : Text
  preBuffer : PreBuffer κ
  provider : SherpaProvider κ

/-- What one iteration takes from outside: the chunk, the VAD's decision, the
text decoded after feeding, and the clock. -/
structure ChunkInput (κ : Type*) where
  chunk : κ
  pass : Bool
  decoded : Text
  now : ℚ

/-- The arguments of one `on_hypothesis` call. -/
structure Delivery where
  text : Text
  stability : ℕ
  peak : Text
  generationId : ℕ
  deriving DecidableEq

namespace AudioWorker

variable {κ : Type*}

def init (start : ℚ) : AudioWorker κ where
  isSpeaking := false
  consecutiveSpeech := 0
  consecutiveSilence := 0
  hasSpokenInGeneration := false
  trailingPad := 0
  lastHypothesis := []
  stableFrames := 0
  peakHypothesis := []
  preBuffer := .empty
  provider := .init start

/-- `reset_state`.  The pre-roll buffer is kept. -/
def resetState (w : AudioWorker κ) : AudioWorker κ :=
  { w with
    isSpeaking := false
    consecutiveSpeech := 0
    consecutiveSilence := 0
    hasSpokenInGeneration := false
    trailingPad := 0
    lastHypothesis := []
    stableFrames := 0
    peakHypothesis := [] }

/-- A stream reset, of the loop itself or from outside: provider first, then the
worker's speech state. -/
def resetStream (w : AudioWorker κ) (now : ℚ) : AudioWorker κ :=
  { w with provider := w.provider.reset now }.resetState

/-- The chunk confirms speech: enough consecutive passes outside speech. -/
def confirmsSpeech (w : AudioWorker κ) (pass : Bool) : Bool :=
  pass ∧ minSpeechFrames ≤ w.consecutiveSpeech + 1 ∧ ¬ w.isSpeaking

/-- Speech state hysteresis, with the flush of the pre-roll buffer where speech
is confirmed. -/
def hysteresis (w : AudioWorker κ) (i : ChunkInput κ) : AudioWorker κ :=
  if i.pass then
    let counted := { w with
      consecutiveSpeech := w.consecutiveSpeech + 1
      consecutiveSilence := 0 }
    if w.confirmsSpeech i.pass then
      { counted with
        isSpeaking := true
        hasSpokenInGeneration := true
        provider := w.preBuffer.chunks.foldl (fun p c => p.accept i.now c) w.provider
        preBuffer := .empty }
    else counted
  else
    { w with
      consecutiveSilence := w.consecutiveSilence + 1
      consecutiveSpeech := 0
      isSpeaking := w.isSpeaking ∧ w.consecutiveSilence + 1 < minSilenceFrames }

/-- A chunk outside speech goes to the pre-roll buffer. -/
def retain (w : AudioWorker κ) (chunk : κ) : AudioWorker κ :=
  if w.isSpeaking then w else { w with preBuffer := w.preBuffer.append chunk }

/-- Hypotheses that look like the start of a wake phrase. -/
def partialTokens : List Text :=
  ["wake".toList, "listen".toList, "hey".toList, "ar".toList, "arv".toList, "arbe".toList,
    "wake up".toList]

/-- Consecutive silent chunks after which feeding stops. -/
def silenceTimeout (lastHypothesis : Text) : ℕ :=
  if partialTokens.any fun tok => occursIn tok lastHypothesis then 25 else 18

/-- The inactivity reset is tried at one value of the counter only. -/
def inactivityReset (w : AudioWorker κ) (now : ℚ) : Bool :=
  w.consecutiveSilence = silenceTimeout w.lastHypothesis ∧ w.hasSpokenInGeneration ∧
    resetCooldownSeconds ≤ now - w.provider.lastResetTime

/-- Feed the chunk during speech or as trailing pad. -/
def feed (w : AudioWorker κ) (i : ChunkInput κ) : AudioWorker κ :=
  if w.isSpeaking then { w with provider := w.provider.accept i.now i.chunk, trailingPad := 0 }
  else if w.trailingPad < trailingPadFrames then
    { w with
      provider := w.provider.accept i.now i.chunk
      trailingPad := w.trailingPad + 1 }
  else w

/-- Peak and stability tracking of a decoded result. -/
def track (w : AudioWorker κ) (result : Text) : AudioWorker κ :=
  { w with
    peakHypothesis :=
      if w.peakHypothesis.length < result.length then result else w.peakHypothesis
    stableFrames := if result = w.lastHypothesis then w.stableFrames + 1 else 0
    lastHypothesis := result }

/-- Tracking and delivery of the decoded result. -/
def deliver (w : AudioWorker κ) (i : ChunkInput κ) : AudioWorker κ × Option Delivery :=
  let result := w.provider.result i.decoded
  if result = [] then (w, none)
  else
    let w := w.track result
    if w.isSpeaking ∨ w.trailingPad ≤ trailingPadFrames then
      (w, some ⟨result, w.stableFrames, w.peakHypothesis, w.provider.generationId⟩)
    else (w, none)

/-- The worker before the silence check. -/
def prepared (w : AudioWorker κ) (i : ChunkInput κ) : AudioWorker κ :=
  (w.hysteresis i).retain i.chunk

/-- The chunk ends in the silence branch, which neither feeds nor decodes. -/
def timesOut (w : AudioWorker κ) (i : ChunkInput κ) : Bool :=
  silenceTimeout w.lastHypothesis ≤ (w.prepared i).consecutiveSilence

/-- The chunk ends in the silence branch and resets the stream. -/
def resetsStream (w : AudioWorker κ) (i : ChunkInput κ) : Bool :=
  w.timesOut i ∧ (w.prepared i).inactivityReset i.now

/-- One iteration of `_run` on a dequeued chunk. -/
def iterate (w : AudioWorker κ) (i : ChunkInput κ) : AudioWorker κ × Option Delivery :=
  if w.timesOut i then
    (if w.resetsStream i then (w.prepared i).resetStream i.now else w.prepared i, none)
  else ((w.prepared i).feed i).deliver i

end AudioWorker

end Audio
end AvaListener
