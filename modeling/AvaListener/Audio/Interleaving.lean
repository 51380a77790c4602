import AvaListener.Audio.Worker
import AvaListener.Library.Runs

/-!
# The worker and the watchdog

The loop of `AudioWorker._run` cut at every provider call and every write of a field,
with the watchdog's thread in `_reset_stream` between any two of these steps.

Each hypothesis is presented under the generation read after its text was decoded.  The
run keeps the generation of the stream that the text comes from, and the question is
whether the two are the same.  They are unless the watchdog replaces the stream between
the two reads, and then they never are (`presented_matches_iff`).
-/

namespace AvaListener
namespace Audio

open Library Config

variable {κ : Type*}

/-! ## The steps of a reset -/

/-- What `_reset_stream` and `_do_stream_reset` do one after the other: the provider's
`reset`, then the assignments of `reset_state`. -/
inductive ResetStep where
  | provider
  | isSpeaking
  | consecutiveSpeech
  | consecutiveSilence
  | hasSpokenInGeneration
  | trailingPad
  | lastHypothesis
  | stableFrames
  | peakHypothesis
  | peakLength
  deriving DecidableEq

def resetSteps : List ResetStep :=
  [.provider, .isSpeaking, .consecutiveSpeech, .consecutiveSilence, .hasSpokenInGeneration,
    .trailingPad, .lastHypothesis, .stableFrames, .peakHypothesis, .peakLength]

/-- What both threads work on.  `_peak_length` is a field of its own here, as the two are
not written together. -/
structure Shared (κ : Type*) extends AudioWorker κ where
  peakLength : ℕ
  /-- The generation in which the present stream was created. -/
  createdIn : ℕ
  /-- The deliveries, each with the generation of the stream its text was decoded from. -/
  presented : List (Delivery × ℕ)

namespace Shared

def init (start : ℚ) : Shared κ where
  toAudioWorker := .init start
  peakLength := 0
  createdIn := 0
  presented := []

def acceptChunk (s : Shared κ) (now : ℚ) (chunk : κ) : Shared κ :=
  { s with
    provider := s.provider.accept now chunk
    createdIn :=
      if s.provider.stream.isNone then (s.provider.reset now).generationId else s.createdIn }

def reset (s : Shared κ) (now : ℚ) : ResetStep → Shared κ
  | .provider =>
      { s with
        provider := s.provider.reset now
        createdIn := (s.provider.reset now).generationId }
  | .isSpeaking => { s with isSpeaking := false }
  | .consecutiveSpeech => { s with consecutiveSpeech := 0 }
  | .consecutiveSilence => { s with consecutiveSilence := 0 }
  | .hasSpokenInGeneration => { s with hasSpokenInGeneration := false }
  | .trailingPad => { s with trailingPad := 0 }
  | .lastHypothesis => { s with lastHypothesis := [] }
  | .stableFrames => { s with stableFrames := 0 }
  | .peakHypothesis => { s with peakHypothesis := [] }
  | .peakLength => { s with peakLength := 0 }

end Shared

/-! ## The lines of the loop -/

/-- The local variables after `result()`: `result` and `effective_speech`, with the
generation of the stream that was asked. -/
structure Held where
  text : Text
  speech : Bool
  decodedFrom : ℕ

/-- Where the worker's thread is. -/
inductive Line (κ : Type*) where
  | dequeue
  -- speech state hysteresis
  | countSpeech (i : ChunkInput κ)
  | clearSilence (i : ChunkInput κ)
  | testSpeech (i : ChunkInput κ)
  | setSpeaking (i : ChunkInput κ)
  | setSpoken (i : ChunkInput κ)
  | flush (i : ChunkInput κ) (pending : List κ)
  | clearBuffer (i : ChunkInput κ)
  | countSilence (i : ChunkInput κ)
  | clearSpeech (i : ChunkInput κ)
  | testSilence (i : ChunkInput κ)
  | endSpeech (i : ChunkInput κ)
  | readSpeaking (i : ChunkInput κ)
  -- silence timeout
  | readTimeout (i : ChunkInput κ) (speech : Bool)
  | testTimeout (i : ChunkInput κ) (speech : Bool) (timeout : ℕ)
  | testReset (i : ChunkInput κ) (timeout : ℕ)
  | testCooldown (i : ChunkInput κ)
  | resetting (now : ℚ) (pending : List ResetStep)
  -- feeding and decoding
  | testFeed (i : ChunkInput κ) (speech : Bool)
  | feed (i : ChunkInput κ) (speech : Bool)
  | pad (i : ChunkInput κ) (speech : Bool)
  | result (i : ChunkInput κ) (speech : Bool)
  -- tracking
  | testPeak (r : Held)
  | setPeak (r : Held)
  | setPeakLength (r : Held)
  | testStable (r : Held)
  | countStable (r : Held)
  | clearStable (r : Held)
  | setLast (r : Held)
  -- delivery
  | readGeneration (r : Held)
  | present (r : Held) (generation : ℕ)

/-- The result of a line between `result()` and the read of `generation_id`. -/
def Line.held : Line κ → Option Held
  | .testPeak r | .setPeak r | .setPeakLength r | .testStable r | .countStable r
  | .clearStable r | .setLast r | .readGeneration r => some r
  | _ => none

/-- One step of the worker's thread.  `wake` is the clock of a reset that the engine makes
inside `on_hypothesis`. -/
def work (s : Shared κ) (wake : Option ℚ) : Line κ → Shared κ × Line κ
  | .dequeue => (s, .dequeue)
  | .countSpeech i => ({ s with consecutiveSpeech := s.consecutiveSpeech + 1 }, .clearSilence i)
  | .clearSilence i => ({ s with consecutiveSilence := 0 }, .testSpeech i)
  | .testSpeech i =>
      (s, if minSpeechFrames ≤ s.consecutiveSpeech ∧ s.isSpeaking = false then .setSpeaking i
        else .readSpeaking i)
  | .setSpeaking i => ({ s with isSpeaking := true }, .setSpoken i)
  | .setSpoken i => ({ s with hasSpokenInGeneration := true }, .flush i s.preBuffer.chunks)
  | .flush i [] => (s, .clearBuffer i)
  | .flush i (chunk :: rest) => (s.acceptChunk i.now chunk, .flush i rest)
  | .clearBuffer i => ({ s with preBuffer := .empty }, .readSpeaking i)
  | .countSilence i => ({ s with consecutiveSilence := s.consecutiveSilence + 1 }, .clearSpeech i)
  | .clearSpeech i => ({ s with consecutiveSpeech := 0 }, .testSilence i)
  | .testSilence i =>
      (s, if minSilenceFrames ≤ s.consecutiveSilence ∧ s.isSpeaking = true then .endSpeech i
        else .readSpeaking i)
  | .endSpeech i => ({ s with isSpeaking := false }, .readSpeaking i)
  | .readSpeaking i =>
      (if s.isSpeaking then s else { s with preBuffer := s.preBuffer.append i.chunk },
        .readTimeout i s.isSpeaking)
  | .readTimeout i speech =>
      (s, .testTimeout i speech (AudioWorker.silenceTimeout s.lastHypothesis))
  | .testTimeout i speech timeout =>
      (s, if timeout ≤ s.consecutiveSilence then .testReset i timeout else .testFeed i speech)
  | .testReset i timeout =>
      (s, if s.consecutiveSilence = timeout ∧ s.hasSpokenInGeneration = true then .testCooldown i
        else .dequeue)
  | .testCooldown i =>
      (s, if resetCooldownSeconds ≤ i.now - s.provider.lastResetTime then
          .resetting i.now resetSteps
        else .dequeue)
  | .resetting _ [] => (s, .dequeue)
  | .resetting now (w :: rest) => (s.reset now w, .resetting now rest)
  | .testFeed i speech =>
      (s, if speech = true ∨ s.trailingPad < trailingPadFrames then .feed i speech
        else .result i speech)
  | .feed i speech => (s.acceptChunk i.now i.chunk, .pad i speech)
  | .pad i speech =>
      ({ s with trailingPad := if speech then 0 else s.trailingPad + 1 }, .result i speech)
  | .result i speech =>
      (s, if s.provider.result i.decoded = [] then .dequeue
        else .testPeak ⟨s.provider.result i.decoded, speech, s.createdIn⟩)
  | .testPeak r => (s, if s.peakLength < r.text.length then .setPeak r else .testStable r)
  | .setPeak r => ({ s with peakHypothesis := r.text }, .setPeakLength r)
  | .setPeakLength r => ({ s with peakLength := r.text.length }, .testStable r)
  | .testStable r => (s, if r.text = s.lastHypothesis then .countStable r else .clearStable r)
  | .countStable r => ({ s with stableFrames := s.stableFrames + 1 }, .readGeneration r)
  | .clearStable r => ({ s with stableFrames := 0 }, .setLast r)
  | .setLast r => ({ s with lastHypothesis := r.text }, .readGeneration r)
  | .readGeneration r => (s, .present r s.provider.generationId)
  | .present r generation =>
      if r.speech = true ∨ s.trailingPad ≤ trailingPadFrames then
        ({ s with
            presented := s.presented ++
              [(⟨r.text, s.stableFrames, s.peakHypothesis, generation⟩, r.decodedFrom)] },
          match wake with
          | some now => .resetting now resetSteps
          | none => .dequeue)
      else (s, .dequeue)

/-! ## The two threads -/

/-- The two threads: where the worker is, and what is left of the watchdog's reset. -/
structure Threads (κ : Type*) where
  shared : Shared κ
  line : Line κ
  watchdog : List ResetStep

inductive ThreadStep (κ : Type*) where
  /-- The worker dequeues a chunk. -/
  | take (i : ChunkInput κ)
  | work (wake : Option ℚ)
  /-- The watchdog calls `_reset_stream`. -/
  | recover
  | watchdog (now : ℚ)

namespace Threads

def init (start : ℚ) : Threads κ :=
  ⟨.init start, .dequeue, []⟩

def step (s : Threads κ) : ThreadStep κ → Option (Threads κ)
  | .take i =>
      match s.line with
      | .dequeue => some { s with line := if i.pass then .countSpeech i else .countSilence i }
      | _ => none
  | .work wake =>
      some { s with shared := (Audio.work s.shared wake s.line).1
                    line := (Audio.work s.shared wake s.line).2 }
  | .recover => if s.watchdog = [] then some { s with watchdog := resetSteps } else none
  | .watchdog now =>
      match s.watchdog with
      | [] => none
      | w :: rest => some { s with shared := s.shared.reset now w, watchdog := rest }

/-- Every delivery is labelled with the generation of the stream it was decoded from. -/
def PresentedMatches (s : Threads κ) : Prop :=
  ∀ p ∈ s.shared.presented, p.1.generationId = p.2

/-- The step does not have the watchdog replace the stream while the worker holds a result
of it and has not read the generation. -/
def KeepsStream (s : Threads κ) : ThreadStep κ → Prop
  | .watchdog _ => s.watchdog.head? = some .provider → s.line.held.isNone
  | _ => True

instance (s : Threads κ) : Decidable s.PresentedMatches :=
  inferInstanceAs (Decidable (∀ p ∈ s.shared.presented, _))

instance (s : Threads κ) : ∀ l, Decidable (s.KeepsStream l)
  | .watchdog _ => inferInstanceAs (Decidable (_ → _))
  | .take _ | .work _ | .recover => inferInstanceAs (Decidable True)

end Threads

/-! ## What a step of the worker does -/

namespace Shared

/-- The present stream is one of the present generation. -/
def Created (s : Shared κ) : Prop :=
  s.provider.stream ≠ none → s.createdIn = s.provider.generationId

/-- The stream may be replaced, by one of a later generation. -/
structure Renews (s t : Shared κ) : Prop where
  created : s.Created → t.Created
  generation : s.provider.generationId ≤ t.provider.generationId

theorem Renews.of_same {s t : Shared κ} (hprovider : t.provider = s.provider)
    (hcreated : t.createdIn = s.createdIn) : Renews s t where
  created h := by
    unfold Created
    rw [hprovider, hcreated]
    exact h
  generation := by rw [hprovider]

theorem renews_acceptChunk (s : Shared κ) (now : ℚ) (chunk : κ) :
    Renews s (s.acceptChunk now chunk) := by
  cases hstream : s.provider.stream with
  | none =>
      refine ⟨fun _ _ => ?_, ?_⟩
      · simp [acceptChunk, SherpaProvider.accept, hstream]
      · simp [acceptChunk, SherpaProvider.accept, SherpaProvider.reset, hstream]
  | some fed =>
      refine ⟨fun h _ => ?_, ?_⟩
      · have hcreated : s.createdIn = s.provider.generationId := h (by simp [hstream])
        simpa [acceptChunk, SherpaProvider.accept, hstream] using hcreated
      · simp [acceptChunk, SherpaProvider.accept, hstream]

theorem renews_reset (s : Shared κ) (now : ℚ) (w : ResetStep) : Renews s (s.reset now w) := by
  cases w with
  | provider => exact ⟨fun _ _ => rfl, Nat.le_succ _⟩
  | _ => exact .of_same rfl rfl

end Shared

/-- Neither a result nor a generation is held. -/
def Line.holdsNothing : Line κ → Bool
  | .present .. => false
  | l => l.held.isNone

theorem Line.held_of_holdsNothing {l : Line κ} (h : l.holdsNothing = true) : l.held = none := by
  cases l with
  | present r generation => rfl
  | _ => exact Option.isNone_iff_eq_none.mp h

/-- The kinds of steps of the worker, by what they do to the held result. -/
inductive Worked (s : Shared κ) : Line κ → Shared κ × Line κ → Prop where
  | elsewhere {l l' : Line κ} {t : Shared κ} (hline : l.holdsNothing = true)
      (hnext : l'.holdsNothing = true) (hrenews : s.Renews t)
      (hpresented : t.presented = s.presented) : Worked s l (t, l')
  | decoded {l l' : Line κ} {r : Held} (hline : l.holdsNothing = true) (hnext : l'.held = some r)
      (hstream : s.provider.stream ≠ none) (hfrom : r.decodedFrom = s.createdIn) :
      Worked s l (s, l')
  | tracked {l l' : Line κ} {t : Shared κ} {r : Held} (hline : l.held = some r)
      (hnext : l'.held = some r) (hprovider : t.provider = s.provider)
      (hcreated : t.createdIn = s.createdIn) (hpresented : t.presented = s.presented) :
      Worked s l (t, l')
  | read {l : Line κ} {r : Held} (hline : l.held = some r) :
      Worked s l (s, .present r s.provider.generationId)
  | presented {l' : Line κ} {t : Shared κ} {r : Held} {generation : ℕ} {d : Delivery}
      (hnext : l'.holdsNothing = true) (hprovider : t.provider = s.provider)
      (hcreated : t.createdIn = s.createdIn) (hlabel : d.generationId = generation)
      (hpresented : t.presented = s.presented ++ [(d, r.decodedFrom)]) :
      Worked s (.present r generation) (t, l')
  | dropped {l' : Line κ} {r : Held} {generation : ℕ} (hnext : l'.holdsNothing = true)
      (hpad : trailingPadFrames < s.trailingPad) : Worked s (.present r generation) (s, l')

/-- A line away from the results that writes fields of the worker, or none. -/
theorem Worked.plain {s t : Shared κ} {l l' : Line κ} (hline : l.holdsNothing = true)
    (hnext : l'.holdsNothing = true) (hprovider : t.provider = s.provider)
    (hcreated : t.createdIn = s.createdIn) (hpresented : t.presented = s.presented) :
    Worked s l (t, l') :=
  .elsewhere hline hnext (.of_same hprovider hcreated) hpresented

theorem worked (s : Shared κ) (wake : Option ℚ) (l : Line κ) : Worked s l (work s wake l) := by
  cases l with
  | flush i pending =>
      cases pending with
      | nil => exact .plain rfl rfl rfl rfl rfl
      | cons chunk rest => exact .elsewhere rfl rfl (s.renews_acceptChunk _ _) rfl
  | resetting now pending =>
      cases pending with
      | nil => exact .plain rfl rfl rfl rfl rfl
      | cons w rest =>
          refine .elsewhere rfl rfl (s.renews_reset now w) ?_
          cases w with
          | _ => rfl
  | feed i speech => exact .elsewhere rfl rfl (s.renews_acceptChunk _ _) rfl
  | testSpeech i | testSilence i | testTimeout i speech timeout | testReset i timeout
  | testCooldown i | testFeed i speech =>
      simp only [work]
      split
      · exact .plain rfl rfl rfl rfl rfl
      · exact .plain rfl rfl rfl rfl rfl
  | readSpeaking i =>
      simp only [work]
      split
      · exact .plain rfl rfl rfl rfl rfl
      · exact .plain rfl rfl rfl rfl rfl
  | result i speech =>
      simp only [work]
      split
      next => exact .plain rfl rfl rfl rfl rfl
      next hresult =>
        refine .decoded rfl rfl ?_ rfl
        intro hnone
        exact hresult (by simp [SherpaProvider.result, hnone])
  | testPeak r | testStable r =>
      simp only [work]
      split
      · exact .tracked rfl rfl rfl rfl rfl
      · exact .tracked rfl rfl rfl rfl rfl
  | setPeak r | setPeakLength r | countStable r | clearStable r | setLast r =>
      exact .tracked rfl rfl rfl rfl rfl
  | readGeneration r => exact .read rfl
  | present r generation =>
      simp only [work]
      split
      next =>
        cases wake with
        | none => exact .presented rfl rfl rfl rfl rfl
        | some now => exact .presented rfl rfl rfl rfl rfl
      next hpad => exact .dropped rfl (not_le.mp fun hle => hpad (.inr hle))
  | _ => exact .plain rfl rfl rfl rfl rfl

/-! ## Matching labels -/

namespace Threads

/-- The held result is of the present stream, and the held generation of the result's. -/
structure Matches (s : Threads κ) : Prop where
  created : s.shared.Created
  held : ∀ r, s.line.held = some r → r.decodedFrom = s.shared.provider.generationId
  read : ∀ r generation, s.line = .present r generation → generation = r.decodedFrom
  presented : s.PresentedMatches

theorem matches_init (start : ℚ) : Matches (init start : Threads κ) where
  created h := absurd rfl h
  held r h := by cases h
  read r generation h := by cases h
  presented p h := by cases h

/-- A state whose line holds nothing matches if its stream and its deliveries do. -/
theorem matches_of_holdsNothing {s : Threads κ} (hline : s.line.holdsNothing = true)
    (hcreated : s.shared.Created) (hpresented : s.PresentedMatches) : Matches s where
  created := hcreated
  held r h := by
    rw [Line.held_of_holdsNothing hline] at h
    cases h
  read r generation h := by
    rw [h] at hline
    cases hline
  presented := hpresented

theorem Matches.work {s : Threads κ} (h : Matches s) {t : Shared κ} {l : Line κ}
    (hworked : Worked s.shared s.line (t, l)) : Matches { s with shared := t, line := l } := by
  obtain ⟨shared, line, watchdog⟩ := s
  cases hworked with
  | elsewhere hline hnext hrenews hpresented =>
      apply matches_of_holdsNothing hnext (hrenews.created h.created)
      intro p hp
      exact h.presented p (hpresented ▸ hp)
  | decoded hline hnext hstream hfrom =>
      refine ⟨h.created, ?_, ?_, h.presented⟩
      · intro r hr
        obtain rfl := Option.some.inj (hnext.symm.trans hr)
        exact hfrom.trans (h.created hstream)
      · intro r generation hl
        obtain rfl : l = .present r generation := hl
        cases hnext
  | tracked hline hnext hprovider hcreated hpresented =>
      refine ⟨(Shared.Renews.of_same hprovider hcreated).created h.created, ?_, ?_, ?_⟩
      · intro r hr
        obtain rfl := Option.some.inj (hnext.symm.trans hr)
        rw [h.held _ hline]
        exact congrArg SherpaProvider.generationId hprovider.symm
      · intro r generation hl
        obtain rfl : l = .present r generation := hl
        cases hnext
      · intro p hp
        exact h.presented p (hpresented ▸ hp)
  | read hline =>
      refine ⟨h.created, ?_, ?_, h.presented⟩
      · intro r hr
        cases hr
      · intro r generation hl
        obtain ⟨rfl, rfl⟩ := Line.present.inj hl
        exact (h.held _ hline).symm
  | presented hnext hprovider hcreated hlabel hpresented =>
      apply matches_of_holdsNothing hnext
        ((Shared.Renews.of_same hprovider hcreated).created h.created)
      intro p hp
      rw [hpresented] at hp
      rcases List.mem_append.mp hp with hold | hnew
      · exact h.presented p hold
      · obtain rfl := List.mem_singleton.mp hnew
        exact hlabel.trans (h.read _ _ rfl)
  | dropped hnext hpad => exact matches_of_holdsNothing hnext h.created h.presented

/-- The watchdog's steps keep the deliveries. -/
theorem presented_reset (s : Shared κ) (now : ℚ) (w : ResetStep) :
    (s.reset now w).presented = s.presented := by
  cases w with
  | _ => rfl

/-- A step of the watchdog that keeps the stream keeps the provider. -/
theorem provider_reset (s : Shared κ) (now : ℚ) {w : ResetStep} (hw : w ≠ .provider) :
    (s.reset now w).provider = s.provider := by
  cases w with
  | provider => exact absurd rfl hw
  | _ => rfl

theorem Matches.reset {s : Threads κ} (h : Matches s) (now : ℚ) (w : ResetStep)
    (rest : List ResetStep) (hkeeps : w = .provider → s.line.held.isNone) :
    Matches { s with shared := s.shared.reset now w, watchdog := rest } where
  created := (s.shared.renews_reset now w).created h.created
  held r hr := by
    have hw : w ≠ .provider := by
      intro hw
      rw [show s.line.held = some r from hr] at hkeeps
      exact absurd (hkeeps hw) (by simp)
    rw [show r.decodedFrom = _ from h.held r hr]
    exact congrArg SherpaProvider.generationId (provider_reset s.shared now hw).symm
  read := h.read
  presented p hp := h.presented p (presented_reset s.shared now w ▸ hp)

theorem Matches.step {s t : Threads κ} {l : ThreadStep κ} (h : Matches s) (hkeeps : s.KeepsStream l)
    (hstep : step s l = some t) : Matches t := by
  cases l with
  | take i =>
      simp only [Threads.step] at hstep
      split at hstep
      next hline =>
        obtain rfl := Option.some.inj hstep
        refine matches_of_holdsNothing ?_ h.created h.presented
        cases i.pass with
        | true => rfl
        | false => rfl
      next => cases hstep
  | work wake =>
      obtain rfl := Option.some.inj hstep
      exact h.work (worked s.shared wake s.line)
  | recover =>
      simp only [Threads.step] at hstep
      split at hstep
      next =>
        obtain rfl := Option.some.inj hstep
        exact ⟨h.created, h.held, h.read, h.presented⟩
      next => cases hstep
  | watchdog now =>
      simp only [Threads.step] at hstep
      split at hstep
      next => cases hstep
      next w rest hpending =>
        obtain rfl := Option.some.inj hstep
        apply h.reset
        intro hw
        apply hkeeps
        rw [hpending, hw, List.head?_cons]

/-- **Runs that keep the stream.**  If the watchdog never replaces the stream between the
worker's `result()` and its read of `generation_id`, every delivery of the run is of the
stream of its generation. -/
theorem presented_matches_of_keepsStream (start : ℚ) (schedule : List (ThreadStep κ))
    (h : MeetsAlong step KeepsStream (init start) schedule) :
    Always step PresentedMatches (init start) schedule :=
  always_of_meetsAlong step (matches_init start) (fun _ hs => hs.presented)
    (fun _ _ _ hs hkeeps hstep => hs.step hkeeps hstep) h

/-- A chunk of silence with the text decoded after it. -/
def hearing (text : String) : ChunkInput ℕ :=
  ⟨0, false, text.toList, 0⟩

/-- The text of every delivery, its label, and the generation it is from. -/
def labels (s : Threads κ) : List (Text × ℕ × ℕ) :=
  s.shared.presented.map fun p => (p.1.text, p.1.generationId, p.2)

/-- One chunk, a reset by the watchdog, and the same words in the next stream. -/
theorem reset_between_chunks :
    Always step PresentedMatches (init 0)
      ([ThreadStep.take (hearing "go")] ++ List.replicate 20 (ThreadStep.work none) ++
        [ThreadStep.recover] ++ List.replicate 10 (ThreadStep.watchdog 0) ++
        [ThreadStep.take (hearing "go")] ++ List.replicate 20 (ThreadStep.work none)) :=
  presented_matches_of_keepsStream 0 _ (by decide +kernel)

/-- The watchdog's reset between `result()` and `generation_id`: the words presented in the
first generation are presented again as words of the second. -/
theorem old_words_under_new_generation :
    let schedule : List (ThreadStep ℕ) :=
      [ThreadStep.take (hearing "go")] ++ List.replicate 20 (ThreadStep.work none) ++
        [ThreadStep.take (hearing "go")] ++ List.replicate 10 (ThreadStep.work none) ++
        [ThreadStep.recover] ++ List.replicate 10 (ThreadStep.watchdog 0) ++
          List.replicate 10 (ThreadStep.work none)
    (execute step (init 0) schedule).map labels =
        some [("go".toList, 1, 1), ("go".toList, 2, 1)] ∧
      ¬ Always step PresentedMatches (init 0) schedule := by
  decide +kernel

/-! ## A replaced stream -/

/-- The lines between the test of the pad and its write. -/
def feeds : Line κ → Bool
  | .feed .. | .pad .. => true
  | _ => false

/-- The pad within its bound, strictly where it is about to be counted. -/
structure PadKept (s : Threads κ) : Prop where
  pad_le : s.shared.trailingPad ≤ trailingPadFrames
  padding : ∀ i, s.line = .feed i false ∨ s.line = .pad i false →
    s.shared.trailingPad < trailingPadFrames

theorem padKept_of_le {s : Threads κ} (hline : feeds s.line = false)
    (hpad : s.shared.trailingPad ≤ trailingPadFrames) : PadKept s where
  pad_le := hpad
  padding i h := by
    rcases h with h | h
    · rw [h] at hline
      cases hline
    · rw [h] at hline
      cases hline

theorem PadKept.work {s : Threads κ} (h : PadKept s) (wake : Option ℚ) :
    PadKept { s with
      shared := (Audio.work s.shared wake s.line).1
      line := (Audio.work s.shared wake s.line).2 } := by
  obtain ⟨shared, line, watchdog⟩ := s
  have hpad : shared.trailingPad ≤ trailingPadFrames := h.pad_le
  cases line with
  | pad i speech =>
      apply padKept_of_le rfl
      cases speech with
      | true => exact Nat.zero_le _
      | false => exact h.padding i (.inr rfl)
  | testFeed i speech =>
      simp only [Audio.work]
      split
      next htest =>
        refine ⟨hpad, ?_⟩
        intro j hj
        rcases hj with hj | hj
        · obtain ⟨rfl, rfl⟩ := Line.feed.inj hj
          rcases htest with htest | htest
          · cases htest
          · exact htest
        · cases hj
      next => exact padKept_of_le rfl hpad
  | feed i speech =>
      refine ⟨hpad, ?_⟩
      intro j hj
      rcases hj with hj | hj
      · cases hj
      · obtain ⟨rfl, rfl⟩ := Line.pad.inj hj
        exact h.padding i (.inl rfl)
  | resetting now pending =>
      cases pending with
      | nil => exact padKept_of_le rfl hpad
      | cons w rest =>
          apply padKept_of_le rfl
          cases w with
          | trailingPad => exact Nat.zero_le _
          | _ => exact hpad
  | flush i pending =>
      cases pending with
      | _ => exact padKept_of_le rfl hpad
  | present r generation =>
      cases wake with
      | _ =>
          simp only [Audio.work]
          split
          · exact padKept_of_le rfl hpad
          · exact padKept_of_le rfl hpad
  | testSpeech i | testSilence i | testTimeout i speech timeout | testReset i timeout
  | testCooldown i | readSpeaking i | result i speech | testPeak r | testStable r =>
      simp only [Audio.work]
      split
      · exact padKept_of_le rfl hpad
      · exact padKept_of_le rfl hpad
  | _ => exact padKept_of_le rfl hpad

theorem PadKept.step {s t : Threads κ} {l : ThreadStep κ} (h : PadKept s)
    (hstep : step s l = some t) : PadKept t := by
  cases l with
  | take i =>
      simp only [Threads.step] at hstep
      split at hstep
      next hline =>
        obtain rfl := Option.some.inj hstep
        refine padKept_of_le ?_ h.pad_le
        cases i.pass with
        | true => rfl
        | false => rfl
      next => cases hstep
  | work wake =>
      obtain rfl := Option.some.inj hstep
      exact h.work wake
  | recover =>
      simp only [Threads.step] at hstep
      split at hstep
      next =>
        obtain rfl := Option.some.inj hstep
        exact ⟨h.pad_le, h.padding⟩
      next => cases hstep
  | watchdog now =>
      simp only [Threads.step] at hstep
      split at hstep
      next => cases hstep
      next w rest hpending =>
        obtain rfl := Option.some.inj hstep
        cases w with
        | trailingPad =>
            refine ⟨Nat.zero_le _, fun _ _ => ?_⟩
            show 0 < trailingPadFrames
            decide
        | _ => exact ⟨h.pad_le, h.padding⟩

/-- A wrong label was given, or will be: the worker holds a result of an earlier stream. -/
inductive Mislabels (s : Threads κ) : Prop where
  | presented (h : ¬ s.PresentedMatches)
  | held (r : Held) (hheld : s.line.held = some r)
      (hearlier : r.decodedFrom < s.shared.provider.generationId)
  | read (r : Held) (generation : ℕ) (hline : s.line = .present r generation)
      (hearlier : r.decodedFrom < generation)

/-- Between two results, a wrong label is one that was given. -/
theorem Mislabels.not_presentedMatches {s : Threads κ} (hline : s.line.holdsNothing = true)
    (h : Mislabels s) : ¬ s.PresentedMatches := by
  cases h with
  | presented h => exact h
  | held r hheld hearlier =>
      rw [Line.held_of_holdsNothing hline] at hheld
      cases hheld
  | read r generation hl hearlier =>
      rw [hl] at hline
      cases hline

theorem Mislabels.work {s : Threads κ} (hpad : s.shared.trailingPad ≤ trailingPadFrames)
    (h : Mislabels s) {t : Shared κ} {l : Line κ} (hworked : Worked s.shared s.line (t, l)) :
    Mislabels { s with shared := t, line := l } := by
  have hkept : ¬ s.PresentedMatches → s.shared.presented <+: t.presented →
      Mislabels { s with shared := t, line := l } := by
    intro hwrong hextends
    exact .presented fun hmatches => hwrong fun p hp => hmatches p (hextends.subset hp)
  obtain ⟨shared, line, watchdog⟩ := s
  cases hworked with
  | elsewhere hline hnext hrenews hpresented =>
      exact hkept (h.not_presentedMatches hline) (hpresented ▸ List.prefix_refl _)
  | decoded hline hnext hstream hfrom =>
      exact hkept (h.not_presentedMatches hline) (List.prefix_refl _)
  | tracked hline hnext hprovider hcreated hpresented =>
      cases h with
      | presented h => exact hkept h (hpresented ▸ List.prefix_refl _)
      | held r hheld hearlier =>
          obtain rfl := Option.some.inj (hline.symm.trans hheld)
          refine .held _ hnext ?_
          rw [show t.provider = shared.provider from hprovider]
          exact hearlier
      | read r generation hl hearlier =>
          obtain rfl : line = .present r generation := hl
          cases hline
  | read hline =>
      cases h with
      | presented h => exact .presented h
      | held r hheld hearlier =>
          obtain rfl := Option.some.inj (hline.symm.trans hheld)
          exact .read _ _ rfl hearlier
      | read r generation hl hearlier =>
          obtain rfl : line = .present r generation := hl
          cases hline
  | presented hnext hprovider hcreated hlabel hpresented =>
      cases h with
      | presented h => exact hkept h (hpresented ▸ List.prefix_append _ _)
      | held r hheld hearlier => cases hheld
      | read r generation hl hearlier =>
          obtain ⟨rfl, rfl⟩ := Line.present.inj hl
          refine .presented fun hmatches => ?_
          have hlast := hmatches _ (hpresented ▸ List.mem_append_right _ (List.mem_singleton_self _))
          exact absurd (hlabel.symm.trans hlast) (Nat.ne_of_gt hearlier)
  | dropped hnext hfull => exact absurd hpad (not_le.mpr hfull)

theorem Mislabels.step {s t : Threads κ} {l : ThreadStep κ} (hpad : PadKept s) (h : Mislabels s)
    (hstep : step s l = some t) : Mislabels t := by
  cases l with
  | take i =>
      simp only [Threads.step] at hstep
      split at hstep
      next hline =>
        obtain rfl := Option.some.inj hstep
        have hwrong : ¬ s.PresentedMatches := by
          apply h.not_presentedMatches
          rw [hline]
          rfl
        exact .presented hwrong
      next => cases hstep
  | work wake =>
      obtain rfl := Option.some.inj hstep
      exact h.work hpad.pad_le (worked s.shared wake s.line)
  | recover =>
      simp only [Threads.step] at hstep
      split at hstep
      next =>
        obtain rfl := Option.some.inj hstep
        cases h with
        | presented h => exact .presented h
        | held r hheld hearlier => exact .held r hheld hearlier
        | read r generation hl hearlier => exact .read r generation hl hearlier
      next => cases hstep
  | watchdog now =>
      simp only [Threads.step] at hstep
      split at hstep
      next => cases hstep
      next w rest hpending =>
        obtain rfl := Option.some.inj hstep
        cases h with
        | presented h =>
            refine .presented fun hmatches => h fun p hp => hmatches p ?_
            exact presented_reset s.shared now w ▸ hp
        | held r hheld hearlier =>
            exact .held r hheld (hearlier.trans_le (s.shared.renews_reset now w).generation)
        | read r generation hl hearlier => exact .read r generation hl hearlier

/-- Replacing the stream of a held result makes its label wrong. -/
theorem mislabels_of_not_keepsStream {s t : Threads κ} {l : ThreadStep κ} (h : Matches s)
    (hkeeps : ¬ s.KeepsStream l) (hstep : step s l = some t) : Mislabels t := by
  cases l with
  | take i => exact absurd trivial hkeeps
  | work wake => exact absurd trivial hkeeps
  | recover => exact absurd trivial hkeeps
  | watchdog now =>
      obtain ⟨hhead, hheld⟩ := Classical.not_imp.mp hkeeps
      obtain ⟨rest, hpending⟩ := List.head?_eq_some_iff.mp hhead
      obtain ⟨r, hr⟩ := Option.ne_none_iff_exists'.mp
        (fun hnone => hheld (Option.isNone_iff_eq_none.mpr hnone))
      simp only [Threads.step, hpending, Option.some.injEq] at hstep
      subst hstep
      refine .held r hr ?_
      rw [h.held r hr]
      exact Nat.lt_succ_self _

/-- **Exactly these runs**, among those that end with no result under way. -/
theorem presented_matches_iff (start : ℚ) {schedule : List (ThreadStep κ)} {t : Threads κ}
    (hrun : execute step (init start) schedule = some t) (hidle : t.line.holdsNothing = true) :
    t.PresentedMatches ↔ MeetsAlong step KeepsStream (init start) schedule := by
  constructor
  · intro hmatches
    refine meetsAlong_of_unharmed step (fun s => Matches s ∧ PadKept s)
      (fun s => Mislabels s ∧ PadKept s)
      ⟨matches_init start, padKept_of_le rfl (Nat.zero_le _)⟩
      (fun _ _ _ hs hkeeps hstep => ⟨hs.1.step hkeeps hstep, hs.2.step hstep⟩)
      (fun _ _ _ hs hmiss hstep =>
        ⟨mislabels_of_not_keepsStream hs.1 hmiss hstep, hs.2.step hstep⟩)
      (fun _ _ _ hs hstep => ⟨hs.1.step hs.2 hstep, hs.2.step hstep⟩) hrun ?_
    rintro ⟨hwrong, -⟩
    exact hwrong.not_presentedMatches hidle hmatches
  · intro hmeets
    exact always_final step (presented_matches_of_keepsStream start schedule hmeets) hrun

end Threads

end Audio
end AvaListener
