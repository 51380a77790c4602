import AvaListener.Audio.Worker

/-!
# One iteration of the worker

What each stage of `AudioWorker.iterate` leaves alone, and what a silent chunk can
do: count, and beyond the timeout reset the stream or be dropped.
-/

namespace AvaListener
namespace Audio

open Library Config

variable {κ : Type*}

namespace SherpaProvider

theorem stream_accept (p : SherpaProvider κ) (now : ℚ) (chunk : κ) :
    (p.accept now chunk).stream ≠ none := by
  cases h : p.stream with
  | none => simp [accept, h]
  | some fed => simp [accept, h]

theorem stream_foldl_accept {p : SherpaProvider κ} {now : ℚ} {chunks : List κ}
    (h : (chunks.foldl (fun p c => p.accept now c) p).stream = none) : p.stream = none := by
  induction chunks generalizing p with
  | nil => exact h
  | cons c rest ih => exact absurd (ih h) (stream_accept p now c)

end SherpaProvider

namespace AudioWorker

/-! ## Frames -/

/-- Tracking and delivery leave the feeding state alone. -/
theorem deliver_frame (w : AudioWorker κ) (i : ChunkInput κ) :
    ∃ last stable peak, (w.deliver i).1 =
      { w with
        lastHypothesis := last
        stableFrames := stable
        peakHypothesis := peak } := by
  unfold deliver
  dsimp only
  split
  · exact ⟨_, _, _, rfl⟩
  · split
    · exact ⟨_, _, _, rfl⟩
    · exact ⟨_, _, _, rfl⟩

/-- Feeding moves the provider and the pad only. -/
theorem feed_frame (w : AudioWorker κ) (i : ChunkInput κ) :
    ∃ provider pad, w.feed i = { w with provider := provider, trailingPad := pad } := by
  unfold feed
  split
  · exact ⟨_, _, rfl⟩
  · split
    · exact ⟨_, _, rfl⟩
    · exact ⟨_, _, rfl⟩

theorem silenceTimeout_le (last : Text) : silenceTimeout last ≤ 25 := by
  unfold silenceTimeout
  split
  · omega
  · omega

theorem silenceTimeout_ge (last : Text) : 18 ≤ silenceTimeout last := by
  unfold silenceTimeout
  split
  · omega
  · omega

variable {w : AudioWorker κ} {i : ChunkInput κ}

theorem timesOut_of_silence (h : (w.prepared i).consecutiveSilence < 18) :
    w.timesOut i = false := by
  have hge := silenceTimeout_ge w.lastHypothesis
  simp only [timesOut, decide_eq_false_iff_not]
  omega

/-- A chunk that does not time out leaves the speech state as hysteresis left it. -/
theorem iterate_of_not_timesOut (h : w.timesOut i = false) :
    (w.iterate i).1.hasSpokenInGeneration = (w.prepared i).hasSpokenInGeneration ∧
      (w.iterate i).1.consecutiveSilence = (w.prepared i).consecutiveSilence := by
  obtain ⟨provider, pad, hfeed⟩ := feed_frame (w.prepared i) i
  obtain ⟨last, stable, peak, hdeliver⟩ :=
    deliver_frame ((w.prepared i).feed i) i
  have hiterate : (w.iterate i).1 = (((w.prepared i).feed i).deliver i).1 := by
    simp [iterate, h]
  rw [hiterate, hdeliver, hfeed]
  exact ⟨rfl, rfl⟩

/-! ## Speech and silence -/

theorem prepared_speech (h : i.pass = true) : (w.prepared i).consecutiveSilence = 0 := by
  unfold prepared hysteresis retain
  rw [if_pos h]
  dsimp only
  split
  · split
    · rfl
    · rfl
  · split
    · rfl
    · rfl

theorem hysteresis_silent (h : i.pass = false) :
    w.hysteresis i =
      { w with
        consecutiveSilence := w.consecutiveSilence + 1
        consecutiveSpeech := 0
        isSpeaking := w.isSpeaking ∧ w.consecutiveSilence + 1 < minSilenceFrames } := by
  unfold hysteresis
  rw [if_neg (by simp [h])]

/-- A silent chunk counts, and leaves the generation as it was. -/
theorem prepared_silent (h : i.pass = false) :
    ∃ speaking kept, w.prepared i =
      { w with
        consecutiveSilence := w.consecutiveSilence + 1
        consecutiveSpeech := 0
        isSpeaking := speaking
        preBuffer := kept } := by
  unfold prepared retain
  rw [hysteresis_silent h]
  split
  · exact ⟨_, _, rfl⟩
  · exact ⟨_, _, rfl⟩

theorem timesOut_silent (h : i.pass = false) :
    w.timesOut i = true ↔
      silenceTimeout w.lastHypothesis ≤ w.consecutiveSilence + 1 := by
  obtain ⟨speaking, kept, hprepared⟩ := prepared_silent (w := w) h
  simp [timesOut, hprepared]

/-- What decides the reset at a silent chunk. -/
theorem resetsStream_silent (h : i.pass = false)
    (htime : silenceTimeout w.lastHypothesis ≤ w.consecutiveSilence + 1) :
    w.resetsStream i = true ↔
      w.consecutiveSilence + 1 = silenceTimeout w.lastHypothesis ∧
        w.hasSpokenInGeneration = true ∧
          resetCooldownSeconds ≤ i.now - w.provider.lastResetTime := by
  obtain ⟨speaking, kept, hprepared⟩ := prepared_silent (w := w) h
  simp [resetsStream, (timesOut_silent h).mpr htime, inactivityReset,
    hprepared]

/-- Hysteresis and the pre-roll buffer leave the pad alone, and feed at most a
flush. -/
theorem prepared_frame (w : AudioWorker κ) (i : ChunkInput κ) :
    (w.prepared i).trailingPad = w.trailingPad ∧
      ((w.prepared i).provider = w.provider ∨
        (w.prepared i).provider =
          w.preBuffer.chunks.foldl (fun p c => p.accept i.now c) w.provider) := by
  cases hpass : i.pass with
  | false =>
      obtain ⟨speaking, kept, hprepared⟩ := prepared_silent (w := w) hpass
      rw [hprepared]
      exact ⟨rfl, Or.inl rfl⟩
  | true =>
      unfold prepared hysteresis retain
      rw [if_pos hpass]
      dsimp only
      -- Only the confirmation of speech touches the provider, by its flush.
      by_cases hconfirms : w.confirmsSpeech i.pass = true
      · rw [if_pos hconfirms]
        exact ⟨rfl, Or.inr rfl⟩
      · rw [if_neg hconfirms]
        split
        · exact ⟨rfl, Or.inl rfl⟩
        · exact ⟨rfl, Or.inl rfl⟩

end AudioWorker

end Audio
end AvaListener
