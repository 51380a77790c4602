import Mathlib.Logic.Relation
import AvaListener.Audio.Interleaving
import AvaListener.Audio.Iteration

/-!
# An iteration without the watchdog

The lines of the loop, run one after the other without a step of the watchdog between
them, are the iteration of `AudioWorker.iterate` (`iteration_alone`).  The fine steps
therefore describe the same loop, and the two models differ only in what another thread
may do between two lines.
-/

namespace AvaListener
namespace Audio

open Library Config

variable {κ : Type*}

/-- The worker's thread gets from one point to another on its own. -/
abbrev Reaches : Shared κ × Line κ → Shared κ × Line κ → Prop :=
  Relation.ReflTransGen fun a b => work a.1 none a.2 = b

/-- One line, then the rest. -/
theorem Reaches.line {s t : Shared κ} {l l' : Line κ} {b : Shared κ × Line κ}
    (hline : work s none l = (t, l')) (h : Reaches (t, l') b) : Reaches (s, l) b :=
  .head hline h

/-- The two models agree on the worker, and nothing was delivered in between. -/
structure Agrees (s t : Shared κ) (w : AudioWorker κ) : Prop where
  worker : t.toAudioWorker = w
  peakLength : t.peakLength = s.peakLength
  presented : t.presented = s.presented

/-! ## The stages of the loop -/

theorem reaches_flush (s : Shared κ) (i : ChunkInput κ) (pending : List κ) :
    ∃ t, Reaches (s, .flush i pending) (t, .clearBuffer i) ∧
      Agrees s t { s.toAudioWorker with
        provider := pending.foldl (fun p c => p.accept i.now c) s.provider } := by
  induction pending generalizing s with
  | nil => exact ⟨s, .single rfl, rfl, rfl, rfl⟩
  | cons chunk rest ih =>
      obtain ⟨t, hreach, hworker, hpeak, hpresented⟩ := ih (s.acceptChunk i.now chunk)
      exact ⟨t, .line rfl hreach, hworker, hpeak, hpresented⟩

/-- Counting the chunk, up to the read of `_is_speaking`. -/
theorem reaches_hysteresis (s : Shared κ) (i : ChunkInput κ) :
    ∃ t, Reaches (s, if i.pass then .countSpeech i else .countSilence i) (t, .readSpeaking i) ∧
      Agrees s t (s.toAudioWorker.hysteresis i) := by
  cases hpass : i.pass with
  | true =>
      let counted : Shared κ := { s with
        consecutiveSpeech := s.consecutiveSpeech + 1
        consecutiveSilence := 0 }
      by_cases hconfirms : minSpeechFrames ≤ s.consecutiveSpeech + 1 ∧ s.isSpeaking = false
      · have htest : work counted none (.testSpeech i) = (counted, .setSpeaking i) := by
          simp only [work]
          rw [if_pos hconfirms]
        have hconfirmed : s.toAudioWorker.confirmsSpeech i.pass = true := by
          simp [AudioWorker.confirmsSpeech, hpass, hconfirms]
        obtain ⟨t, hreach, hworker, hpeak, hpresented⟩ := reaches_flush
          { counted with isSpeaking := true, hasSpokenInGeneration := true } i s.preBuffer.chunks
        refine ⟨{ t with preBuffer := .empty }, ?_, ?_, hpeak, hpresented⟩
        · have hflushed := hreach.trans (.single rfl)
          exact .line rfl (.line rfl (.line htest (.line rfl (.line rfl hflushed))))
        · show { t.toAudioWorker with preBuffer := PreBuffer.empty } = _
          rw [hworker, AudioWorker.hysteresis, if_pos hpass, if_pos hconfirmed]
      · have htest : work counted none (.testSpeech i) = (counted, .readSpeaking i) := by
          simp only [work]
          rw [if_neg hconfirms]
        have hcounted : ¬ s.toAudioWorker.confirmsSpeech i.pass = true := by
          simpa [AudioWorker.confirmsSpeech, hpass] using hconfirms
        refine ⟨counted, .line rfl (.line rfl (.line htest .refl)), ?_, rfl, rfl⟩
        rw [AudioWorker.hysteresis, if_pos hpass, if_neg hcounted]
  | false =>
      let counted : Shared κ := { s with
        consecutiveSilence := s.consecutiveSilence + 1
        consecutiveSpeech := 0 }
      by_cases hends : minSilenceFrames ≤ s.consecutiveSilence + 1 ∧ s.isSpeaking = true
      · have htest : work counted none (.testSilence i) = (counted, .endSpeech i) := by
          simp only [work]
          rw [if_pos hends]
        refine ⟨{ counted with isSpeaking := false },
          .line rfl (.line rfl (.line htest (.single rfl))), ?_, rfl, rfl⟩
        have hlong := hends.1
        simp [AudioWorker.hysteresis, hpass, counted, hlong]
      · have htest : work counted none (.testSilence i) = (counted, .readSpeaking i) := by
          simp only [work]
          rw [if_neg hends]
        refine ⟨counted, .line rfl (.line rfl (.line htest .refl)), ?_, rfl, rfl⟩
        cases hspeaking : s.isSpeaking with
        | true =>
            have hshort : s.consecutiveSilence + 1 < minSilenceFrames := by
              by_contra hlong
              exact hends ⟨not_lt.mp hlong, hspeaking⟩
            simp [AudioWorker.hysteresis, hpass, counted, hspeaking, hshort]
        | false => simp [AudioWorker.hysteresis, hpass, counted, hspeaking]

/-- Up to the silence check, whose timeout is that of the last hypothesis. -/
theorem reaches_prepared (s : Shared κ) (i : ChunkInput κ) :
    ∃ t, Reaches (s, if i.pass then .countSpeech i else .countSilence i)
        (t, .testTimeout i t.isSpeaking (AudioWorker.silenceTimeout s.lastHypothesis)) ∧
      Agrees s t (s.toAudioWorker.prepared i) := by
  obtain ⟨t, hreach, hworker, hpeak, hpresented⟩ := reaches_hysteresis s i
  have hlast : t.lastHypothesis = s.lastHypothesis := by
    rw [hworker, AudioWorker.hysteresis]
    split
    · dsimp only
      split
      · rfl
      · rfl
    · rfl
  let kept : Shared κ :=
    if t.isSpeaking then t else { t with preBuffer := t.preBuffer.append i.chunk }
  have hkept : kept.isSpeaking = t.isSpeaking ∧ kept.lastHypothesis = s.lastHypothesis ∧
      Agrees s kept (s.toAudioWorker.prepared i) := by
    rw [AudioWorker.prepared, ← hworker, AudioWorker.retain]
    dsimp only [kept]
    split
    · exact ⟨rfl, hlast, rfl, hpeak, hpresented⟩
    · exact ⟨rfl, hlast, rfl, hpeak, hpresented⟩
  obtain ⟨hspeaking, hkeptLast, hagrees⟩ := hkept
  have hread : Reaches (t, .readSpeaking i)
      (kept, .testTimeout i t.isSpeaking (AudioWorker.silenceTimeout kept.lastHypothesis)) :=
    Reaches.line rfl (.single rfl)
  refine ⟨kept, hreach.trans ?_, hagrees⟩
  rw [hspeaking, ← hkeptLast]
  exact hread

/-- A reset, assignment by assignment. -/
theorem reaches_reset (s : Shared κ) (now : ℚ) :
    ∃ t, Reaches (s, .resetting now resetSteps) (t, .dequeue) ∧
      t.toAudioWorker = s.toAudioWorker.resetStream now ∧ t.peakLength = 0 ∧
        t.presented = s.presented := by
  have hsteps : ∀ (pending : List ResetStep) (s : Shared κ),
      Reaches (s, .resetting now pending)
        (pending.foldl (fun s w => s.reset now w) s, .dequeue) := by
    intro pending
    induction pending with
    | nil => exact fun s => .single rfl
    | cons w rest ih => exact fun s => .line rfl (ih (s.reset now w))
  exact ⟨_, hsteps resetSteps s, rfl, rfl, rfl⟩

/-- The silence branch: a reset if all its tests say so, else nothing. -/
theorem reaches_testReset (s : Shared κ) (i : ChunkInput κ) (timeout : ℕ)
    (hpeak : s.peakLength = s.peakHypothesis.length) :
    ∃ t, Reaches (s, .testReset i timeout) (t, .dequeue) ∧
      t.toAudioWorker =
        (if (s.consecutiveSilence = timeout ∧ s.hasSpokenInGeneration = true) ∧
            resetCooldownSeconds ≤ i.now - s.provider.lastResetTime then
          s.toAudioWorker.resetStream i.now else s.toAudioWorker) ∧
        t.peakLength = t.peakHypothesis.length ∧ t.presented = s.presented := by
  by_cases hreset : s.consecutiveSilence = timeout ∧ s.hasSpokenInGeneration = true
  · have hcounted : work s none (.testReset i timeout) = (s, .testCooldown i) := by
      simp only [work]
      rw [if_pos hreset]
    by_cases hcool : resetCooldownSeconds ≤ i.now - s.provider.lastResetTime
    · have hcooled : work s none (.testCooldown i) = (s, .resetting i.now resetSteps) := by
        simp only [work]
        rw [if_pos hcool]
      obtain ⟨t, hreach, hworker, hlength, hpresented⟩ := reaches_reset s i.now
      refine ⟨t, .line hcounted (.line hcooled hreach), ?_, ?_, hpresented⟩
      · rw [if_pos ⟨hreset, hcool⟩, hworker]
      · rw [hlength, hworker]
        rfl
    · have hcooled : work s none (.testCooldown i) = (s, .dequeue) := by
        simp only [work]
        rw [if_neg hcool]
      refine ⟨s, .line hcounted (.single hcooled), ?_, hpeak, rfl⟩
      rw [if_neg fun hall => hcool hall.2]
  · have hcounted : work s none (.testReset i timeout) = (s, .dequeue) := by
      simp only [work]
      rw [if_neg hreset]
    refine ⟨s, .single hcounted, ?_, hpeak, rfl⟩
    rw [if_neg fun hall => hreset hall.1]

/-- From the feeding to the read of the result. -/
theorem reaches_feed (s : Shared κ) (i : ChunkInput κ) :
    ∃ t, Reaches (s, .testFeed i s.isSpeaking) (t, .result i t.isSpeaking) ∧
      Agrees s t (s.toAudioWorker.feed i) := by
  by_cases hfeeds : s.isSpeaking = true ∨ s.trailingPad < trailingPadFrames
  · have htest : work s none (.testFeed i s.isSpeaking) = (s, .feed i s.isSpeaking) := by
      simp only [work]
      rw [if_pos hfeeds]
    refine ⟨_, .line htest (.line rfl (.line rfl .refl)), ?_, rfl, rfl⟩
    cases hspeaking : s.isSpeaking with
    | true => simp [AudioWorker.feed, hspeaking, Shared.acceptChunk]
    | false =>
        have hpad : s.trailingPad < trailingPadFrames := by
          rcases hfeeds with hspeech | hpad
          · rw [hspeaking] at hspeech
            cases hspeech
          · exact hpad
        simp [AudioWorker.feed, hspeaking, hpad, Shared.acceptChunk]
  · have htest : work s none (.testFeed i s.isSpeaking) = (s, .result i s.isSpeaking) := by
      simp only [work]
      rw [if_neg hfeeds]
    refine ⟨s, .line htest .refl, ?_, rfl, rfl⟩
    obtain ⟨hspeaking, hpad⟩ := not_or.mp hfeeds
    rw [AudioWorker.feed, if_neg hspeaking, if_neg hpad]

/-- Tracking, up to the read of the generation. -/
theorem reaches_track (s : Shared κ) (r : Held) (hpeak : s.peakLength = s.peakHypothesis.length) :
    ∃ t, Reaches (s, .testPeak r) (t, .readGeneration r) ∧
      t.toAudioWorker = s.toAudioWorker.track r.text ∧
        t.peakLength = t.peakHypothesis.length ∧ t.presented = s.presented := by
  have hpeaked : ∃ u, Reaches (s, .testPeak r) (u, .testStable r) ∧
      u.toAudioWorker = { s.toAudioWorker with
        peakHypothesis :=
          if s.peakHypothesis.length < r.text.length then r.text else s.peakHypothesis } ∧
        u.peakLength = u.peakHypothesis.length ∧ u.presented = s.presented := by
    by_cases hlonger : s.peakLength < r.text.length
    · have htest : work s none (.testPeak r) = (s, .setPeak r) := by
        simp only [work]
        rw [if_pos hlonger]
      refine ⟨_, .line htest (.line rfl (.single rfl)), ?_, rfl, rfl⟩
      rw [if_pos (hpeak ▸ hlonger)]
    · have htest : work s none (.testPeak r) = (s, .testStable r) := by
        simp only [work]
        rw [if_neg hlonger]
      refine ⟨s, .line htest .refl, ?_, hpeak, rfl⟩
      rw [if_neg (hpeak ▸ hlonger)]
  obtain ⟨u, hreach, hworker, hlength, hpresented⟩ := hpeaked
  have hlast : u.lastHypothesis = s.lastHypothesis := by rw [hworker]
  have hframes : u.stableFrames = s.stableFrames := by rw [hworker]
  by_cases hsame : r.text = u.lastHypothesis
  · have htest : work u none (.testStable r) = (u, .countStable r) := by
      simp only [work]
      rw [if_pos hsame]
    refine ⟨{ u with stableFrames := u.stableFrames + 1 },
      hreach.trans (Reaches.line htest (.single rfl)), ?_, hlength, hpresented⟩
    show { u.toAudioWorker with stableFrames := u.stableFrames + 1 } = _
    rw [AudioWorker.track, if_pos (hsame.trans hlast), hframes, hworker, hsame, hlast]
  · have htest : work u none (.testStable r) = (u, .clearStable r) := by
      simp only [work]
      rw [if_neg hsame]
    refine ⟨{ u with stableFrames := 0, lastHypothesis := r.text },
      hreach.trans (Reaches.line htest (.line rfl (.single rfl))), ?_, hlength, hpresented⟩
    show { u.toAudioWorker with stableFrames := 0, lastHypothesis := r.text } = _
    rw [AudioWorker.track, if_neg (hlast ▸ hsame), hworker]

/-- From the read of the result to the next chunk. -/
theorem reaches_deliver (s : Shared κ) (i : ChunkInput κ)
    (hpeak : s.peakLength = s.peakHypothesis.length) :
    ∃ t, Reaches (s, .result i s.isSpeaking) (t, .dequeue) ∧
      t.toAudioWorker = (s.toAudioWorker.deliver i).1 ∧
        t.peakLength = t.peakHypothesis.length ∧
          t.presented.map Prod.fst =
            s.presented.map Prod.fst ++ (s.toAudioWorker.deliver i).2.toList := by
  by_cases hresult : s.provider.result i.decoded = []
  · have hread : work s none (.result i s.isSpeaking) = (s, .dequeue) := by
      simp only [work]
      rw [if_pos hresult]
    refine ⟨s, .single hread, ?_, hpeak, ?_⟩
    · simp [AudioWorker.deliver, hresult]
    · simp [AudioWorker.deliver, hresult]
  · let r : Held := ⟨s.provider.result i.decoded, s.isSpeaking, s.createdIn⟩
    have hread : work s none (.result i s.isSpeaking) = (s, .testPeak r) := by
      simp only [work]
      rw [if_neg hresult]
    obtain ⟨t, hreach, hworker, hlength, hpresented⟩ := reaches_track s r hpeak
    have hfields : t.trailingPad = s.trailingPad ∧ t.provider = s.provider := by
      rw [hworker]
      exact ⟨rfl, rfl⟩
    by_cases hgate : s.isSpeaking = true ∨ s.trailingPad ≤ trailingPadFrames
    · have hpresent : work t none (.present r t.provider.generationId) =
          ({ t with presented := t.presented ++
              [(⟨r.text, t.stableFrames, t.peakHypothesis, t.provider.generationId⟩,
                r.decodedFrom)] }, .dequeue) := by
        simp only [work]
        rw [if_pos (hfields.1 ▸ hgate)]
      have hdeliver : s.toAudioWorker.deliver i = (t.toAudioWorker,
          some ⟨r.text, t.stableFrames, t.peakHypothesis, t.provider.generationId⟩) := by
        rw [hworker, AudioWorker.deliver]
        simp only [if_neg hresult]
        exact if_pos hgate
      refine ⟨_, .line hread (hreach.trans (Reaches.line rfl (.single hpresent))), ?_, hlength, ?_⟩
      · rw [hdeliver]
      · rw [hdeliver, List.map_append, hpresented]
        rfl
    · have hpresent : work t none (.present r t.provider.generationId) = (t, .dequeue) := by
        simp only [work]
        rw [if_neg (hfields.1 ▸ hgate)]
      have hdeliver : s.toAudioWorker.deliver i = (t.toAudioWorker, none) := by
        rw [hworker, AudioWorker.deliver]
        simp only [if_neg hresult]
        exact if_neg hgate
      refine ⟨t, .line hread (hreach.trans (Reaches.line rfl (.single hpresent))), ?_, hlength, ?_⟩
      · rw [hdeliver]
      · rw [hdeliver, hpresented]
        exact (List.append_nil _).symm

/-! ## The iteration -/

/-- **The same iteration.**  Undisturbed, the lines take the worker from one chunk to the
next as `iterate` does, with the same delivery. -/
theorem iteration_alone (s : Shared κ) (i : ChunkInput κ)
    (hpeak : s.peakLength = s.peakHypothesis.length) :
    ∃ t, Reaches (s, if i.pass then .countSpeech i else .countSilence i) (t, .dequeue) ∧
      t.toAudioWorker = (s.toAudioWorker.iterate i).1 ∧
        t.peakLength = t.peakHypothesis.length ∧
          t.presented.map Prod.fst =
            s.presented.map Prod.fst ++ (s.toAudioWorker.iterate i).2.toList := by
  obtain ⟨u, hprepared, hworker, hlength, hpresented⟩ := reaches_prepared s i
  have hkept : (s.toAudioWorker.prepared i).peakHypothesis = s.peakHypothesis ∧
      (s.toAudioWorker.prepared i).lastHypothesis = s.lastHypothesis := by
    unfold AudioWorker.prepared AudioWorker.retain AudioWorker.hysteresis
    dsimp only
    repeat' split
    all_goals exact ⟨rfl, rfl⟩
  have hupeak : u.peakLength = u.peakHypothesis.length := by
    rw [hlength, hpeak, hworker, hkept.1]
  have hulast : u.lastHypothesis = s.lastHypothesis := by rw [hworker, hkept.2]
  cases htime : s.toAudioWorker.timesOut i with
  | true =>
      have hlong : AudioWorker.silenceTimeout s.lastHypothesis ≤ u.consecutiveSilence := by
        rw [hworker]
        exact of_decide_eq_true htime
      have htest : work u none
          (.testTimeout i u.isSpeaking (AudioWorker.silenceTimeout s.lastHypothesis)) =
            (u, .testReset i (AudioWorker.silenceTimeout s.lastHypothesis)) := by
        simp only [work]
        rw [if_pos hlong]
      have hresets : s.toAudioWorker.resetsStream i = true ↔
          (u.consecutiveSilence = AudioWorker.silenceTimeout s.lastHypothesis ∧
            u.hasSpokenInGeneration = true) ∧
              resetCooldownSeconds ≤ i.now - u.provider.lastResetTime := by
        rw [AudioWorker.resetsStream, htime, ← hworker, AudioWorker.inactivityReset, hulast]
        simp [and_assoc]
      obtain ⟨t, hreach, htworker, htlength, htpresented⟩ := reaches_testReset u i _ hupeak
      refine ⟨t, hprepared.trans (Reaches.line htest hreach), ?_, htlength, ?_⟩
      · rw [AudioWorker.iterate, htime, if_pos rfl, htworker, ← hworker]
        exact if_congr hresets.symm rfl rfl
      · rw [AudioWorker.iterate, htime, if_pos rfl, htpresented, hpresented]
        exact (List.append_nil _).symm
  | false =>
      have hshort : ¬ AudioWorker.silenceTimeout s.lastHypothesis ≤ u.consecutiveSilence := by
        rw [hworker]
        exact of_decide_eq_false htime
      have htest : work u none
          (.testTimeout i u.isSpeaking (AudioWorker.silenceTimeout s.lastHypothesis)) =
            (u, .testFeed i u.isSpeaking) := by
        simp only [work]
        rw [if_neg hshort]
      obtain ⟨v, hfeed, hvworker, hvlength, hvpresented⟩ := reaches_feed u i
      have hvpeak : v.peakLength = v.peakHypothesis.length := by
        obtain ⟨provider, pad, hframe⟩ := AudioWorker.feed_frame u.toAudioWorker i
        rw [hvlength, hupeak, hvworker, hframe]
      obtain ⟨t, hdeliver, htworker, htlength, htpresented⟩ := reaches_deliver v i hvpeak
      refine ⟨t, hprepared.trans (Reaches.line htest (hfeed.trans hdeliver)), ?_, htlength, ?_⟩
      · rw [htworker, hvworker, hworker, AudioWorker.iterate, htime, if_neg (by simp)]
      · rw [htpresented, hvpresented, hpresented, hvworker, hworker, AudioWorker.iterate, htime,
          if_neg (by simp)]

/-- What the worker's thread reaches on its own, a schedule of its steps does. -/
theorem exists_schedule_of_reaches {s t : Shared κ} {l l' : Line κ}
    (h : Reaches (s, l) (t, l')) (watchdog : List ResetStep) :
    ∃ n, execute Threads.step ⟨s, l, watchdog⟩ (List.replicate n (.work none)) =
      some ⟨t, l', watchdog⟩ := by
  suffices hall : ∀ a b : Shared κ × Line κ, Reaches a b →
      ∃ n, execute Threads.step ⟨a.1, a.2, watchdog⟩ (List.replicate n (.work none)) =
        some ⟨b.1, b.2, watchdog⟩ from hall (s, l) (t, l') h
  intro a b hreach
  induction hreach using Relation.ReflTransGen.head_induction_on with
  | refl => exact ⟨0, rfl⟩
  | head hline _ ih =>
      obtain ⟨n, hn⟩ := ih
      subst hline
      exact ⟨n + 1, hn⟩

end Audio
end AvaListener
