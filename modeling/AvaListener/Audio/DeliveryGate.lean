import AvaListener.Audio.StreamRenewal

/-!
# The gate in front of the engine

The VAD does not gate feeding but delivery: a decoded result goes to the engine
during speech, and otherwise while the trailing pad is at most
`TRAILING_PAD_FRAMES`.  The pad counter never exceeds that bound, in any run, so
the second test lets everything through: between the end of the pad and the
silence timeout, and before any speech, a result is delivered whenever the
recogniser has one.
-/

namespace AvaListener
namespace Audio

open Library Config

/-! ## The pad counter -/

namespace AudioWorker

variable {κ : Type*} {w : AudioWorker κ} {i : ChunkInput κ}

/-- The pad stays within its bound, and a worker without a stream has not fed. -/
structure PadBounded (w : AudioWorker κ) : Prop where
  pad_le : w.trailingPad ≤ trailingPadFrames
  unfed : w.provider.stream = none → w.trailingPad = 0

theorem padBounded_init (start : ℚ) : PadBounded (init start : AudioWorker κ) where
  pad_le := Nat.zero_le _
  unfed := fun _ => rfl

theorem padBounded_resetStream (w : AudioWorker κ) (now : ℚ) : PadBounded (w.resetStream now) where
  pad_le := Nat.zero_le _
  unfed := fun _ => rfl

namespace PadBounded

theorem prepared (h : PadBounded w) (i : ChunkInput κ) : PadBounded (w.prepared i) := by
  obtain ⟨hpad, hprovider⟩ := prepared_frame w i
  refine ⟨hpad ▸ h.pad_le, ?_⟩
  intro hnone
  rw [hpad]
  rcases hprovider with hsame | hflush
  · exact h.unfed (hsame ▸ hnone)
  · exact h.unfed (SherpaProvider.stream_foldl_accept (hflush ▸ hnone))

/-- After feeding there is a stream. -/
theorem feed (h : PadBounded w) (i : ChunkInput κ) :
    (w.feed i).trailingPad ≤ trailingPadFrames ∧ (w.feed i).provider.stream ≠ none := by
  unfold AudioWorker.feed
  split
  · exact ⟨Nat.zero_le _, SherpaProvider.stream_accept _ _ _⟩
  · split
    next hlt => exact ⟨hlt, SherpaProvider.stream_accept _ _ _⟩
    next hfull =>
      -- A full pad has been fed, so there is a stream.
      refine ⟨h.pad_le, ?_⟩
      intro hnone
      rw [h.unfed hnone] at hfull
      exact hfull (by decide)

/-- **Delivery.**  Before the timeout a chunk is delivered exactly when the
recogniser has decoded something; the pad decides nothing. -/
theorem delivers_iff (h : PadBounded w) (i : ChunkInput κ) :
    (w.iterate i).2.isSome = true ↔ w.timesOut i = false ∧ i.decoded ≠ [] := by
  obtain ⟨hpad, hstream⟩ := (h.prepared i).feed i
  cases htime : w.timesOut i with
  | true => simp [AudioWorker.iterate, htime]
  | false =>
      have hresult : ((w.prepared i).feed i).provider.result i.decoded = i.decoded := by
        simp [SherpaProvider.result, hstream]
      simp only [AudioWorker.iterate, htime, AudioWorker.deliver, hresult]
      -- The guard on the pad holds by `hpad`, whether or not speech is active.
      by_cases hempty : i.decoded = []
      · simp [hempty]
      · simp [hempty, AudioWorker.track, hpad]

theorem iterate (h : PadBounded w) (i : ChunkInput κ) : PadBounded (w.iterate i).1 := by
  unfold AudioWorker.iterate
  split
  · split
    · exact padBounded_resetStream _ _
    · exact h.prepared i
  · obtain ⟨hpad, hstream⟩ := (h.prepared i).feed i
    obtain ⟨last, stable, peak, hdeliver⟩ :=
      AudioWorker.deliver_frame ((w.prepared i).feed i) i
    rw [hdeliver]
    exact ⟨hpad, fun hnone => absurd hnone hstream⟩

end PadBounded

end AudioWorker

/-! ## Runs -/

/-- A worker with the number of chunks processed since the last chunk of active
speech; `none` before any speech was confirmed. -/
structure GateRun (κ : Type*) where
  worker : AudioWorker κ
  sinceSpeech : Option ℕ

namespace GateRun

variable {κ : Type*}

def init (start : ℚ) : GateRun κ :=
  ⟨.init start, none⟩

/-- `effective_speech` of the iteration. -/
def effectiveSpeech (s : GateRun κ) (i : ChunkInput κ) : Bool :=
  (s.worker.prepared i).isSpeaking

def step (s : GateRun κ) : StreamEvent κ → Option (GateRun κ)
  | .chunk i =>
      some
        { worker := (s.worker.iterate i).1
          sinceSpeech := if s.effectiveSpeech i then some 0 else s.sinceSpeech.map (· + 1) }
  | .idle _ => some s
  | .reset now => some { s with worker := s.worker.resetStream now }

/-- The next chunk is one of the first `TRAILING_PAD_FRAMES` after speech. -/
def padding (s : GateRun κ) : Bool :=
  s.sinceSpeech.any (· < trailingPadFrames)

/-- A delivered chunk belongs to active speech or to its trailing pad. -/
def Gated (s : GateRun κ) : StreamEvent κ → Prop
  | .chunk i => (s.worker.iterate i).2.isSome = true → s.effectiveSpeech i = true ∨ s.padding = true
  | .idle _ => True
  | .reset _ => True

/-- Past the pad, and before any speech, the recogniser has no result for a
chunk that does not time out. -/
def QuietUndecoded (s : GateRun κ) : StreamEvent κ → Prop
  | .chunk i =>
      s.effectiveSpeech i = false → s.padding = false → s.worker.timesOut i = false →
        i.decoded = []
  | .idle _ => True
  | .reset _ => True

instance (s : GateRun κ) : ∀ e, Decidable (Gated s e)
  | .chunk i => inferInstanceAs (Decidable
      ((s.worker.iterate i).2.isSome = true → s.effectiveSpeech i = true ∨ s.padding = true))
  | .idle _ => inferInstanceAs (Decidable True)
  | .reset _ => inferInstanceAs (Decidable True)

theorem padBounded_step {s t : GateRun κ} {e : StreamEvent κ} (h : s.worker.PadBounded)
    (hstep : step s e = some t) : t.worker.PadBounded := by
  cases e with
  | chunk i =>
      obtain rfl := Option.some.inj hstep
      exact h.iterate i
  | idle now =>
      obtain rfl := Option.some.inj hstep
      exact h
  | reset now =>
      obtain rfl := Option.some.inj hstep
      exact AudioWorker.padBounded_resetStream _ _

theorem gated_iff_quietUndecoded {s : GateRun κ} (h : s.worker.PadBounded) (e : StreamEvent κ) :
    Gated s e ↔ QuietUndecoded s e := by
  cases e with
  | idle now => exact Iff.rfl
  | reset now => exact Iff.rfl
  | chunk i =>
      have hdelivers := h.delivers_iff i
      show ((s.worker.iterate i).2.isSome = true → _ ∨ _) ↔ (_ → _ → _ → i.decoded = [])
      rw [hdelivers]
      constructor
      · intro hgated hquiet hpast htime
        by_contra hdecoded
        rcases hgated ⟨htime, hdecoded⟩ with hspeech | hpad
        · simp [hspeech] at hquiet
        · simp [hpad] at hpast
      · rintro hundecoded ⟨htime, hdecoded⟩
        by_contra hneither
        obtain ⟨hquiet, hpast⟩ := not_or.mp hneither
        exact hdecoded (hundecoded (by simpa using hquiet) (by simpa using hpast) htime)

/-- **The delivery gate.**  In every run of the worker, hypotheses reach the
engine only during active speech and its trailing pad exactly when the recogniser
has no result at any chunk outside both that does not time out. -/
theorem deliveries_gated_iff (start : ℚ) (events : List (StreamEvent κ)) :
    MeetsAlong step Gated (init start) events ↔
      MeetsAlong step QuietUndecoded (init start) events := by
  have hkeep : ∀ (s : GateRun κ) e t, s.worker.PadBounded → step s e = some t →
      t.worker.PadBounded := fun _ _ _ h hstep => padBounded_step h hstep
  refine meetsAlong_congr step ?_ hkeep ?_
  · exact AudioWorker.padBounded_init start
  · intro s e h
    exact gated_iff_quietUndecoded h e

/-- A chunk of either kind with the recogniser's result at it. -/
def heard (pass : Bool) (decoded : Text) : StreamEvent Unit :=
  .chunk ⟨(), pass, decoded, 0⟩

/-- Three chunks of speech, then ten silent ones: speech ends at the eighth, the
pad with the ninth, and the tenth is delivered all the same. -/
theorem silence_after_pad_delivered :
    ¬ MeetsAlong step Gated (init 0)
      (List.replicate 3 (heard true "hey ava".toList) ++
        List.replicate 10 (heard false "hey ava".toList)) := by
  decide +kernel

end GateRun

end Audio
end AvaListener
