import AvaListener.Library.Runs
import AvaListener.Vad.HybridVAD

/-!
# The samples that stay buffered

With a Silero session every call finds its attributes assigned and leaves less than one
segment in the buffer.  Where the model file is missing, `__init__` never calls
`reset_state`: the first chunk that is not silent finds no buffer.  Once `reset_state` has
been called, the chunks that the prefilter accepts stay in the buffer, which nothing but
a rejected chunk or another `reset_state` empties.
-/

namespace AvaListener
namespace Vad

open Library HybridVAD

variable {F Detector Session Tensor : Type} [FloatOps F]

/-- The detector, and what the last call raised. -/
structure VadRun (F Detector Session Tensor : Type) where
  vad : HybridVAD F Detector Session Tensor
  raised : Option VadError

namespace VadRun

section Steps

variable (lib : VadLib F Detector Session Tensor)

def start (created : Option Session) : VadRun F Detector Session Tensor :=
  ⟨HybridVAD.init lib created, none⟩

/-- One call.  An empty chunk is refused. -/
def step (s : VadRun F Detector Session Tensor) :
    VadCall F → Option (VadRun F Detector Session Tensor)
  | .processChunk chunk =>
      if chunk.isEmpty then none
      else
        match s.vad.processChunk lib chunk with
        | (.error e, v) => some ⟨v, some e⟩
        | (.ok _, v) => some ⟨v, none⟩
  | .resetState => some ⟨s.vad.resetState lib, none⟩

/-- The last call raised nothing and left less than a segment. -/
structure Sound (s : VadRun F Detector Session Tensor) : Prop where
  quiet : s.raised = none
  short : s.vad.buffered < segmentSamples

omit [FloatOps F] in
theorem sound_iff (s : VadRun F Detector Session Tensor) :
    s.Sound ↔ s.raised = none ∧ s.vad.buffered < segmentSamples :=
  ⟨fun h => ⟨h.quiet, h.short⟩, fun h => ⟨h.1, h.2⟩⟩

instance (s : VadRun F Detector Session Tensor) : Decidable s.Sound :=
  decidable_of_iff _ (sound_iff s).symm

/-- There is a session, or the chunk is silent, or the buffer has been assigned and still
has room for the chunk if the prefilter accepts it. -/
def HasRoom (s : VadRun F Detector Session Tensor) : VadCall F → Prop
  | .processChunk chunk =>
      s.vad.sileroSess.isSome = true ∨ silent lib chunk = true ∨
        ∃ buffer ∈ s.vad.audioBuffer,
          s.vad.webrtcSpeech lib chunk = true → buffer.length + chunk.length < segmentSamples
  | .resetState => True

instance (s : VadRun F Detector Session Tensor) : ∀ call, Decidable (s.HasRoom lib call)
  | .processChunk chunk => inferInstanceAs (Decidable (_ ∨ _ ∨ ∃ buffer ∈ s.vad.audioBuffer,
      s.vad.webrtcSpeech lib chunk = true → buffer.length + chunk.length < segmentSamples))
  | .resetState => inferInstanceAs (Decidable True)

/-- A session is either missing or fully set up. -/
structure Kept (s : VadRun F Detector Session Tensor) : Prop where
  sound : s.Sound
  sess : s.vad.sileroSess = none ∨ s.vad.Initialised

end Steps

variable {lib : VadLib F Detector Session Tensor} {s t : VadRun F Detector Session Tensor}
  {chunk : List F}

theorem kept_start (created : Option Session) : (start lib created).Kept := by
  cases created with
  | none => exact ⟨⟨rfl, buffered_lt_of_empty rfl⟩, .inl rfl⟩
  | some sess =>
      have hempty : (HybridVAD.init lib (some sess)).audioBuffer.getD [] = [] := by
        simp only [HybridVAD.init, resetState_audioBuffer, Option.getD_some]
      exact ⟨⟨rfl, buffered_lt_of_empty hempty⟩, .inr (initialised_init sess)⟩

/-! ## One call -/

theorem kept_resetState (h : s.Kept) : Kept ⟨s.vad.resetState lib, none⟩ := by
  refine ⟨⟨rfl, buffered_lt_of_empty ?_⟩, ?_⟩
  · rw [resetState_audioBuffer, Option.getD_some]
  · rcases h.sess with hnone | hinit
    · exact .inl (resetState_frame.1.trans hnone)
    · exact .inr (initialised_resetState hinit.sess hinit.sr)

theorem step_of_ok (hne : chunk ≠ []) {result : VadResult F}
    {w : HybridVAD F Detector Session Tensor}
    (h : s.vad.processChunk lib chunk = (.ok result, w)) :
    s.step lib (.processChunk chunk) = some ⟨w, none⟩ := by
  simp [step, hne, h]

/-- A silent chunk changes a counter only. -/
theorem kept_of_silent (h : s.Kept) (hne : chunk ≠ []) (hsilent : silent lib chunk = true)
    (hstep : s.step lib (.processChunk chunk) = some t) : t.Kept := by
  obtain ⟨result, hcall, -⟩ := processChunk_of_silent (v := s.vad) hne hsilent
  obtain rfl := Option.some.inj ((step_of_ok hne hcall).symm.trans hstep)
  refine ⟨⟨rfl, h.sound.short⟩, h.sess.imp id fun hinit => ?_⟩
  exact ⟨hinit.sess, hinit.sr, hinit.buffer, hinit.state, hinit.context, hinit.frames⟩

/-- A rejected chunk empties the buffer. -/
theorem kept_of_rejected (h : s.Kept) (hne : chunk ≠ []) (hloud : silent lib chunk = false)
    (hbuffer : s.vad.audioBuffer.isSome = true) (hrejects : s.vad.webrtcSpeech lib chunk = false)
    (hstep : s.step lib (.processChunk chunk) = some t) : t.Kept := by
  obtain ⟨result, w, hcall, -, hempty, hsess, hinit, -⟩ :=
    processChunk_of_rejected hne hloud hbuffer hrejects
  obtain rfl := Option.some.inj ((step_of_ok hne hcall).symm.trans hstep)
  refine ⟨⟨rfl, buffered_lt_of_empty ?_⟩, h.sess.imp (fun hnone => hsess.trans hnone) hinit⟩
  rw [hempty, Option.getD_some]

theorem kept_of_initialised (h : s.Kept) (hinit : s.vad.Initialised) (hne : chunk ≠ [])
    (hstep : s.step lib (.processChunk chunk) = some t) : t.Kept := by
  cases hsilent : silent lib chunk with
  | true => exact kept_of_silent h hne hsilent hstep
  | false =>
      cases hspeech : s.vad.webrtcSpeech lib chunk with
      | false => exact kept_of_rejected h hne hsilent hinit.buffer hspeech hstep
      | true =>
          obtain ⟨result, w, hcall, hw, hless, -⟩ :=
            processChunk_of_accepted hne hsilent hspeech hinit
          obtain rfl := Option.some.inj ((step_of_ok hne hcall).symm.trans hstep)
          exact ⟨⟨rfl, hless⟩, .inr hw⟩

/-- **Without a session** the call stays sound exactly when there is room. -/
theorem kept_iff_of_fallback (h : s.Kept) (hsess : s.vad.sileroSess = none) (hne : chunk ≠ [])
    (hstep : s.step lib (.processChunk chunk) = some t) :
    (s.HasRoom lib (.processChunk chunk) → t.Kept) ∧
      (¬ s.HasRoom lib (.processChunk chunk) → ¬ t.Sound) := by
  have hnosess : ¬ s.vad.sileroSess.isSome = true := by simp [hsess]
  cases hsilent : silent lib chunk with
  | true =>
      refine ⟨fun _ => kept_of_silent h hne hsilent hstep, fun hmiss => absurd ?_ hmiss⟩
      exact .inr (.inl hsilent)
  | false =>
      have hloud : ¬ silent lib chunk = true := by simp [hsilent]
      cases hbuffer : s.vad.audioBuffer with
      | none =>
          -- `reset_state` has not run, so the `np.concatenate` raises.
          have hcall := processChunk_of_unassigned hne hsilent hbuffer
          have ht : s.step lib (.processChunk chunk) =
              some ⟨s.vad, some (.attributeError "_audio_buffer".toList)⟩ := by
            simp [step, hne, hcall]
          obtain rfl := Option.some.inj (ht.symm.trans hstep)
          refine ⟨?_, fun _ hsound => nomatch hsound.quiet⟩
          rintro (hsome | hquiet | ⟨buffer, hsome, -⟩)
          · exact absurd hsome hnosess
          · exact absurd hquiet hloud
          · exact absurd (hbuffer.symm.trans hsome) nofun
      | some buffer =>
          have hassigned : s.vad.audioBuffer.isSome = true := by simp [hbuffer]
          cases hspeech : s.vad.webrtcSpeech lib chunk with
          | false =>
              refine ⟨fun _ => kept_of_rejected h hne hsilent hassigned hspeech hstep, ?_⟩
              intro hmiss
              refine absurd (.inr (.inr ⟨buffer, hbuffer, ?_⟩)) hmiss
              intro hspeaks
              rw [hspeech] at hspeaks
              cases hspeaks
          | true =>
              -- The exit without a session returns before any segment is taken off.
              obtain ⟨result, w, hcall, hw, hwsess⟩ :=
                processChunk_of_unverified hne hsilent hbuffer hspeech hsess
              obtain rfl := Option.some.inj ((step_of_ok hne hcall).symm.trans hstep)
              have hlength : w.buffered = buffer.length + chunk.length := by
                rw [buffered, hw, Option.getD_some, List.length_append]
              constructor
              · rintro (hsome | hquiet | ⟨other, hother, hroom⟩)
                · exact absurd hsome hnosess
                · exact absurd hquiet hloud
                · obtain rfl := Option.some.inj (hbuffer.symm.trans hother)
                  exact ⟨⟨rfl, hlength.trans_lt (hroom hspeech)⟩, .inl hwsess⟩
              · intro hmiss hsound
                refine hmiss (.inr (.inr ⟨buffer, hbuffer, fun _ => ?_⟩))
                rw [← hlength]
                exact hsound.short

theorem ne_nil_of_step (hstep : s.step lib (.processChunk chunk) = some t) : chunk ≠ [] := by
  rintro rfl
  simp [step] at hstep

/-! ## Runs -/

/-- **The exact condition**, for both ways in which `__init__` completes: nothing is
raised and less than a segment stays buffered, after every call, exactly as long as each
call finds room. -/
theorem sound_iff_hasRoom (lib : VadLib F Detector Session Tensor) (created : Option Session)
    {u : VadRun F Detector Session Tensor} {calls : List (VadCall F)}
    (hrun : execute (step lib) (start lib created) calls = some u) :
    Always (step lib) Sound (start lib created) calls ↔
      MeetsAlong (step lib) (HasRoom lib) (start lib created) calls := by
  refine always_iff_meetsAlong (step lib) Kept (kept_start created) (fun a h => h.sound) ?_ ?_ hrun
  · intro a l b ha _ hroom hab
    cases l with
    | resetState =>
        obtain rfl := Option.some.inj hab
        exact kept_resetState ha
    | processChunk chunk =>
        have hne := ne_nil_of_step hab
        rcases ha.sess with hnone | hinit
        · exact (kept_iff_of_fallback ha hnone hne hab).1 hroom
        · exact kept_of_initialised ha hinit hne hab
  · intro a l b ha _ hmiss hab
    cases l with
    | resetState => exact absurd trivial hmiss
    | processChunk chunk =>
        have hne := ne_nil_of_step hab
        rcases ha.sess with hnone | hinit
        · exact (kept_iff_of_fallback ha hnone hne hab).2 hmiss
        · exact absurd (.inl hinit.sess) hmiss

/-! ## Full-scale chunks -/

/-- Without the model file the first chunk that is not silent raises, and after a
`reset_state` the first long one stays buffered. -/
theorem sound_fails :
    (execute (step (fullScale true)) (start (fullScale true) none) [.processChunk [1]]).isSome = true ∧
      ¬ Always (step (fullScale true)) Sound (start (fullScale true) none) [.processChunk [1]] ∧
      ¬ Always (step (fullScale true)) Sound (start (fullScale true) none)
        [.resetState, .processChunk (List.replicate 512 1)] := by
  decide +kernel

/-- With a session and without one, where the chunks leave room. -/
theorem short_chunks_sound :
    Always (step (fullScale true)) Sound (start (fullScale true) (some ()))
        [.processChunk (List.replicate 600 1), .processChunk [0]] ∧
      Always (step (fullScale true)) Sound (start (fullScale true) none)
        [.processChunk [0], .resetState, .processChunk (List.replicate 511 1)] := by
  have hsession : (execute (step (fullScale true)) (start (fullScale true) (some ()))
      [.processChunk (List.replicate 600 1), .processChunk [0]]).isSome = true := by
    decide +kernel
  have hfallback : (execute (step (fullScale true)) (start (fullScale true) none)
      [.processChunk [0], .resetState, .processChunk (List.replicate 511 1)]).isSome = true := by
    decide +kernel
  obtain ⟨u, hu⟩ := Option.isSome_iff_exists.mp hsession
  obtain ⟨w, hw⟩ := Option.isSome_iff_exists.mp hfallback
  exact ⟨(sound_iff_hasRoom (fullScale true) (some ()) hu).mpr (by decide +kernel),
    (sound_iff_hasRoom (fullScale true) none hw).mpr (by decide +kernel)⟩

end VadRun

end Vad
end AvaListener
