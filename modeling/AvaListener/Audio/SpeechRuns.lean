import Mathlib.Data.List.Range
import AvaListener.Audio.FeedOrder

/-!
# No clipped speech

Whether every chunk of a stretch of speech reaches the recogniser.  The run keeps the
log of all `accept` calls, across streams, so that a chunk can be looked for by its
first place in the log.

The first chunks of such a stretch are only kept, in a buffer of five, and the third
one at the latest confirms speech and flushes the buffer (`speech_heard`).
-/

namespace AvaListener
namespace Audio

open Library Config

/-! ## The `accept` calls of an iteration -/

namespace AudioWorker

variable {κ : Type*}

/-- The chunks that one iteration passes to `accept`, in order. -/
def fed (w : AudioWorker κ) (i : ChunkInput κ) : List κ :=
  (if w.confirmsSpeech i.pass then w.preBuffer.chunks else []) ++
    if w.timesOut i then []
    else if (w.prepared i).isSpeaking ∨ (w.prepared i).trailingPad < trailingPadFrames then
      [i.chunk]
    else []

theorem prepared_provider (w : AudioWorker κ) (i : ChunkInput κ) :
    (w.prepared i).provider =
      (if w.confirmsSpeech i.pass then w.preBuffer.chunks else []).foldl
        (fun p c => p.accept i.now c) w.provider := by
  have hretain (a : AudioWorker κ) : (a.retain i.chunk).provider = a.provider := by
    unfold retain
    split
    · rfl
    · rfl
  rw [prepared, hretain, hysteresis]
  cases hpass : i.pass with
  | false => simp [confirmsSpeech]
  | true =>
      simp only [if_true]
      split
      · rfl
      · rfl

/-- **These are the calls**: an iteration that does not reset the stream leaves the
provider as they leave it. -/
theorem iterate_provider {w : AudioWorker κ} {i : ChunkInput κ} (h : w.resetsStream i = false) :
    (w.iterate i).1.provider = (w.fed i).foldl (fun p c => p.accept i.now c) w.provider := by
  rw [fed, List.foldl_append, ← prepared_provider]
  cases htime : w.timesOut i with
  | true => simp [iterate, htime, h]
  | false =>
      obtain ⟨last, stable, peak, hdeliver⟩ := deliver_frame ((w.prepared i).feed i) i
      have hiterate : (w.iterate i).1 = (((w.prepared i).feed i).deliver i).1 := by
        simp [iterate, htime]
      rw [hiterate, hdeliver, feed]
      by_cases hspeaking : (w.prepared i).isSpeaking = true
      · simp [hspeaking]
      · by_cases hpad : (w.prepared i).trailingPad < trailingPadFrames
        · simp [hspeaking, hpad]
        · simp [hspeaking, hpad]

/-- A chunk that the VAD passes is prepared and never times out. -/
theorem prepared_pass {w : AudioWorker κ} {i : ChunkInput κ} (hpass : i.pass = true) :
    w.timesOut i = false ∧ (w.prepared i).trailingPad = w.trailingPad ∧
      (w.prepared i).isSpeaking = (w.isSpeaking || w.confirmsSpeech i.pass) := by
  refine ⟨?_, (prepared_frame w i).1, ?_⟩
  · apply timesOut_of_silence
    rw [prepared_speech hpass]
    decide
  · unfold prepared retain hysteresis
    rw [if_pos hpass]
    by_cases hconfirms : w.confirmsSpeech i.pass = true
    · simp [hconfirms]
    · cases hspeaking : w.isSpeaking with
      | true => simp [hconfirms]
      | false => simp [hconfirms]

/-- What a chunk that the VAD passes has the worker pass on. -/
theorem fed_pass {w : AudioWorker κ} {i : ChunkInput κ} (hpass : i.pass = true) :
    w.fed i =
      (if w.confirmsSpeech i.pass then w.preBuffer.chunks else []) ++
        if w.isSpeaking = true ∨ w.confirmsSpeech i.pass = true ∨ w.trailingPad < trailingPadFrames
        then [i.chunk] else [] := by
  obtain ⟨htime, hpad, hspeaking⟩ := prepared_pass (w := w) hpass
  simp only [fed, htime, hpad, hspeaking, Bool.or_eq_true, or_assoc, Bool.false_eq_true, if_false]

end AudioWorker

/-! ## First places in a log -/

/-- The chunk was passed on, and none with a later number before it. -/
def HeardIn (log : List ℕ) (j : ℕ) : Prop :=
  j ∈ log ∧ ∀ k ∈ log, j < k → log.idxOf j < log.idxOf k

instance (log : List ℕ) (j : ℕ) : Decidable (HeardIn log j) :=
  inferInstanceAs (Decidable (_ ∧ ∀ k ∈ log, _))

/-- More calls change nothing for a chunk that was heard. -/
theorem HeardIn.append {log : List ℕ} {j : ℕ} (h : HeardIn log j) (more : List ℕ) :
    HeardIn (log ++ more) j := by
  obtain ⟨hmem, hfirst⟩ := h
  refine ⟨List.mem_append_left _ hmem, ?_⟩
  intro k hk hlt
  rw [List.idxOf_append_of_mem hmem]
  by_cases hold : k ∈ log
  · rw [List.idxOf_append_of_mem hold]
    exact hfirst k hold hlt
  · rw [List.idxOf_append_of_notMem hold]
    have hbound := List.idxOf_lt_length_of_mem hmem
    omega

/-- A chunk before which no later one was passed on is heard. -/
theorem heardIn_of_le {before after : List ℕ} {j : ℕ} (h : ∀ x ∈ before, x ≤ j) :
    HeardIn (before ++ j :: after) j := by
  have hlog : before ++ j :: after = (before ++ [j]) ++ after := by simp
  rw [hlog]
  apply HeardIn.append
  refine ⟨by simp, ?_⟩
  intro k hk hlt
  rcases List.mem_append.mp hk with hbefore | hlast
  · have hle := h k hbefore
    omega
  · have heq := List.mem_singleton.mp hlast
    omega

/-- The numbers from `first` on in order. -/
theorem heardIn_range {before after : List ℕ} {first n j : ℕ} (h : ∀ x ∈ before, x ≤ j)
    (hfirst : first ≤ j) (hj : j < first + n) :
    HeardIn (before ++ List.range' first n ++ after) j := by
  obtain ⟨k, rfl⟩ := Nat.exists_eq_add_of_le hfirst
  obtain ⟨d, rfl⟩ := Nat.exists_eq_add_of_lt (Nat.lt_of_add_lt_add_left hj)
  have hsplit : List.range' first (k + d + 1) =
      List.range' first k ++ (first + k) :: List.range' (first + k + 1) d := by
    rw [← List.range'_succ, List.range'_append_1]
    rfl
  have hlog : before ++ List.range' first (k + d + 1) ++ after =
      (before ++ List.range' first k) ++ (first + k) ::
        (List.range' (first + k + 1) d ++ after) := by
    rw [hsplit]
    simp
  rw [hlog]
  apply heardIn_of_le
  intro x hx
  rcases List.mem_append.mp hx with hold | hrun
  · exact h x hold
  · rw [List.mem_range'_1] at hrun
    omega

/-! ## Runs -/

/-- A worker on numbered chunks, with the log of its `accept` calls.  An iteration adds the
chunks of `AudioWorker.fed`: that these are its calls is `AudioWorker.iterate_provider`, and
one that resets the stream makes none. -/
structure SpeechRun where
  worker : AudioWorker ℕ
  taken : ℕ
  log : List ℕ

namespace SpeechRun

def init (start : ℚ) : SpeechRun :=
  ⟨.init start, 0, []⟩

def step (s : SpeechRun) : WorkerEvent → Option SpeechRun
  | .chunk pass decoded now =>
      some
        { worker := (s.worker.iterate ⟨s.taken, pass, decoded, now⟩).1
          taken := s.taken + 1
          log := s.log ++ s.worker.fed ⟨s.taken, pass, decoded, now⟩ }
  | .reset now => some ⟨s.worker.resetStream now, s.taken, s.log⟩

/-- Only chunks that were taken are kept or passed on. -/
structure Numbered (s : SpeechRun) : Prop where
  kept : ∀ x ∈ s.worker.preBuffer.chunks, x < s.taken
  log : ∀ x ∈ s.log, x < s.taken

theorem numbered_init (start : ℚ) : (init start).Numbered where
  kept := by simp [init, AudioWorker.init]
  log := by simp [init]

/-- The pre-roll buffer after an iteration. -/
theorem kept_iterate {w : AudioWorker ℕ} {i : ChunkInput ℕ} {x : ℕ}
    (h : x ∈ (w.iterate i).1.preBuffer.chunks) : x ∈ w.preBuffer.chunks ∨ x = i.chunk := by
  by_cases hquiet : CaptureRun.QuietChunk w i
  · have hkept : (w.iterate i).1.preBuffer.chunks = (w.preBuffer.append i.chunk).chunks := by
      rcases CaptureRun.iterate_quiet hquiet with ⟨-, hout⟩ | ⟨-, -, hout⟩ | ⟨-, -, hout⟩
      · exact hout.preBuffer
      · exact hout.preBuffer
      · exact hout.preBuffer
    rw [hkept] at h
    rcases List.mem_append.mp ((w.preBuffer.append_sublist i.chunk).subset h) with hold | hnew
    · exact .inl hold
    · exact .inr (List.mem_singleton.mp hnew)
  · cases hconfirms : w.confirmsSpeech i.pass with
    | true =>
        rw [(CaptureRun.iterate_confirms hconfirms).preBuffer] at h
        cases h
    | false =>
        have hspeaking : w.isSpeaking = true ∧
            (i.pass = true ∨ w.consecutiveSilence + 1 < minSilenceFrames) := by
          by_contra hnot
          apply hquiet
          refine ⟨hconfirms, fun hspeaking => ?_⟩
          have hends := not_and.mp hnot hspeaking
          rw [not_or, Bool.not_eq_true, not_lt] at hends
          exact hends
        obtain ⟨speech, silence, -, hout⟩ := CaptureRun.iterate_speaking hspeaking.1 hspeaking.2
        rw [hout.preBuffer] at h
        exact .inl h

theorem mem_fed {w : AudioWorker ℕ} {i : ChunkInput ℕ} {x : ℕ} (h : x ∈ w.fed i) :
    x ∈ w.preBuffer.chunks ∨ x = i.chunk := by
  unfold AudioWorker.fed at h
  rcases List.mem_append.mp h with hflushed | hown
  · split at hflushed
    · exact .inl hflushed
    · cases hflushed
  · split at hown
    · cases hown
    · split at hown
      · exact .inr (List.mem_singleton.mp hown)
      · cases hown

theorem numbered_step {s t : SpeechRun} {e : WorkerEvent} (h : s.Numbered)
    (hstep : s.step e = some t) : t.Numbered := by
  cases e with
  | chunk pass decoded now =>
      obtain rfl := Option.some.inj hstep
      have hbound {x : ℕ} (hx : x ∈ s.worker.preBuffer.chunks ∨ x = s.taken) : x < s.taken + 1 := by
        rcases hx with hold | rfl
        · exact (h.kept x hold).trans (Nat.lt_succ_self _)
        · exact Nat.lt_succ_self _
      refine ⟨fun x hx => hbound (kept_iterate hx), ?_⟩
      intro x hx
      rcases List.mem_append.mp hx with hold | hnew
      · exact (h.log x hold).trans (Nat.lt_succ_self _)
      · exact hbound (mem_fed hnew)
  | reset now =>
      obtain rfl := Option.some.inj hstep
      exact ⟨h.kept, h.log⟩

/-! ## A stretch of speech -/

/-- Since chunk `first` all were passed by the VAD, and speech is not confirmed yet: the
chunks are the last ones in the buffer, and the trailing pad took the first of them, if
any. -/
structure Pending (s : SpeechRun) (first : ℕ) : Prop where
  notSpeaking : s.worker.isSpeaking = false
  counted : s.taken - first ≤ s.worker.consecutiveSpeech
  few : s.taken - first ≤ 2
  kept : ∃ old, s.worker.preBuffer.chunks = old ++ List.range' first (s.taken - first) ∧
    ∀ x ∈ old, x < first
  log : ∃ past m, s.log = past ++ List.range' first m ∧ (∀ x ∈ past, x < first) ∧
    m ≤ s.taken - first ∧ (m = s.taken - first ∨ trailingPadFrames ≤ s.worker.trailingPad)

/-- Since chunk `first` all were passed by the VAD: they have all been heard, or speech is
not confirmed yet. -/
structure Voiced (s : SpeechRun) (first : ℕ) : Prop where
  numbered : s.Numbered
  le : first ≤ s.taken
  heard : (s.worker.isSpeaking = true ∧ ∀ j, first ≤ j → j < s.taken → HeardIn s.log j) ∨
    s.Pending first

theorem voiced_start {s : SpeechRun} (h : s.Numbered) : s.Voiced s.taken := by
  refine ⟨h, le_rfl, ?_⟩
  cases hspeaking : s.worker.isSpeaking with
  | true => exact .inl ⟨rfl, fun j hle hlt => absurd hle (by omega)⟩
  | false =>
      refine .inr ⟨hspeaking, by omega, by omega, ⟨s.worker.preBuffer.chunks, ?_, h.kept⟩, ?_⟩
      · simp
      · exact ⟨s.log, 0, by simp, h.log, Nat.zero_le _, .inl (by omega)⟩

/-- The buffer keeps the chunks of a short stretch. -/
theorem append_kept {b : PreBuffer ℕ} {old : List ℕ} {first n : ℕ} (hn : n ≤ 2)
    (hkept : b.chunks = old ++ List.range' first n) (hold : ∀ x ∈ old, x < first) :
    ∃ older, (b.append (first + n)).chunks = older ++ List.range' first (n + 1) ∧
      ∀ x ∈ older, x < first := by
  have hlist : b.chunks ++ [first + n] = old ++ List.range' first (n + 1) := by
    rw [hkept, List.range'_1_concat, List.append_assoc]
  have hlength : (old ++ List.range' first (n + 1)).length - preBufferLen ≤ old.length := by
    rw [List.length_append, List.length_range']
    unfold preBufferLen
    omega
  refine ⟨old.drop ((old ++ List.range' first (n + 1)).length - preBufferLen), ?_, ?_⟩
  · show (b.chunks ++ [first + n]).rtake preBufferLen = _
    rw [hlist, List.rtake, List.drop_append_of_le_length hlength]
  · exact fun x hx => hold x (List.mem_of_mem_drop hx)

/-- The flush: every chunk of the stretch is heard. -/
theorem Pending.heard_flush {s : SpeechRun} {first : ℕ} (h : s.Pending first)
    (hle : first ≤ s.taken) {j : ℕ} (hj : first ≤ j) (hlt : j < s.taken + 1) :
    HeardIn (s.log ++ (s.worker.preBuffer.chunks ++ [s.taken])) j := by
  obtain ⟨old, hkept, hold⟩ := h.kept
  obtain ⟨past, m, hlog, hpast, hm, -⟩ := h.log
  have hrun : List.range' first (s.taken - first) ++ [s.taken] =
      List.range' first (s.taken - first + 1) := by
    rw [List.range'_1_concat]
    congr 2
    omega
  by_cases hearly : j < first + m
  · -- The trailing pad took it.
    rw [hlog]
    exact heardIn_range (fun x hx => ((hpast x hx).trans_le hj).le) hj hearly
  · have hsplit : s.log ++ (s.worker.preBuffer.chunks ++ [s.taken]) =
        (past ++ List.range' first m ++ old) ++ List.range' first (s.taken - first + 1) ++ [] := by
      rw [hlog, hkept, ← hrun]
      simp
    rw [hsplit]
    refine heardIn_range ?_ hj (by omega)
    intro x hx
    rcases List.mem_append.mp hx with hfront | hx
    · rcases List.mem_append.mp hfront with hx | hx
      · exact ((hpast x hx).trans_le hj).le
      · rw [List.mem_range'_1] at hx
        omega
    · exact ((hold x hx).trans_le hj).le

/-- The next chunk does not confirm speech. -/
theorem Pending.step_quiet {s : SpeechRun} {first : ℕ} (h : s.Pending first) (hle : first ≤ s.taken)
    (hconfirms : s.worker.confirmsSpeech true = false) (decoded : Text) (now : ℚ) :
    Pending
      { worker := (s.worker.iterate ⟨s.taken, true, decoded, now⟩).1
        taken := s.taken + 1
        log := s.log ++ s.worker.fed ⟨s.taken, true, decoded, now⟩ } first := by
  obtain ⟨old, hkept, hold⟩ := h.kept
  obtain ⟨past, m, hlog, hpast, hm, hpad⟩ := h.log
  have hquiet : CaptureRun.QuietChunk s.worker ⟨s.taken, true, decoded, now⟩ := by
    refine ⟨hconfirms, fun hspeaking => ?_⟩
    cases hspeaking.symm.trans h.notSpeaking
  have hcount : s.worker.consecutiveSpeech < 2 := by
    simpa [AudioWorker.confirmsSpeech, h.notSpeaking, minSpeechFrames] using hconfirms
  have hcounted := h.counted
  have hnumber : first + (s.taken - first) = s.taken := by omega
  have hnext : s.taken + 1 - first = s.taken - first + 1 := by omega
  have hbuffer := append_kept h.few hkept hold
  rw [hnumber] at hbuffer
  have hfed := AudioWorker.fed_pass (w := s.worker) (i := ⟨s.taken, true, decoded, now⟩) rfl
  simp only [hconfirms, h.notSpeaking, Bool.false_eq_true, if_false, false_or,
    List.nil_append] at hfed
  have htime := (AudioWorker.prepared_pass (w := s.worker)
    (i := ⟨s.taken, true, decoded, now⟩) rfl).1
  -- With the outcome of the iteration, what is left is the log.
  have hpending {pad : ℕ} {acceptedNow : List ℕ}
      (hout : CaptureRun.Outcome (s.worker.iterate ⟨s.taken, true, decoded, now⟩).1 false
        (s.worker.consecutiveSpeech + 1) 0 pad (s.worker.preBuffer.append s.taken).chunks acceptedNow)
      {n : ℕ} (hcalls : s.log ++ s.worker.fed ⟨s.taken, true, decoded, now⟩ =
        past ++ List.range' first n)
      (hn : n ≤ s.taken - first + 1) (hlast : n = s.taken - first + 1 ∨ trailingPadFrames ≤ pad) :
      Pending
        { worker := (s.worker.iterate ⟨s.taken, true, decoded, now⟩).1
          taken := s.taken + 1
          log := s.log ++ s.worker.fed ⟨s.taken, true, decoded, now⟩ } first := by
    refine ⟨hout.isSpeaking, ?_, ?_, ?_, ?_⟩
    · rw [hnext, hout.consecutiveSpeech]
      omega
    · rw [hnext]
      omega
    · rw [hnext, hout.preBuffer]
      exact hbuffer
    · rw [hnext, hout.trailingPad]
      exact ⟨past, n, hcalls, hpast, hn, hlast⟩
  rcases CaptureRun.iterate_quiet hquiet with ⟨hreset, -⟩ | ⟨-, hfull, hout⟩ | ⟨-, hroom, hout⟩
  · simp [AudioWorker.resetsStream, htime] at hreset
  · have hfull : trailingPadFrames ≤ s.worker.trailingPad := by
      rcases hfull with hfull | hsilence
      · exact hfull
      · exact absurd hsilence (by simp [CaptureRun.silenceCount])
    refine hpending hout (n := m) ?_ (by omega) (.inr hfull)
    rw [hfed, if_neg (not_lt.mpr hfull), List.append_nil, hlog]
  · have hall : m = s.taken - first := hpad.resolve_right (not_le.mpr hroom)
    refine hpending hout (n := m + 1) ?_ (by omega) (.inl (by omega))
    rw [hfed, if_pos hroom, hlog, List.range'_1_concat, hall, hnumber, List.append_assoc]

/-- **One more chunk that the VAD passes.** -/
theorem voiced_step {s t : SpeechRun} {first : ℕ} {decoded : Text} {now : ℚ}
    (h : s.Voiced first) (hstep : s.step (.chunk true decoded now) = some t) : t.Voiced first := by
  have hnumbered := numbered_step h.numbered hstep
  obtain rfl := Option.some.inj hstep
  refine ⟨hnumbered, h.le.trans (Nat.le_succ _), ?_⟩
  have hfed := AudioWorker.fed_pass (w := s.worker) (i := ⟨s.taken, true, decoded, now⟩) rfl
  have hinput : (⟨s.taken, true, decoded, now⟩ : ChunkInput ℕ).pass = true := rfl
  rcases h.heard with ⟨hspeaking, hall⟩ | hpending
  · -- During speech every chunk is passed on.
    have hno : s.worker.confirmsSpeech true = false := by
      simp [AudioWorker.confirmsSpeech, hspeaking]
    obtain ⟨speech, silence, -, hout⟩ :=
      CaptureRun.iterate_speaking (i := ⟨s.taken, true, decoded, now⟩) hspeaking (.inl rfl)
    refine .inl ⟨hout.isSpeaking, ?_⟩
    intro j hj hlt
    simp only [hfed, hno, hspeaking]
    by_cases hnew : j < s.taken
    · exact (hall j hj hnew).append _
    · obtain rfl : j = s.taken := by
        have hlt' : j < s.taken + 1 := hlt
        omega
      exact heardIn_of_le fun x hx => (h.numbered.log x hx).le
  · cases hconfirms : s.worker.confirmsSpeech true with
    | true =>
        have hout := CaptureRun.iterate_confirms (i := ⟨s.taken, true, decoded, now⟩) hconfirms
        refine .inl ⟨hout.isSpeaking, ?_⟩
        intro j hj hlt
        simp only [hfed, hconfirms, if_true, true_or, or_true]
        exact hpending.heard_flush h.le hj hlt
    | false => exact .inr (hpending.step_quiet h.le hconfirms decoded now)

/-- The event is a chunk that the VAD passes. -/
def IsSpeech : WorkerEvent → Prop
  | .chunk pass _ _ => pass = true
  | .reset _ => False

instance (e : WorkerEvent) : Decidable (IsSpeech e) := by
  cases e with
  | chunk pass decoded now => exact inferInstanceAs (Decidable (pass = true))
  | reset now => exact inferInstanceAs (Decidable False)

theorem taken_run {s t : SpeechRun} {speech : List WorkerEvent}
    (hspeech : ∀ e ∈ speech, IsSpeech e) (hrun : execute step s speech = some t) :
    t.taken = s.taken + speech.length := by
  induction speech generalizing s with
  | nil =>
      obtain rfl := Option.some.inj hrun
      rfl
  | cons e rest ih =>
      obtain ⟨a, ha, hrest⟩ := execute_cons_eq_some step hrun
      obtain ⟨he, hall⟩ := List.forall_mem_cons.mp hspeech
      have htaken : a.taken = s.taken + 1 := by
        cases e with
        | chunk pass decoded now =>
            obtain rfl := Option.some.inj ha
            rfl
        | reset now => exact he.elim
      rw [ih hall hrest, htaken, List.length_cons]
      omega

theorem voiced_run {s t : SpeechRun} {speech : List WorkerEvent} (h : s.Numbered)
    (hspeech : ∀ e ∈ speech, IsSpeech e) (hrun : execute step s speech = some t) :
    t.Voiced s.taken := by
  refine execute_invariant step (fun a => a.Voiced s.taken) (voiced_start h) ?_ hrun
  intro a e b ha he hab
  cases e with
  | chunk pass decoded now =>
      have hpass : pass = true := hspeech _ he
      subst hpass
      exact voiced_step ha hab
  | reset now => exact (hspeech _ he).elim

/-- **A stretch of speech from any state**: once it has its three chunks all of them have
been heard. -/
theorem heard_of_speech {s t : SpeechRun} {speech : List WorkerEvent} (h : s.Numbered)
    (hspeech : ∀ e ∈ speech, IsSpeech e) (hlength : minSpeechFrames ≤ speech.length)
    (hrun : execute step s speech = some t) {j : ℕ} (hj : s.taken ≤ j) (hlt : j < t.taken) :
    HeardIn t.log j := by
  have htaken := taken_run hspeech hrun
  rcases (voiced_run h hspeech hrun).heard with ⟨-, hall⟩ | hpending
  · exact hall j hj hlt
  · have hfew := hpending.few
    unfold minSpeechFrames at hlength
    omega

/-- The log only grows. -/
theorem log_run {s t : SpeechRun} {events : List WorkerEvent}
    (hrun : execute step s events = some t) : ∃ more, t.log = s.log ++ more := by
  refine execute_invariant step (fun a => ∃ more, a.log = s.log ++ more) ⟨[], by simp⟩ ?_ hrun
  rintro a e b ⟨more, hmore⟩ - hab
  cases e with
  | chunk pass decoded now =>
      obtain rfl := Option.some.inj hab
      exact ⟨more ++ a.worker.fed ⟨a.taken, pass, decoded, now⟩, by simp [hmore]⟩
  | reset now =>
      obtain rfl := Option.some.inj hab
      exact ⟨more, hmore⟩

/-- **Speech is not clipped**: in every run, each of at least three consecutive chunks that
the VAD passes, with no reset between them, is passed to `accept`, and no later chunk is
passed there before it for the first time. -/
theorem speech_heard (start : ℚ) {past speech future : List WorkerEvent} {s t u : SpeechRun}
    (hpast : execute step (init start) past = some s)
    (hspeech : ∀ e ∈ speech, IsSpeech e) (hlength : minSpeechFrames ≤ speech.length)
    (hrun : execute step s speech = some t) (hfuture : execute step t future = some u)
    (j : ℕ) (hj : s.taken ≤ j) (hlt : j < t.taken) : HeardIn u.log j := by
  have hnumbered : s.Numbered :=
    execute_invariant step Numbered (numbered_init start)
      (fun _ _ _ ha _ hab => numbered_step ha hab) hpast
  obtain ⟨more, hmore⟩ := log_run hfuture
  rw [hmore]
  exact (heard_of_speech hnumbered hspeech hlength hrun hj hlt).append more

def silentChunk : WorkerEvent := .chunk false [] 0
def speechChunk : WorkerEvent := .chunk true [] 0

/-- After three silent chunks the trailing pad is used up, and the third chunk of speech
flushes the buffer. -/
theorem short_utterance_heard :
    ∃ s t u, execute step (init 0) [silentChunk, silentChunk, silentChunk] = some s ∧
      execute step s [speechChunk, speechChunk, speechChunk] = some t ∧
      execute step t [silentChunk] = some u ∧
      u.log = [0, 1, 0, 1, 2, 3, 4, 5, 6] ∧
      ∀ j, s.taken ≤ j → j < t.taken → HeardIn u.log j := by
  have hspeech : ∀ e ∈ [speechChunk, speechChunk, speechChunk], IsSpeech e := by decide
  have hlength : minSpeechFrames ≤ [speechChunk, speechChunk, speechChunk].length := by decide
  have hwhole : (execute step (init 0) ([silentChunk, silentChunk, silentChunk] ++
      ([speechChunk, speechChunk, speechChunk] ++ [silentChunk]))).map (fun a => a.log) =
        some [0, 1, 0, 1, 2, 3, 4, 5, 6] := by decide +kernel
  obtain ⟨u, hrun, hlog⟩ := Option.map_eq_some_iff.mp hwhole
  obtain ⟨s, hs, hrest⟩ := execute_append_eq_some step hrun
  obtain ⟨t, ht, hu⟩ := execute_append_eq_some step hrest
  exact ⟨s, t, u, hs, ht, hu, hlog, speech_heard 0 hs hspeech hlength ht hu⟩

end SpeechRun

end Audio
end AvaListener
