import AvaListener.Audio.Iteration
import AvaListener.Library.Runs

/-!
# The order in which chunks are fed

Chunks are numbered as they are taken from the queue.  The question is whether
the stream of a generation accepts them in strictly increasing order.

Outside confirmed speech the first two chunks are fed as trailing pad and all of
them go to the pre-roll buffer, which keeps the last five.  When speech is
confirmed the buffer is flushed into the stream; so the flush repeats a chunk
exactly when a padded chunk is still among the last five, that is, when fewer
than seven chunks have passed since speech or a reset.  The pre-roll buffer also
survives resets, which falls under the same bound.
-/

namespace AvaListener
namespace Audio

open Library Config

/-- What happens to the worker: a chunk with the VAD's decision, or a stream
reset from outside the loop. -/
inductive WorkerEvent where
  | chunk (pass : Bool) (decoded : Text) (now : ℚ)
  | reset (now : ℚ)

/-- A worker on numbered chunks.  `taken` is the number of the next chunk, and
`quiet` counts the chunks processed outside confirmed speech since the last
chunk of confirmed speech or the last stream reset. -/
structure CaptureRun where
  worker : AudioWorker ℕ
  taken : ℕ
  quiet : ℕ

namespace CaptureRun

def init (start : ℚ) : CaptureRun :=
  ⟨.init start, 0, 0⟩

/-- The iteration input of the next chunk. -/
def input (s : CaptureRun) (pass : Bool) (decoded : Text) (now : ℚ) : ChunkInput ℕ :=
  ⟨s.taken, pass, decoded, now⟩

def step (s : CaptureRun) : WorkerEvent → Option CaptureRun
  | .chunk pass decoded now =>
      let i := s.input pass decoded now
      let next := (s.worker.iterate i).1
      some
        { worker := next
          taken := s.taken + 1
          quiet := if s.worker.resetsStream i ∨ next.isSpeaking then 0 else s.quiet + 1 }
  | .reset now => some ⟨s.worker.resetStream now, s.taken, 0⟩

/-- The chunks the current generation's stream has accepted, in order. -/
def accepted (s : CaptureRun) : List ℕ :=
  s.worker.provider.accepted

/-- The event confirms speech. -/
def ConfirmsSpeech (s : CaptureRun) : WorkerEvent → Prop
  | .chunk pass _ _ => s.worker.confirmsSpeech pass = true
  | .reset _ => False

/-- Chunks that must have passed outside speech before a flush repeats nothing:
the trailing pad and a full pre-roll buffer. -/
def clearance : ℕ :=
  trailingPadFrames + preBufferLen

/-! ## The outcomes of an iteration -/

section Outcomes

variable {κ : Type*} (w : AudioWorker κ) (i : ChunkInput κ)

/-- What an iteration leaves in the fields that decide feeding. -/
structure Outcome (w' : AudioWorker κ) (speaking : Bool) (speech silence pad : ℕ)
    (kept fed : List κ) : Prop where
  isSpeaking : w'.isSpeaking = speaking
  consecutiveSpeech : w'.consecutiveSpeech = speech
  consecutiveSilence : w'.consecutiveSilence = silence
  trailingPad : w'.trailingPad = pad
  preBuffer : w'.preBuffer.chunks = kept
  accepted : w'.provider.accepted = fed

variable {w i}

/-- An iteration before the silence timeout feeds the prepared worker. -/
theorem Outcome.of_feed {speaking : Bool} {speech silence pad : ℕ} {kept fed : List κ}
    (htime : w.timesOut i = false)
    (h : Outcome ((w.prepared i).feed i) speaking speech silence pad kept fed) :
    Outcome (w.iterate i).1 speaking speech silence pad kept fed := by
  obtain ⟨last, stable, peak, hframe⟩ := AudioWorker.deliver_frame ((w.prepared i).feed i) i
  have hiterate : (w.iterate i).1 = (((w.prepared i).feed i).deliver i).1 := by
    simp [AudioWorker.iterate, htime]
  rw [hiterate, hframe]
  exact ⟨h.1, h.2, h.3, h.4, h.5, h.6⟩

/-- Speech is confirmed: the pre-roll buffer and the chunk are fed. -/
theorem iterate_confirms (h : w.confirmsSpeech i.pass = true) :
    Outcome (w.iterate i).1 true (w.consecutiveSpeech + 1) 0 0 []
      (w.provider.accepted ++ w.preBuffer.chunks ++ [i.chunk]) := by
  have hpass : i.pass = true := by
    simp only [AudioWorker.confirmsSpeech, decide_eq_true_eq] at h
    exact h.1
  have hprepared : w.prepared i =
      { w with
        consecutiveSpeech := w.consecutiveSpeech + 1
        consecutiveSilence := 0
        isSpeaking := true
        hasSpokenInGeneration := true
        provider := w.preBuffer.chunks.foldl (fun p c => p.accept i.now c) w.provider
        preBuffer := .empty } := by
    rw [hpass] at h
    simp [AudioWorker.prepared, AudioWorker.hysteresis, AudioWorker.retain, hpass, h]
  refine Outcome.of_feed (AudioWorker.timesOut_of_silence (by simp [hprepared])) ?_
  rw [hprepared]
  constructor <;> simp [AudioWorker.feed]

/-- A chunk during speech, before the silence ends it, is fed. -/
theorem iterate_speaking (hspeaking : w.isSpeaking = true)
    (h : i.pass = true ∨ w.consecutiveSilence + 1 < minSilenceFrames) :
    ∃ speech silence, silence < minSilenceFrames ∧
      Outcome (w.iterate i).1 true speech silence 0 w.preBuffer.chunks
        (w.provider.accepted ++ [i.chunk]) := by
  have hno : w.confirmsSpeech i.pass = false := by simp [AudioWorker.confirmsSpeech, hspeaking]
  cases hpass : i.pass with
  | true =>
      rw [hpass] at hno
      have hprepared : w.prepared i =
          { w with
            consecutiveSpeech := w.consecutiveSpeech + 1
            consecutiveSilence := 0 } := by
        simp [AudioWorker.prepared, AudioWorker.hysteresis, AudioWorker.retain, hpass, hno,
          hspeaking]
      refine ⟨w.consecutiveSpeech + 1, 0, by decide,
        Outcome.of_feed (AudioWorker.timesOut_of_silence (by simp [hprepared])) ?_⟩
      rw [hprepared]
      constructor <;> simp [AudioWorker.feed, hspeaking]
  | false =>
      have hlt : w.consecutiveSilence + 1 < minSilenceFrames := by simpa [hpass] using h
      have hprepared : w.prepared i =
          { w with
            consecutiveSilence := w.consecutiveSilence + 1
            consecutiveSpeech := 0
            isSpeaking := true } := by
        simp [AudioWorker.prepared, AudioWorker.hysteresis, AudioWorker.retain, hpass, hspeaking,
          hlt]
      have hsmall : w.consecutiveSilence + 1 < 18 := by
        unfold minSilenceFrames at hlt
        omega
      refine ⟨0, w.consecutiveSilence + 1, hlt,
        Outcome.of_feed (AudioWorker.timesOut_of_silence (by simp [hprepared, hsmall])) ?_⟩
      rw [hprepared]
      constructor <;> simp [AudioWorker.feed]

/-- The counters after the VAD's decision. -/
def speechCount (w : AudioWorker κ) (i : ChunkInput κ) : ℕ :=
  if i.pass then w.consecutiveSpeech + 1 else 0

def silenceCount (w : AudioWorker κ) (i : ChunkInput κ) : ℕ :=
  if i.pass then 0 else w.consecutiveSilence + 1

/-- The chunk is processed outside confirmed speech. -/
def QuietChunk (w : AudioWorker κ) (i : ChunkInput κ) : Prop :=
  w.confirmsSpeech i.pass = false ∧
    (w.isSpeaking = true → i.pass = false ∧ minSilenceFrames ≤ w.consecutiveSilence + 1)

theorem prepared_quiet (h : QuietChunk w i) :
    w.prepared i =
      { w with
        consecutiveSpeech := speechCount w i
        consecutiveSilence := silenceCount w i
        isSpeaking := false
        preBuffer := w.preBuffer.append i.chunk } := by
  obtain ⟨hno, hended⟩ := h
  cases hpass : i.pass with
  | true =>
      have hspeaking : w.isSpeaking = false := by
        by_contra hon
        have hfalse := (hended (by simpa using hon)).1
        simp [hpass] at hfalse
      rw [hpass] at hno
      simp [AudioWorker.prepared, AudioWorker.hysteresis, AudioWorker.retain, hpass, hno, hspeaking,
        speechCount, silenceCount]
  | false =>
      have hoff : (w.isSpeaking && decide (w.consecutiveSilence + 1 < minSilenceFrames)) = false := by
        cases hspeaking : w.isSpeaking with
        | false => rfl
        | true =>
            have hlong := (hended hspeaking).2
            simpa using hlong
      have hoff' : decide (w.isSpeaking = true ∧ w.consecutiveSilence + 1 < minSilenceFrames) =
          false := by
        simpa using hoff
      simp [AudioWorker.prepared, AudioWorker.hysteresis, AudioWorker.retain, hpass, hoff',
        speechCount, silenceCount]

/-- A chunk outside confirmed speech is kept, and fed while the trailing pad
lasts; after long silence it is not fed, and may reset the stream. -/
theorem iterate_quiet (h : QuietChunk w i) :
    (w.resetsStream i = true ∧
      Outcome (w.iterate i).1 false 0 0 0 (w.preBuffer.append i.chunk).chunks []) ∨
    (w.resetsStream i = false ∧ (trailingPadFrames ≤ w.trailingPad ∨ 18 ≤ silenceCount w i) ∧
      Outcome (w.iterate i).1 false (speechCount w i) (silenceCount w i) w.trailingPad
        (w.preBuffer.append i.chunk).chunks w.provider.accepted) ∨
    (w.resetsStream i = false ∧ w.trailingPad < trailingPadFrames ∧
      Outcome (w.iterate i).1 false (speechCount w i) (silenceCount w i) (w.trailingPad + 1)
        (w.preBuffer.append i.chunk).chunks (w.provider.accepted ++ [i.chunk])) := by
  have hprepared := prepared_quiet h
  cases htime : w.timesOut i with
  | true =>
      cases hreset : w.resetsStream i with
      | true =>
          refine Or.inl ⟨rfl, ?_⟩
          simp only [AudioWorker.iterate, htime, hreset, if_true, hprepared]
          constructor <;> simp [AudioWorker.resetStream, AudioWorker.resetState]
      | false =>
          have hlong : 18 ≤ silenceCount w i := by
            have hge := AudioWorker.silenceTimeout_ge w.lastHypothesis
            simp only [AudioWorker.timesOut, hprepared, decide_eq_true_eq] at htime
            omega
          refine Or.inr (Or.inl ⟨rfl, Or.inr hlong, ?_⟩)
          simp only [AudioWorker.iterate, htime, hreset, if_true, hprepared]
          constructor <;> simp
  | false =>
      have hreset : w.resetsStream i = false := by simp [AudioWorker.resetsStream, htime]
      by_cases hpad : w.trailingPad < trailingPadFrames
      · refine Or.inr (Or.inr ⟨hreset, hpad, Outcome.of_feed htime ?_⟩)
        rw [hprepared]
        constructor <;> simp [AudioWorker.feed, hpad]
      · refine Or.inr (Or.inl ⟨hreset, Or.inl (not_lt.mp hpad), Outcome.of_feed htime ?_⟩)
        rw [hprepared]
        constructor <;> simp [AudioWorker.feed, hpad]

end Outcomes

/-! ## The invariant -/

/-- The pre-roll buffer, oldest chunk first. -/
def kept (s : CaptureRun) : List ℕ :=
  s.worker.preBuffer.chunks

/-- Where the fed and the kept chunks stand, in chunk numbers.  The chunks of
the current quiet phase are `taken - quiet, …, taken - 1`. -/
structure Tracked (s : CaptureRun) : Prop where
  fed_sorted : s.accepted.Pairwise (· < ·)
  kept_sorted : s.kept.Pairwise (· < ·)
  kept_lt : ∀ y ∈ s.kept, y < s.taken
  quiet_le : s.quiet ≤ s.taken
  speaking : s.worker.isSpeaking = true → s.quiet = 0 ∧ s.kept = []
  pad : s.worker.trailingPad = min 2 s.quiet
  silence : s.worker.consecutiveSilence ≤ s.quiet + 7
  speech : s.worker.isSpeaking = false → s.worker.consecutiveSpeech ≤ s.quiet
  /-- Of the quiet phase at most the two padded chunks are fed. -/
  fed_lt : ∀ x ∈ s.accepted, x < s.taken - s.quiet + min 2 s.quiet
  padded : 2 ≤ s.quiet → s.taken - s.quiet + 1 ∈ s.accepted
  /-- The last chunks of the quiet phase are the last ones kept. -/
  recent : ∀ k < min s.quiet 5, s.kept.reverse[k]? = some (s.taken - 1 - k)

theorem tracked_init (start : ℚ) : Tracked (init start) where
  fed_sorted := List.Pairwise.nil
  kept_sorted := List.Pairwise.nil
  kept_lt := by simp [kept, init, AudioWorker.init]
  quiet_le := le_refl 0
  speaking := by simp [init, AudioWorker.init]
  pad := rfl
  silence := Nat.zero_le _
  speech := fun _ => Nat.zero_le _
  fed_lt := by simp [accepted, init, AudioWorker.init]
  padded := by simp [init]
  recent := by simp [init]

namespace Tracked

variable {s : CaptureRun}

/-- After five quiet chunks the buffer holds nothing older. -/
theorem le_of_mem_kept (h : Tracked s) (hquiet : 5 ≤ s.quiet) {y : ℕ} (hy : y ∈ s.kept) :
    s.taken ≤ y + 5 := by
  obtain ⟨k, hk⟩ := List.mem_iff_getElem?.mp (List.mem_reverse.mpr hy)
  have hlen : k < 5 := by
    have hbound : k < s.kept.reverse.length := (List.getElem?_eq_some_iff.mp hk).1
    have hcap : s.kept.length ≤ 5 := s.worker.preBuffer.bounded
    rw [List.length_reverse] at hbound
    omega
  have hrecent := h.recent k (by omega)
  rw [hk] at hrecent
  have hy' : y = s.taken - 1 - k := Option.some.inj hrecent
  omega

/-- Below the clearance, a padded chunk is still kept. -/
theorem padded_mem_kept (h : Tracked s) (h2 : 2 ≤ s.quiet) (h7 : s.quiet < 7) :
    s.taken - s.quiet + 1 ∈ s.kept := by
  have hrecent := h.recent (s.quiet - 2) (by omega)
  have hindex : s.taken - 1 - (s.quiet - 2) = s.taken - s.quiet + 1 := by
    have hle := h.quiet_le
    omega
  rw [hindex] at hrecent
  exact List.mem_reverse.mp (List.mem_of_getElem? hrecent)

/-- A flush comes after at least two quiet chunks. -/
theorem two_le_quiet (h : Tracked s) {pass : Bool} (hc : s.worker.confirmsSpeech pass = true) :
    2 ≤ s.quiet ∧ s.worker.isSpeaking = false := by
  simp [AudioWorker.confirmsSpeech, minSpeechFrames] at hc
  obtain ⟨-, hcount, hoff⟩ := hc
  have hle := h.speech hoff
  exact ⟨by omega, hoff⟩

/-- What a flush feeds is in order exactly past the clearance. -/
theorem flush_sorted_iff (h : Tracked s) (h2 : 2 ≤ s.quiet) :
    (s.accepted ++ s.kept ++ [s.taken]).Pairwise (· < ·) ↔ clearance ≤ s.quiet := by
  have hclear : clearance = 7 := rfl
  rw [hclear]
  constructor
  · intro hsorted
    by_contra hshort
    have hmem := h.padded h2
    have hkept := h.padded_mem_kept h2 (by omega)
    have hcross := (List.pairwise_append.mp (List.pairwise_append.mp hsorted).1).2.2
    exact lt_irrefl _ (hcross _ hmem _ hkept)
  · intro hlong
    have hle := h.quiet_le
    have hlast : ∀ x ∈ s.accepted ++ s.kept, x < s.taken := by
      intro x hx
      rcases List.mem_append.mp hx with hx | hx
      · have hlt := h.fed_lt x hx
        omega
      · exact h.kept_lt x hx
    refine List.pairwise_append.mpr ⟨List.pairwise_append.mpr
      ⟨h.fed_sorted, h.kept_sorted, ?_⟩, List.pairwise_singleton _ _, ?_⟩
    · intro x hx y hy
      have hlt := h.fed_lt x hx
      have hold := h.le_of_mem_kept (by omega) hy
      omega
    · intro x hx y hy
      rw [List.mem_singleton.mp hy]
      exact hlast x hx

/-- One more chunk of a quiet phase in the buffer. -/
theorem append_recent (h : Tracked s) :
    ∀ k < min (s.quiet + 1) 5,
      (s.worker.preBuffer.append s.taken).chunks.reverse[k]? = some (s.taken - k) := by
  intro k hk
  rw [PreBuffer.reverse_append]
  cases k with
  | zero => rfl
  | succ k =>
      have hlt : k + 1 < preBufferLen := by
        unfold preBufferLen
        omega
      have hrecent := h.recent k (by omega)
      rw [List.getElem?_take_of_lt hlt, List.getElem?_cons_succ]
      show s.kept.reverse[k]? = _
      rw [hrecent]
      congr 1
      omega

theorem append_sorted (h : Tracked s) :
    (s.worker.preBuffer.append s.taken).chunks.Pairwise (· < ·) ∧
      ∀ y ∈ (s.worker.preBuffer.append s.taken).chunks, y < s.taken + 1 := by
  have hsub := PreBuffer.append_sublist s.worker.preBuffer s.taken
  constructor
  · refine List.Pairwise.sublist hsub (List.pairwise_append.mpr
      ⟨h.kept_sorted, List.pairwise_singleton _ _, ?_⟩)
    intro x hx y hy
    rw [List.mem_singleton.mp hy]
    exact h.kept_lt x hx
  · intro y hy
    rcases List.mem_append.mp (hsub.subset hy) with hmem | hmem
    · have hlt := h.kept_lt y hmem
      omega
    · rw [List.mem_singleton.mp hmem]
      omega

end Tracked

/-! ## Whole runs -/

theorem step_isSome (s : CaptureRun) (e : WorkerEvent) : ∃ t, step s e = some t := by
  cases e with
  | chunk pass decoded now => exact ⟨_, rfl⟩
  | reset now => exact ⟨_, rfl⟩

theorem execute_isSome (s : CaptureRun) (events : List WorkerEvent) :
    ∃ t, execute step s events = some t := by
  induction events generalizing s with
  | nil => exact ⟨s, rfl⟩
  | cons e rest ih =>
      obtain ⟨t, ht⟩ := step_isSome s e
      obtain ⟨u, hu⟩ := ih t
      exact ⟨u, by rw [execute_cons, ht]; exact hu⟩

namespace Tracked

variable {s t : CaptureRun}

theorem reset (h : Tracked s) (now : ℚ) : Tracked ⟨s.worker.resetStream now, s.taken, 0⟩ where
  fed_sorted := List.Pairwise.nil
  kept_sorted := h.kept_sorted
  kept_lt := h.kept_lt
  quiet_le := Nat.zero_le _
  speaking := by simp [AudioWorker.resetStream, AudioWorker.resetState]
  pad := rfl
  silence := Nat.zero_le _
  speech := fun _ => Nat.zero_le _
  fed_lt := by simp [accepted, AudioWorker.resetStream, AudioWorker.resetState]
  padded := by simp
  recent := by simp

/-- A flush past the clearance. -/
theorem confirms (h : Tracked s) {i : ChunkInput ℕ} (hi : i.chunk = s.taken)
    (hc : s.worker.confirmsSpeech i.pass = true) (hclear : clearance ≤ s.quiet) :
    Tracked ⟨(s.worker.iterate i).1, s.taken + 1, 0⟩ := by
  obtain ⟨h2, -⟩ := h.two_le_quiet hc
  obtain ⟨hspeaking, -, hsilence, hpad, hkept, hfed⟩ := iterate_confirms (w := s.worker) hc
  rw [hi] at hfed
  have hle := h.quiet_le
  constructor
  · show ((s.worker.iterate i).1.provider.accepted).Pairwise (· < ·)
    rw [hfed]
    exact (h.flush_sorted_iff h2).mpr hclear
  · show ((s.worker.iterate i).1.preBuffer.chunks).Pairwise (· < ·)
    rw [hkept]
    exact List.Pairwise.nil
  · simp [kept, hkept]
  · exact Nat.zero_le _
  · exact fun _ => ⟨rfl, hkept⟩
  · simp [hpad]
  · simp [hsilence]
  · simp [hspeaking]
  · intro x hx
    have hx' : x ∈ s.accepted ++ s.kept ++ [s.taken] := hfed ▸ hx
    show x < s.taken + 1 - 0 + min 2 0
    simp only [List.mem_append, List.mem_singleton] at hx'
    rcases hx' with (hx' | hx') | hx'
    · have hlt := h.fed_lt x hx'
      omega
    · have hlt := h.kept_lt x hx'
      omega
    · omega
  · simp
  · simp

/-- A chunk of confirmed speech. -/
theorem speaks (h : Tracked s) {i : ChunkInput ℕ} (hi : i.chunk = s.taken)
    (hon : s.worker.isSpeaking = true)
    (hgo : i.pass = true ∨ s.worker.consecutiveSilence + 1 < minSilenceFrames) :
    Tracked ⟨(s.worker.iterate i).1, s.taken + 1, 0⟩ ∧
      (s.worker.iterate i).1.isSpeaking = true := by
  obtain ⟨speech, silence, hshort, hspeaking, -, hsilence, hpad, hkept, hfed⟩ :=
    iterate_speaking (w := s.worker) hon hgo
  obtain ⟨hquiet, hempty⟩ := h.speaking hon
  rw [hi] at hfed
  have hlt : ∀ x ∈ s.accepted, x < s.taken := by
    intro x hx
    have hx' := h.fed_lt x hx
    omega
  have hnone : (s.worker.iterate i).1.preBuffer.chunks = [] := hkept.trans hempty
  refine ⟨?_, hspeaking⟩
  constructor
  · show ((s.worker.iterate i).1.provider.accepted).Pairwise (· < ·)
    rw [hfed]
    refine List.pairwise_append.mpr ⟨h.fed_sorted, List.pairwise_singleton _ _, ?_⟩
    intro x hx y hy
    rw [List.mem_singleton.mp hy]
    exact hlt x hx
  · show ((s.worker.iterate i).1.preBuffer.chunks).Pairwise (· < ·)
    rw [hnone]
    exact List.Pairwise.nil
  · simp [kept, hnone]
  · exact Nat.zero_le _
  · exact fun _ => ⟨rfl, hnone⟩
  · simp [hpad]
  · have hseven : silence ≤ 7 := Nat.le_of_lt_succ hshort
    simpa [hsilence] using hseven
  · simp [hspeaking]
  · intro x hx
    have hx' : x ∈ s.accepted ++ [s.taken] := hfed ▸ hx
    show x < s.taken + 1 - 0 + min 2 0
    rw [List.mem_append, List.mem_singleton] at hx'
    rcases hx' with hx' | hx'
    · have hold := hlt x hx'
      omega
    · omega
  · simp
  · simp

theorem silenceCount_le (h : Tracked s) (i : ChunkInput ℕ) :
    silenceCount s.worker i ≤ s.quiet + 1 + 7 := by
  have hold := h.silence
  unfold silenceCount
  split
  · omega
  · omega

theorem speechCount_le (h : Tracked s) {i : ChunkInput ℕ} (hq : QuietChunk s.worker i) :
    speechCount s.worker i ≤ s.quiet + 1 := by
  unfold speechCount
  split
  next hpass =>
    have hoff : s.worker.isSpeaking = false := by
      by_contra hon
      have hfalse := (hq.2 (by simpa using hon)).1
      simp [hpass] at hfalse
    have hold := h.speech hoff
    omega
  · omega

/-- A quiet chunk is kept in the buffer, whatever is fed. -/
theorem tracked_of_outcome (h : Tracked s) {i : ChunkInput ℕ} (hi : i.chunk = s.taken)
    (hq : QuietChunk s.worker i) {pad : ℕ} {fed : List ℕ}
    (hout : Outcome (s.worker.iterate i).1 false (speechCount s.worker i)
      (silenceCount s.worker i) pad (s.worker.preBuffer.append i.chunk).chunks fed)
    (hpad : pad = min 2 (s.quiet + 1)) (hsorted : fed.Pairwise (· < ·))
    (hlt : ∀ x ∈ fed, x < s.taken - s.quiet + min 2 (s.quiet + 1))
    (hmem : 2 ≤ s.quiet + 1 → s.taken - s.quiet + 1 ∈ fed) :
    Tracked ⟨(s.worker.iterate i).1, s.taken + 1, s.quiet + 1⟩ ∧
      (s.worker.iterate i).1.isSpeaking = false := by
  obtain ⟨hspeaking, hsp, hsi, htp, hkept, hfed⟩ := hout
  rw [hi] at hkept
  have hle := h.quiet_le
  have hstart : s.taken + 1 - (s.quiet + 1) = s.taken - s.quiet := by omega
  refine ⟨?_, hspeaking⟩
  constructor
  · show ((s.worker.iterate i).1.provider.accepted).Pairwise (· < ·)
    rw [hfed]
    exact hsorted
  · show ((s.worker.iterate i).1.preBuffer.chunks).Pairwise (· < ·)
    rw [hkept]
    exact h.append_sorted.1
  · intro y hy
    exact h.append_sorted.2 y (hkept ▸ hy)
  · exact Nat.succ_le_succ hle
  · intro hon
    exact absurd (hspeaking.symm.trans hon) (by simp)
  · exact htp.trans hpad
  · exact hsi.trans_le (silenceCount_le h i)
  · exact fun _ => hsp.trans_le (speechCount_le h hq)
  · intro x hx
    show x < s.taken + 1 - (s.quiet + 1) + min 2 (s.quiet + 1)
    rw [hstart]
    exact hlt x (hfed ▸ hx)
  · intro htwo
    show s.taken + 1 - (s.quiet + 1) + 1 ∈ (s.worker.iterate i).1.provider.accepted
    rw [hstart, hfed]
    exact hmem htwo
  · intro k hk
    show (s.worker.iterate i).1.preBuffer.chunks.reverse[k]? = some (s.taken + 1 - 1 - k)
    rw [hkept]
    exact h.append_recent k hk

/-- A chunk outside confirmed speech that is fed as trailing pad, or not fed. -/
theorem rests (h : Tracked s) {i : ChunkInput ℕ} (hi : i.chunk = s.taken)
    (hq : QuietChunk s.worker i) (hno : s.worker.resetsStream i = false) :
    Tracked ⟨(s.worker.iterate i).1, s.taken + 1, s.quiet + 1⟩ ∧
      (s.worker.iterate i).1.isSpeaking = false := by
  have hle := h.quiet_le
  have hpadded := h.pad
  have hcount := silenceCount_le h i
  rcases iterate_quiet hq with ⟨hyes, -⟩ | ⟨-, hdone, hout⟩ | ⟨-, hpad, hout⟩
  · simp [hno] at hyes
  · have htwo : 2 ≤ s.quiet := by
      rcases hdone with hpad | hlong
      · unfold trailingPadFrames at hpad
        omega
      · omega
    refine tracked_of_outcome h hi hq hout (by omega) h.fed_sorted ?_ fun _ => h.padded htwo
    intro x hx
    have hlt := h.fed_lt x hx
    omega
  · have hshort : s.quiet < 2 := by
      unfold trailingPadFrames at hpad
      omega
    have hlt : ∀ x ∈ s.accepted, x < s.taken := by
      intro x hx
      have hold := h.fed_lt x hx
      omega
    refine tracked_of_outcome h hi hq hout (by omega) ?_ ?_ ?_
    · rw [hi]
      refine List.pairwise_append.mpr ⟨h.fed_sorted, List.pairwise_singleton _ _, ?_⟩
      intro x hx y hy
      rw [List.mem_singleton.mp hy]
      exact hlt x hx
    · intro x hx
      rcases List.mem_append.mp hx with hx | hx
      · have hold := hlt x hx
        omega
      · rw [List.mem_singleton.mp hx, hi]
        omega
    · intro htwo
      have hone : s.taken - s.quiet + 1 = s.taken := by omega
      rw [hone, hi]
      exact List.mem_append_right _ (List.mem_singleton_self _)

/-- A chunk after which the loop resets the stream. -/
theorem expires (h : Tracked s) {i : ChunkInput ℕ} (hi : i.chunk = s.taken)
    (hq : QuietChunk s.worker i) (hyes : s.worker.resetsStream i = true) :
    Tracked ⟨(s.worker.iterate i).1, s.taken + 1, 0⟩ := by
  rcases iterate_quiet hq with ⟨-, hout⟩ | ⟨hno, -⟩ | ⟨hno, -⟩
  · obtain ⟨hspeaking, hsp, hsi, htp, hkept, hfed⟩ := hout
    rw [hi] at hkept
    constructor
    · show ((s.worker.iterate i).1.provider.accepted).Pairwise (· < ·)
      rw [hfed]
      exact List.Pairwise.nil
    · show ((s.worker.iterate i).1.preBuffer.chunks).Pairwise (· < ·)
      rw [hkept]
      exact h.append_sorted.1
    · intro y hy
      exact h.append_sorted.2 y (hkept ▸ hy)
    · exact Nat.zero_le _
    · simp [hspeaking]
    · exact htp
    · simp [hsi]
    · simp [hsp]
    · simp [accepted, hfed]
    · simp
    · simp
  · simp [hyes] at hno
  · simp [hyes] at hno

/-- Every step past the clearance keeps the invariant. -/
theorem step (h : Tracked s) {e : WorkerEvent} (hcond : s.ConfirmsSpeech e → clearance ≤ s.quiet)
    (hstep : CaptureRun.step s e = some t) : Tracked t := by
  cases e with
  | reset now =>
      obtain rfl := Option.some.inj hstep
      exact h.reset now
  | chunk pass decoded now =>
      obtain rfl := Option.some.inj hstep
      generalize hinput : s.input pass decoded now = i
      have hi : i.chunk = s.taken := by rw [← hinput]; rfl
      have hpass : i.pass = pass := by rw [← hinput]; rfl
      cases hc : s.worker.confirmsSpeech pass with
      | true =>
          have hc' : s.worker.confirmsSpeech i.pass = true := by rw [hpass]; exact hc
          have hon := (iterate_confirms hc').isSpeaking
          rw [if_pos (Or.inr hon)]
          exact h.confirms hi hc' (hcond hc)
      | false =>
          by_cases hgo : s.worker.isSpeaking = true ∧
              (i.pass = true ∨ s.worker.consecutiveSilence + 1 < minSilenceFrames)
          · obtain ⟨hnext, hon⟩ := h.speaks hi hgo.1 hgo.2
            rw [if_pos (Or.inr hon)]
            exact hnext
          · have hq : QuietChunk s.worker i := by
              refine ⟨by rw [hpass]; exact hc, ?_⟩
              intro hon
              have hstop := not_or.mp fun hor => hgo ⟨hon, hor⟩
              exact ⟨by simpa using hstop.1, not_lt.mp hstop.2⟩
            cases hreset : s.worker.resetsStream i with
            | true =>
                rw [if_pos (Or.inl rfl)]
                exact h.expires hi hq hreset
            | false =>
                obtain ⟨hnext, hoff⟩ := h.rests hi hq hreset
                rw [if_neg (by simp [hoff])]
                exact hnext

end Tracked

/-- A flush short of the clearance feeds a chunk twice or out of order. -/
theorem not_sorted_of_flush {s t : CaptureRun} {e : WorkerEvent} (h : Tracked s)
    (hmiss : ¬ (s.ConfirmsSpeech e → clearance ≤ s.quiet)) (hstep : step s e = some t) :
    ¬ t.accepted.Pairwise (· < ·) := by
  obtain ⟨hc, hshort⟩ := Classical.not_imp.mp hmiss
  cases e with
  | reset now => exact hc.elim
  | chunk pass decoded now =>
      obtain rfl := Option.some.inj hstep
      intro hsorted
      have hfed := (iterate_confirms (w := s.worker) (i := s.input pass decoded now) hc).accepted
      have hflush : (s.accepted ++ s.kept ++ [s.taken]).Pairwise (· < ·) := by
        have hsame : (s.worker.iterate (s.input pass decoded now)).1.provider.accepted =
            s.accepted ++ s.kept ++ [s.taken] := hfed
        rw [← hsame]
        exact hsorted
      exact hshort ((h.flush_sorted_iff (h.two_le_quiet hc).1).mp hflush)

/-- **Feeding order.**  In every run of the worker, for all VAD decisions,
decoded texts, resets and clock readings, every generation's stream accepts the
captured chunks in strictly increasing order, none twice, exactly when at every
confirmation of speech at least seven chunks have passed outside speech since the
last chunk of speech or the last reset. -/
theorem accepted_increasing_iff (start : ℚ) (events : List WorkerEvent) :
    Always step (fun s => s.accepted.Pairwise (· < ·)) (init start) events ↔
      MeetsAlong step (fun s e => s.ConfirmsSpeech e → clearance ≤ s.quiet) (init start)
        events := by
  obtain ⟨final, hrun⟩ := execute_isSome (init start) events
  exact always_iff_meetsAlong step Tracked (tracked_init start) (fun _ h => h.fed_sorted)
    (fun _ _ _ h _ hcond hstep => h.step hcond hstep)
    (fun _ _ _ h _ hmiss hstep => not_sorted_of_flush h hmiss hstep) hrun

/-- Three speech chunks right after the start: `0` and `1` are fed as padding and
again by the flush. -/
theorem opening_speech_fed_twice :
    (execute step (init 0) [.chunk true [] 0, .chunk true [] 0, .chunk true [] 0]).map
        (·.accepted) = some [0, 1, 0, 1, 2] ∧
      ¬ Always step (fun s => s.accepted.Pairwise (· < ·)) (init 0)
        [.chunk true [] 0, .chunk true [] 0, .chunk true [] 0] := by
  have hfed : (execute step (init 0) [.chunk true [] 0, .chunk true [] 0, .chunk true [] 0]).map
      (·.accepted) = some [0, 1, 0, 1, 2] := by decide +kernel
  refine ⟨hfed, ?_⟩
  intro halways
  obtain ⟨final, hrun, haccepted⟩ := Option.map_eq_some_iff.mp hfed
  have hsorted := always_final step halways hrun
  rw [haccepted] at hsorted
  revert hsorted
  decide

end CaptureRun

end Audio
end AvaListener
