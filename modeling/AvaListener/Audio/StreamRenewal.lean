import AvaListener.Audio.Iteration
import AvaListener.Library.Runs

/-!
# Renewing the stream in silence

A stream that has heard speech should be replaced during a long enough silence,
so that the next utterance does not continue the old one.  The worker tries the
inactivity reset at one value of the silence counter, the timeout that belongs to
the last hypothesis, and only if the reset cooldown has passed by then.  Neither
test is made again: past that value the counter is never equal to the timeout.
-/

namespace AvaListener
namespace Audio

open Library Config

/-- A turn of the loop of `_run`: a dequeued chunk or an empty queue; or a
stream reset from outside the loop. -/
inductive StreamEvent (κ : Type*) where
  | chunk (i : ChunkInput κ)
  | idle (now : ℚ)
  | reset (now : ℚ)

/-- A worker with the time of its last event. -/
structure StreamRun (κ : Type*) where
  worker : AudioWorker κ
  clock : ℚ

namespace StreamRun

variable {κ : Type*}

def init (start : ℚ) : StreamRun κ :=
  ⟨.init start, start⟩

def step (s : StreamRun κ) : StreamEvent κ → Option (StreamRun κ)
  | .chunk i => some ⟨(s.worker.iterate i).1, i.now⟩
  -- `queue.Empty`: the loop goes round without a chunk.
  | .idle now => some { s with clock := now }
  | .reset now => some ⟨s.worker.resetStream now, now⟩

/-- Speech has been confirmed in the generation, the silence has outlasted both
timeouts and the reset cooldown, and the stream is still the same. -/
def Overdue (s : StreamRun κ) : Prop :=
  s.worker.hasSpokenInGeneration = true ∧ 25 < s.worker.consecutiveSilence ∧
    resetCooldownSeconds ≤ s.clock - s.worker.provider.lastResetTime

instance : DecidablePred (Overdue : StreamRun κ → Prop) := fun s =>
  inferInstanceAs (Decidable (s.worker.hasSpokenInGeneration = true ∧
    25 < s.worker.consecutiveSilence ∧
      resetCooldownSeconds ≤ s.clock - s.worker.provider.lastResetTime))

/-- A silent chunk that reaches the timeout after confirmed speech reaches it
exactly, and with the cooldown passed. -/
def TimeoutTaken (s : StreamRun κ) : StreamEvent κ → Prop
  | .chunk i =>
      s.worker.hasSpokenInGeneration = true → i.pass = false →
        AudioWorker.silenceTimeout s.worker.lastHypothesis ≤ s.worker.consecutiveSilence + 1 →
          s.worker.consecutiveSilence + 1 =
              AudioWorker.silenceTimeout s.worker.lastHypothesis ∧
            resetCooldownSeconds ≤ i.now - s.worker.provider.lastResetTime
  | .idle _ => True
  | .reset _ => True

instance (s : StreamRun κ) : ∀ e, Decidable (TimeoutTaken s e)
  | .chunk i => inferInstanceAs (Decidable (s.worker.hasSpokenInGeneration = true →
      i.pass = false →
        AudioWorker.silenceTimeout s.worker.lastHypothesis ≤ s.worker.consecutiveSilence + 1 →
          s.worker.consecutiveSilence + 1 =
              AudioWorker.silenceTimeout s.worker.lastHypothesis ∧
            resetCooldownSeconds ≤ i.now - s.worker.provider.lastResetTime))
  | .idle _ => inferInstanceAs (Decidable True)
  | .reset _ => inferInstanceAs (Decidable True)

/-! ## Renewal -/

/-- With speech confirmed, silence has not reached the larger timeout. -/
def Renewed (s : StreamRun κ) : Prop :=
  s.worker.hasSpokenInGeneration = true → s.worker.consecutiveSilence < 25

theorem Renewed.not_overdue {s : StreamRun κ} (h : Renewed s) : ¬ Overdue s := by
  rintro ⟨hspoken, hlong, -⟩
  have hlt := h hspoken
  omega

/-- A silent chunk whose timeout is taken leaves the stream renewed. -/
theorem renewed_silent {s : StreamRun κ} {i : ChunkInput κ}
    (hpass : i.pass = false) (htaken : TimeoutTaken s (.chunk i)) :
    Renewed ⟨(s.worker.iterate i).1, i.now⟩ := by
  obtain ⟨speaking, kept, hprepared⟩ := AudioWorker.prepared_silent (w := s.worker) hpass
  intro hspoken
  cases htime : s.worker.timesOut i with
  | false =>
      -- Below the timeout, which is at most 25, the counter stays below 25.
      have hshort : ¬ AudioWorker.silenceTimeout s.worker.lastHypothesis ≤
          s.worker.consecutiveSilence + 1 := by
        intro hle
        rw [(AudioWorker.timesOut_silent hpass).mpr hle] at htime
        exact Bool.noConfusion htime
      have hle := AudioWorker.silenceTimeout_le s.worker.lastHypothesis
      have hcount : (s.worker.iterate i).1.consecutiveSilence =
          s.worker.consecutiveSilence + 1 := by
        rw [(AudioWorker.iterate_of_not_timesOut htime).2, hprepared]
      show (s.worker.iterate i).1.consecutiveSilence < 25
      omega
  | true =>
      have hle := (AudioWorker.timesOut_silent hpass).mp htime
      cases hreset : s.worker.resetsStream i with
      | true =>
          have hfresh : (s.worker.iterate i).1 = (s.worker.prepared i).resetStream i.now := by
            simp [AudioWorker.iterate, htime, hreset]
          show (s.worker.iterate i).1.consecutiveSilence < 25
          rw [hfresh]
          exact Nat.zero_lt_succ _
      | false =>
          have hsame : (s.worker.iterate i).1 = s.worker.prepared i := by
            simp [AudioWorker.iterate, htime, hreset]
          have hbefore : s.worker.hasSpokenInGeneration = true := by
            rw [hsame, hprepared] at hspoken
            exact hspoken
          -- A timeout that is taken resets, so this case does not arise.
          obtain ⟨hexact, hcool⟩ := htaken hbefore hpass hle
          have hdone := (AudioWorker.resetsStream_silent hpass hle).mpr ⟨hexact, hbefore, hcool⟩
          rw [hreset] at hdone
          exact Bool.noConfusion hdone

theorem Renewed.step {s t : StreamRun κ} {e : StreamEvent κ} (h : Renewed s)
    (htaken : TimeoutTaken s e) (hstep : step s e = some t) : Renewed t := by
  cases e with
  | idle now =>
      obtain rfl := Option.some.inj hstep
      exact h
  | reset now =>
      obtain rfl := Option.some.inj hstep
      exact fun _ => Nat.zero_lt_succ _
  | chunk i =>
      obtain rfl := Option.some.inj hstep
      cases hpass : i.pass with
      | false => exact renewed_silent hpass htaken
      | true =>
          intro _
          have hzero := AudioWorker.prepared_speech (w := s.worker) hpass
          have htime : s.worker.timesOut i = false := by
            have hge := AudioWorker.silenceTimeout_ge s.worker.lastHypothesis
            simp only [AudioWorker.timesOut, hzero, decide_eq_false_iff_not]
            omega
          show (s.worker.iterate i).1.consecutiveSilence < 25
          rw [(AudioWorker.iterate_of_not_timesOut htime).2, hzero]
          exact Nat.zero_lt_succ _

/-- **Renewal.**  In every run of the worker, for all chunks, decisions,
hypotheses, resets and clock readings, no stream is overdue if every silence that
reaches its timeout after confirmed speech reaches it exactly and with the
cooldown passed. -/
theorem never_overdue (start : ℚ) (events : List (StreamEvent κ))
    (htaken : MeetsAlong step TimeoutTaken (init start) events) :
    Always step (fun s => ¬ Overdue s) (init start) events := by
  have hstart : Renewed (init start : StreamRun κ) := by
    intro hspoken
    exact Bool.noConfusion hspoken
  refine always_of_meetsAlong step hstart (fun _ h => h.not_overdue) ?_ htaken
  intro s e t h hcond hstep
  exact h.step hcond hstep

/-! ## A missed timeout -/

/-- Speech confirmed, and the counter already at or past the timeout. -/
def Missed (w : AudioWorker κ) : Prop :=
  w.hasSpokenInGeneration = true ∧
    AudioWorker.silenceTimeout w.lastHypothesis ≤ w.consecutiveSilence

/-- A timeout that is not taken is missed. -/
theorem missed_of_not_taken {s t : StreamRun κ} {e : StreamEvent κ} (h : ¬ TimeoutTaken s e)
    (hstep : step s e = some t) : Missed t.worker := by
  cases e with
  | idle now => exact absurd trivial h
  | reset now => exact absurd trivial h
  | chunk i =>
      obtain rfl := Option.some.inj hstep
      simp only [TimeoutTaken, Classical.not_imp] at h
      obtain ⟨hspoken, hpass, hle, hno⟩ := h
      have hreset : s.worker.resetsStream i = false := by
        by_contra hyes
        have hparts := (AudioWorker.resetsStream_silent hpass hle).mp (by simpa using hyes)
        exact hno ⟨hparts.1, hparts.2.2⟩
      obtain ⟨speaking, kept, hprepared⟩ := AudioWorker.prepared_silent (w := s.worker) hpass
      have hsame : (s.worker.iterate i).1 = s.worker.prepared i := by
        simp [AudioWorker.iterate, (AudioWorker.timesOut_silent hpass).mpr hle, hreset]
      show Missed (s.worker.iterate i).1
      rw [hsame, hprepared]
      exact ⟨hspoken, hle⟩

/-- Once missed, a silent chunk only counts: the timeout is not tried again. -/
theorem Missed.silent {w : AudioWorker κ} (h : Missed w) {i : ChunkInput κ}
    (hpass : i.pass = false) :
    Missed (w.iterate i).1 ∧
      (w.iterate i).1.consecutiveSilence = w.consecutiveSilence + 1 ∧
        (w.iterate i).1.provider = w.provider := by
  have hle : AudioWorker.silenceTimeout w.lastHypothesis ≤ w.consecutiveSilence + 1 :=
    Nat.le_succ_of_le h.2
  have hreset : w.resetsStream i = false := by
    by_contra hyes
    -- The counter was at the timeout already and has gone past it.
    have hexact := ((AudioWorker.resetsStream_silent hpass hle).mp (by simpa using hyes)).1
    have hbefore := h.2
    omega
  obtain ⟨speaking, kept, hprepared⟩ := AudioWorker.prepared_silent (w := w) hpass
  have hsame : (w.iterate i).1 = w.prepared i := by
    simp [AudioWorker.iterate, (AudioWorker.timesOut_silent hpass).mpr hle, hreset]
  rw [hsame, hprepared]
  exact ⟨⟨h.1, hle⟩, rfl, rfl⟩

theorem Missed.silence {s t : StreamRun κ} (h : Missed s.worker) {chunks : List (ChunkInput κ)}
    (hpass : ∀ i ∈ chunks, i.pass = false)
    (hrun : execute step s (chunks.map .chunk) = some t) :
    Missed t.worker ∧
      t.worker.consecutiveSilence = s.worker.consecutiveSilence + chunks.length ∧
        t.worker.provider = s.worker.provider := by
  induction chunks generalizing s with
  | nil =>
      obtain rfl := Option.some.inj hrun
      exact ⟨h, rfl, rfl⟩
  | cons i rest ih =>
      obtain ⟨u, hstep, hrest⟩ := execute_cons_eq_some step hrun
      obtain rfl := Option.some.inj hstep
      obtain ⟨hnext, hcount, hsame⟩ := h.silent (hpass i (List.mem_cons_self ..))
      obtain ⟨hlast, hlong, hprovider⟩ :=
        ih hnext (fun j hj => hpass j (List.mem_cons_of_mem _ hj)) hrest
      refine ⟨hlast, ?_, hprovider.trans hsame⟩
      simp only [hlong, hcount, List.length_cons]
      omega

/-- **A missed timeout is missed for good.**  However long the same silence goes
on, the stream is not renewed, and it is overdue as soon as the cooldown passes. -/
theorem overdue_of_missed {s t u : StreamRun κ} {e : StreamEvent κ} (h : ¬ TimeoutTaken s e)
    (hstep : step s e = some t) {chunks : List (ChunkInput κ)}
    (hpass : ∀ i ∈ chunks, i.pass = false) (hlong : 8 ≤ chunks.length)
    (hrun : execute step t (chunks.map .chunk) = some u)
    (hcool : resetCooldownSeconds ≤ u.clock - t.worker.provider.lastResetTime) : Overdue u := by
  have hmissed := missed_of_not_taken h hstep
  obtain ⟨hlast, hcount, hprovider⟩ := hmissed.silence hpass hrun
  refine ⟨hlast.1, ?_, ?_⟩
  · have hge := AudioWorker.silenceTimeout_ge t.worker.lastHypothesis
    have hreached := hmissed.2
    omega
  · rw [hprovider]
    exact hcool

/-! ## Two utterances -/

/-- A chunk of either kind at a given second, decoding to nothing. -/
def unheard (pass : Bool) (now : ℚ) : StreamEvent Unit :=
  .chunk ⟨(), pass, [], now⟩

/-- Three chunks of speech and a silence that times out at `second`, going on
until the queue is empty at `last`. -/
def utterance (second last : ℚ) : List (StreamEvent Unit) :=
  List.replicate 3 (unheard true second) ++ List.replicate 26 (unheard false second) ++
    [.idle last]

theorem lateUtterance_never_overdue :
    Always step (fun s => ¬ Overdue s) (init 0) (unheard false 0 :: utterance 20 50) :=
  never_overdue 0 _ (by decide +kernel)

/-- An utterance two seconds after the start: the cooldown refuses the reset at
the timeout, and half a minute of silence does not renew the stream. -/
theorem earlyUtterance_overdue :
    ¬ Always step (fun s => ¬ Overdue s) (init 0) (utterance 2 30) := by
  decide +kernel

end StreamRun

end Audio
end AvaListener
