import Mathlib.Tactic.IntervalCases
import AvaListener.Supervision.Watchdog

/-!
# Resets that keep failing

`_recover_stream` where every reset of the stream raises.  Then nothing clears the
failures that the policy counts, and the delays double: a tenth of a second after the
first attempt, 6.4 seconds after the seventh.  The eighth failure escalates in place of an
eighth attempt, and only `reset_recovery_state` reopens the stream for resets.

The time of the next attempt is a sum of doubles, and rounded: a delay may be short by the
rounding (`second_attempt_early`).
-/

namespace AvaListener
namespace Supervision
namespace Hardening

open Library

/-- The policy of the watchdog when `n` failures have been counted. -/
def RecoveryPolicy.afterFailures (n : ℕ) : RecoveryPolicy := { ofWatchdog with retries := n }

namespace RuntimeWatchdog

open Hardening.RecoveryPolicy

/-- One failure more that leaves retries: the delay is not yet at the ceiling. -/
theorem failure_tolerated {n : ℕ} (h : n < 7) :
    (afterFailures n).recordFailure.nextBackoff = (100 * 2 ^ n, afterFailures (n + 1)) ∧
      (afterFailures (n + 1)).shouldEscalate = false := by
  interval_cases n <;> decide +kernel

/-- The eighth failure is the last. -/
theorem failure_exhausts :
    (afterFailures 7).recordFailure.nextBackoff.2.shouldEscalate = true ∧
      (afterFailures 7).recordFailure.nextBackoff.2.reset = ofWatchdog := by
  decide +kernel

section Recover

variable {w : RuntimeWatchdog} {now : ℚ} (reason : Text)

/-- The reset is attempted, and raises. -/
theorem recoverStream_attempt {n : ℕ} (hescalated : w.escalated = false)
    (hopen : w.nextAllowedReset ≤ now) (hpolicy : w.recoveryPolicy = afterFailures n)
    (hn : n < 7) :
    w.recoverStream reason ⟨now, false⟩ =
      { w with
        recoveryPolicy := afterFailures (n + 1)
        nextAllowedReset := binary64 (now + binary64 (100 * 2 ^ n / 1000)) }.countReset
          reason := by
  obtain ⟨hbackoff, htolerated⟩ := failure_tolerated hn
  have hcounted : w.countFailure now =
      { w with
        recoveryPolicy := afterFailures (n + 1)
        nextAllowedReset := binary64 (now + binary64 (100 * 2 ^ n / 1000)) } := by
    rw [countFailure, hpolicy, hbackoff]
  rw [recoverStream_of_tolerated reason hescalated hopen (by rw [hcounted]; exact htolerated),
    if_neg (by simp), hcounted]

/-- The watchdog gives up instead. -/
theorem recoverStream_escalates (hescalated : w.escalated = false)
    (hopen : w.nextAllowedReset ≤ now) (hpolicy : w.recoveryPolicy = afterFailures 7) :
    w.recoverStream reason ⟨now, false⟩ = (w.countFailure now).escalate :=
  recoverStream_of_exhausted reason hescalated hopen
    (by rw [countFailure, hpolicy]; exact failure_exhausts.1)

end Recover

/-! ## Runs -/

/-- The watchdog, with the times of the resets that it has attempted since its recovery
state was last cleared. -/
structure FailingStream where
  watchdog : RuntimeWatchdog
  clock : ℚ
  attempts : List ℚ

/-- A call of `_recover_stream`, with its clock reading, or of `reset_recovery_state`. -/
inductive RecoveryCall where
  | recoverStream (reason : Text) (now : ℚ)
  | resetRecoveryState
  deriving DecidableEq

namespace FailingStream

def start (clock : ℚ) : FailingStream where
  watchdog := .init
  clock := clock
  attempts := []

/-- Every reset that is attempted raises.  An attempt is counted before it is made. -/
def step (s : FailingStream) : RecoveryCall → Option FailingStream
  | .recoverStream reason now =>
      if s.clock ≤ now then
        let w := s.watchdog.recoverStream reason ⟨now, false⟩
        some ⟨w, now,
          if w.resetsTotal = s.watchdog.resetsTotal then s.attempts else s.attempts ++ [now]⟩
      else none
  | .resetRecoveryState => some ⟨s.watchdog.resetRecoveryState, s.clock, []⟩

/-- Each attempt comes after the one before by the delay that this one was given, as summed
in double precision. -/
def BackedOff (attempts : List ℚ) : Prop :=
  ∀ n a b, attempts[n]? = some a → attempts[n + 1]? = some b →
    binary64 (a + binary64 (100 * 2 ^ n / 1000)) ≤ b

/-- While the watchdog has not escalated, its policy has counted the attempts, and the
next one waits for the delay after the last. -/
structure Pending (s : FailingStream) : Prop where
  policy : s.watchdog.recoveryPolicy = afterFailures s.attempts.length
  gate : ∀ n a, s.attempts.length = n + 1 → s.attempts[n]? = some a →
    binary64 (a + binary64 (100 * 2 ^ n / 1000)) ≤ s.watchdog.nextAllowedReset

/-- The invariant of the runs. -/
structure Coherent (s : FailingStream) : Prop where
  length_le : s.attempts.length ≤ 7
  backedOff : BackedOff s.attempts
  cleared : s.watchdog.recoveryPolicy.reset = ofWatchdog
  pending : s.watchdog.escalated = false → s.Pending

theorem coherent_cleared {w : RuntimeWatchdog} {clock : ℚ} (h : w.recoveryPolicy = ofWatchdog) :
    Coherent ⟨w, clock, []⟩ where
  length_le := Nat.zero_le _
  backedOff n a b ha := by cases ha
  cleared := by rw [h]; rfl
  pending _ := ⟨h, fun n a hlength => by cases hlength⟩

theorem backedOff_concat {attempts : List ℚ} {now : ℚ} (h : BackedOff attempts)
    (hlast : ∀ n a, attempts.length = n + 1 → attempts[n]? = some a →
      binary64 (a + binary64 (100 * 2 ^ n / 1000)) ≤ now) :
    BackedOff (attempts ++ [now]) := by
  intro n a b ha hb
  have hn : n + 1 ≤ attempts.length := by
    have hlt := (List.getElem?_eq_some_iff.mp hb).1
    simp only [List.length_append, List.length_singleton] at hlt
    omega
  rw [List.getElem?_append_left hn] at ha
  rcases hn.eq_or_lt with hend | hlt
  · rw [hend, List.getElem?_concat_length] at hb
    obtain rfl := Option.some.inj hb
    exact hlast n a hend.symm ha
  · rw [List.getElem?_append_left hlt] at hb
    exact h n a b ha hb

variable {s t : FailingStream}

/-- **One call** keeps the attempts apart, and no more of them than seven. -/
theorem coherent_recoverStream (h : s.Coherent) {reason : Text} {now : ℚ}
    (hstep : s.step (.recoverStream reason now) = some t) : t.Coherent := by
  rw [step] at hstep
  split at hstep
  next =>
    obtain rfl := Option.some.inj hstep
    by_cases hheld : s.watchdog.escalated = true ∨ now < s.watchdog.nextAllowedReset
    · rw [recoverStream_held reason hheld, if_pos rfl]
      refine ⟨h.length_le, h.backedOff, h.cleared, ?_⟩
      intro hnot
      exact ⟨(h.pending hnot).policy, (h.pending hnot).gate⟩
    · obtain ⟨hescalated, hopen⟩ := not_or.mp hheld
      rw [Bool.not_eq_true] at hescalated
      rw [not_lt] at hopen
      obtain ⟨hpolicy, hgate⟩ := h.pending hescalated
      rcases h.length_le.lt_or_eq with hfew | hseven
      · -- The delay after the last attempt is over.
        have hlast : ∀ n a, s.attempts.length = n + 1 → s.attempts[n]? = some a →
            binary64 (a + binary64 (100 * 2 ^ n / 1000)) ≤ now :=
          fun n a hlength ha => (hgate n a hlength ha).trans hopen
        rw [recoverStream_attempt reason hescalated hopen hpolicy hfew,
          if_neg (by simp [countReset])]
        have hlength : (s.attempts ++ [now]).length = s.attempts.length + 1 := by simp
        refine ⟨by rw [hlength]; exact hfew, backedOff_concat h.backedOff hlast, rfl, ?_⟩
        refine fun _ => ⟨by rw [hlength]; rfl, ?_⟩
        intro n a hlength ha
        simp only [List.length_append, List.length_singleton, Nat.add_right_cancel_iff] at hlength
        subst hlength
        rw [List.getElem?_concat_length] at ha
        obtain rfl := Option.some.inj ha
        exact le_rfl
      · rw [hseven] at hpolicy
        have hnone : (s.watchdog.countFailure now).escalate.resetsTotal = s.watchdog.resetsTotal :=
          rfl
        rw [recoverStream_escalates reason hescalated hopen hpolicy, if_pos hnone]
        refine ⟨h.length_le, h.backedOff, ?_, fun hnot => by cases hnot⟩
        show (s.watchdog.recoveryPolicy.recordFailure.nextBackoff.2).reset = ofWatchdog
        rw [hpolicy]
        exact failure_exhausts.2
  next => cases hstep

theorem coherent_step (h : s.Coherent) (l : RecoveryCall) (hstep : s.step l = some t) :
    t.Coherent := by
  cases l with
  | recoverStream reason now => exact coherent_recoverStream h hstep
  | resetRecoveryState =>
      obtain rfl := Option.some.inj hstep
      exact coherent_cleared h.cleared

/-- An escalated watchdog does nothing but be reset. -/
theorem escalated_step (h : s.watchdog.escalated = true) {l : RecoveryCall}
    (hl : l ≠ .resetRecoveryState) (hstep : s.step l = some t) :
    t.watchdog = s.watchdog ∧ t.attempts = s.attempts := by
  cases l with
  | recoverStream reason now =>
      rw [step] at hstep
      split at hstep
      next =>
        obtain rfl := Option.some.inj hstep
        rw [recoverStream_held reason (.inl h), if_pos rfl]
        exact ⟨rfl, rfl⟩
      next => cases hstep
  | resetRecoveryState => exact absurd rfl hl

/-- The resets attempted since the recovery state was last cleared are few and far between,
and none is added once the watchdog has escalated, until the state is cleared again. -/
structure ResetsBounded (s : FailingStream) : Prop where
  length_le : s.attempts.length ≤ 7
  backedOff : BackedOff s.attempts
  escalated : s.watchdog.escalated = true → ∀ calls t, .resetRecoveryState ∉ calls →
    execute step s calls = some t → t.attempts = s.attempts

/-- **Resets that keep failing** are given up after seven attempts, with delays that
double, up to the rounding of their sums. -/
theorem resetsBounded_of_execute {clock : ℚ} {calls : List RecoveryCall}
    (hrun : execute step (start clock) calls = some s) : s.ResetsBounded := by
  have hcoherent : s.Coherent := execute_invariant step Coherent (coherent_cleared rfl)
    (fun a l b ha _ hstep => coherent_step ha l hstep) hrun
  refine ⟨hcoherent.length_le, hcoherent.backedOff, ?_⟩
  intro hescalated more t hmore ht
  have hend := execute_invariant step
    (fun u => u.watchdog.escalated = true ∧ u.attempts = s.attempts) ⟨hescalated, rfl⟩ ?_ ht
  · exact hend.2
  · rintro a l b ⟨ha, hattempts⟩ hl hstep
    obtain ⟨hwatchdog, hsame⟩ := escalated_step ha (fun heq => hmore (heq ▸ hl)) hstep
    exact ⟨by rw [hwatchdog]; exact ha, hsame.trans hattempts⟩

/-- Ten calls ten seconds apart: seven attempts, and then none. -/
theorem ten_calls_bounded :
    ∃ s, execute step (start 0) ((List.range 10).map fun n => .recoverStream workerDead (10 * n)) =
        some s ∧ s.attempts.length = 7 ∧ s.watchdog.escalated = true ∧ s.ResetsBounded := by
  have hrun : ((execute step (start 0)
      ((List.range 10).map fun n => .recoverStream workerDead (10 * n))).any fun s =>
        s.attempts.length = 7 ∧ s.watchdog.escalated = true) = true := by decide +kernel
  obtain ⟨s, hs, hend⟩ := (Option.any_eq_true _ _).mp hrun
  obtain ⟨hlength, hescalated⟩ := of_decide_eq_true hend
  exact ⟨s, hs, hlength, hescalated, resetsBounded_of_execute hs⟩

/-- **A delay cut short**: `4.0 + 0.1` is the double 4.1, which is a little less. -/
theorem second_attempt_early :
    ∃ s, execute step (start 0)
        [.recoverStream workerDead 4, .recoverStream workerDead (binary64 4.1)] = some s ∧
      s.attempts = [4, binary64 4.1] ∧ ((binary64 4.1 : ℚ) - 4) * 1000 < 100 := by
  have hrun : (execute step (start 0)
      [.recoverStream workerDead 4, .recoverStream workerDead (binary64 4.1)]).map
        FailingStream.attempts = some [4, binary64 4.1] := by decide +kernel
  obtain ⟨s, hs, hattempts⟩ := Option.map_eq_some_iff.mp hrun
  exact ⟨s, hs, hattempts, by decide +kernel⟩

end FailingStream

end RuntimeWatchdog

end Hardening
end Supervision
end AvaListener
