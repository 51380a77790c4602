import Mathlib.Algebra.Order.Ring.Rat
import Mathlib.Tactic.Linarith
import AvaListener.Library.Runs

/-!
# Attempts with a back-off

A timer for something that is attempted again and again: after the attempt of each
number so long a wait, and, if there is a limit, no more than so many attempts.  The
system's labels are the times of the attempts, so that a schedule is a history of
attempts and its completion says that the history keeps the contract.
-/

namespace AvaListener
namespace Library

structure Backoff where
  /-- The wait after so many attempts have been made before this one. -/
  wait : ℕ → ℚ
  /-- The most attempts, if there is a limit. -/
  limit : Option ℕ

/-- The attempts made, and the time before which there is no next one. -/
structure Backoff.Timer where
  attempts : ℕ
  due : ℚ
  deriving DecidableEq

namespace Backoff

variable (b : Backoff)

def attempt (timer : Timer) (now : ℚ) : Option Timer :=
  if timer.due ≤ now ∧ ∀ most ∈ b.limit, timer.attempts < most then
    some ⟨timer.attempts + 1, now + b.wait timer.attempts⟩
  else none

variable {b} {timer last : Timer} {times : List ℚ}

theorem attempt_eq_some {now : ℚ} (h : b.attempt timer now = some last) :
    timer.due ≤ now ∧ (∀ most ∈ b.limit, timer.attempts < most) ∧
      last = ⟨timer.attempts + 1, now + b.wait timer.attempts⟩ := by
  obtain ⟨hguard, heq⟩ := Option.ite_none_right_eq_some.mp h
  exact ⟨hguard.1, hguard.2, (Option.some.inj heq).symm⟩

/-- Every attempt is counted. -/
theorem attempts_execute (h : execute b.attempt timer times = some last) :
    last.attempts = timer.attempts + times.length := by
  induction times generalizing timer with
  | nil =>
      obtain rfl := Option.some.inj h
      rfl
  | cons now rest ih =>
      obtain ⟨next, hnext, hrest⟩ := execute_cons_eq_some b.attempt h
      obtain ⟨-, -, rfl⟩ := attempt_eq_some hnext
      rw [ih hrest, List.length_cons, Nat.add_assoc, Nat.add_comm 1]

/-- **The limit.** -/
theorem length_le_of_execute {most : ℕ} (hlimit : b.limit = some most)
    (hstart : timer.attempts ≤ most) (h : execute b.attempt timer times = some last) :
    timer.attempts + times.length ≤ most := by
  rw [← attempts_execute h]
  refine execute_invariant b.attempt (fun timer => timer.attempts ≤ most) hstart ?_ h
  intro a now next ha _ hnext
  obtain ⟨-, hless, rfl⟩ := attempt_eq_some hnext
  exact hless most hlimit

/-- The first attempt is not early. -/
theorem due_le_head (h : execute b.attempt timer times = some last) :
    ∀ now ∈ times.head?, timer.due ≤ now := by
  intro now hnow
  cases times with
  | nil => cases hnow
  | cons first rest =>
      obtain rfl := Option.some.inj hnow
      obtain ⟨next, hnext, -⟩ := execute_cons_eq_some b.attempt h
      exact (attempt_eq_some hnext).1

/-- **The waits.**  Between two attempts there is the wait that the back-off has there. -/
theorem wait_le_of_execute {xs ys : List ℚ} {earlier later : ℚ}
    (h : execute b.attempt timer (xs ++ earlier :: later :: ys) = some last) :
    earlier + b.wait (timer.attempts + xs.length) ≤ later := by
  obtain ⟨before, hbefore, hrest⟩ := execute_append_eq_some b.attempt h
  obtain ⟨next, hnext, hlater⟩ := execute_cons_eq_some b.attempt hrest
  obtain ⟨-, -, rfl⟩ := attempt_eq_some hnext
  rw [← attempts_execute hbefore]
  exact due_le_head hlater later rfl

end Backoff

end Library
end AvaListener
