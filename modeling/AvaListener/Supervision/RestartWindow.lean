import Mathlib.Algebra.Order.Ring.Rat
import AvaListener.Library.Runs
import AvaListener.Library.SlidingWindow
import AvaListener.Supervision.RestartPolicy

/-!
# What the throttle counts

`record_restart` and `can_restart` drop stale stamps from the deque as they go.  On a clock
that does not go back the answers are those of the full history: `can_restart` allows a
restart exactly while fewer than `max_restarts` of all the restarts recorded have an age of
at most the window, and either loop may be left out of any call.

The age is the difference of two doubles, and rounded: a restart just outside the window may
still count (`restart_outside_counts`).
-/

namespace AvaListener
namespace Supervision

open Library

/-- A call of the policy, with the clock reading it makes. -/
inductive PolicyCall where
  | recordRestart (now : ℚ)
  | canRestart (now : ℚ)
  deriving DecidableEq

namespace PolicyCall

/-- `time.monotonic()`. -/
def time : PolicyCall → ℚ
  | recordRestart now => now
  | canRestart now => now

/-- The restart that the call records. -/
def restart : PolicyCall → Option ℚ
  | recordRestart now => some now
  | canRestart _ => none

end PolicyCall

namespace RestartPolicy

/-- A call, and the answer of `can_restart`. -/
def call (p : RestartPolicy) : PolicyCall → RestartPolicy × Option Bool
  | .recordRestart now => (p.recordRestart now, none)
  | .canRestart now => ((p.canRestart now).2, some (p.canRestart now).1)

/-- A call that leaves the stale stamps in the deque. -/
def callUnpruned (p : RestartPolicy) : PolicyCall → RestartPolicy × Option Bool
  | .recordRestart now => ({ p with timestamps := p.timestamps ++ [now] }, none)
  | .canRestart now => (p, some (p.canRestart now).1)

/-- A call that prunes the deque or leaves it. -/
def callEither (p : RestartPolicy) (c : PolicyCall × Bool) : RestartPolicy × Option Bool :=
  if c.2 then p.call c.1 else p.callUnpruned c.1

/-- All restarts that the calls record. -/
def recorded (calls : List PolicyCall) : List ℚ :=
  calls.filterMap PolicyCall.restart

/-! ## One call -/

theorem recorded_append (calls : List PolicyCall) (c : PolicyCall) :
    recorded (calls ++ [c]) = recorded calls ++ c.restart.toList := by
  rw [recorded, List.filterMap_append]
  cases c with
  | recordRestart now => rfl
  | canRestart now => rfl

/-- The restarts are in the order of the clock readings. -/
theorem recorded_sublist (calls : List PolicyCall) :
    (recorded calls).Sublist (calls.map PolicyCall.time) := by
  induction calls with
  | nil => exact List.Sublist.refl []
  | cons c rest ih =>
      cases c with
      | recordRestart now => exact ih.cons_cons now
      | canRestart now => exact ih.cons now

/-- Pruned or not, a call keeps what counts. -/
theorem keepsRecent_callEither {p : RestartPolicy} {times : List ℚ} {c : PolicyCall × Bool}
    (h : KeepsRecent p.stale c.1.time p.timestamps times) :
    KeepsRecent p.stale c.1.time (p.callEither c).1.timestamps (times ++ c.1.restart.toList) := by
  obtain ⟨c, prunes⟩ := c
  cases c with
  | recordRestart now =>
      cases prunes with
      | true => exact (h.record now).forget
      | false => exact h.record now
  | canRestart now =>
      rw [PolicyCall.restart, Option.toList_none, List.append_nil]
      cases prunes with
      | true => exact h.forget
      | false => exact h

theorem stale_congr {p q : RestartPolicy} (h : p.windowS = q.windowS) : p.stale = q.stale := by
  funext now t
  rw [stale, stale, h]

theorem callEither_frame (p : RestartPolicy) (c : PolicyCall × Bool) :
    (p.callEither c).1.maxRestarts = p.maxRestarts ∧ (p.callEither c).1.windowS = p.windowS := by
  obtain ⟨c, prunes⟩ := c
  cases c with
  | recordRestart now => cases prunes <;> exact ⟨rfl, rfl⟩
  | canRestart now => cases prunes <;> exact ⟨rfl, rfl⟩

/-- A policy that keeps what counts answers by the whole history. -/
theorem canRestart_of_keepsRecent {p : RestartPolicy} {times : List ℚ} {now : ℚ}
    (h : KeepsRecent p.stale now p.timestamps times)
    (horder : (times ++ [now]).Pairwise (· ≤ ·)) :
    (p.canRestart now).1 = true ↔
      ((times.countP fun t => t ≤ now ∧ binary64 (now - t) ≤ binary64 p.windowS : ℕ) : ℤ) <
        p.maxRestarts := by
  obtain ⟨hsorted, -, hle⟩ := List.pairwise_append.mp horder
  have hkept : (p.prune now).timestamps = times.filter fun t => !p.stale now t :=
    h.dropWhile_eq p.ages_stale le_rfl hsorted
  have hcount : (times.filter fun t => !p.stale now t).length =
      times.countP fun t => t ≤ now ∧ binary64 (now - t) ≤ binary64 p.windowS := by
    rw [← List.countP_eq_length_filter]
    refine List.countP_congr fun t ht => ?_
    simp [stale, hle t ht now (List.mem_singleton_self now)]
  rw [canRestart, hkept, hcount, decide_eq_true_iff]

/-! ## All calls -/

/-- The policy after the calls so far: its limits, and what it keeps of the restarts when the
next call comes. -/
structure KeepsHistory (maxRestarts : ℤ) (windowS : ℚ) (past : List (PolicyCall × Bool))
    (p : RestartPolicy) : Prop where
  limit : p.maxRestarts = maxRestarts
  width : p.windowS = windowS
  recent : ∀ next, ((past.map fun c => c.1.time) ++ [next]).Pairwise (· ≤ ·) →
    KeepsRecent p.stale next p.timestamps (recorded (past.map Prod.fst))

/-- **Step lemma.** -/
theorem KeepsHistory.callEither {maxRestarts : ℤ} {windowS : ℚ}
    {past : List (PolicyCall × Bool)} {p : RestartPolicy}
    (h : KeepsHistory maxRestarts windowS past p) (c : PolicyCall × Bool) :
    KeepsHistory maxRestarts windowS (past ++ [c]) (p.callEither c).1 := by
  obtain ⟨hlimit, hwidth⟩ := callEither_frame p c
  refine ⟨hlimit.trans h.limit, hwidth.trans h.width, fun next hclock => ?_⟩
  rw [List.map_append] at hclock
  obtain ⟨hpast, -, hle⟩ := List.pairwise_append.mp hclock
  have hnext : c.1.time ≤ next :=
    hle c.1.time (List.mem_append_right _ (List.mem_singleton_self _)) next
      (List.mem_singleton_self next)
  have hrecent := keepsRecent_callEither (h.recent c.1.time hpast)
  rw [List.map_append, List.map_singleton, recorded_append, stale_congr hwidth]
  exact hrecent.later p.ages_stale hnext

theorem keepsHistory (maxRestarts : ℤ) (windowS : ℚ) (past : List (PolicyCall × Bool)) :
    KeepsHistory maxRestarts windowS past
      (finalState callEither (create maxRestarts windowS) past) :=
  history_invariant callEither (KeepsHistory maxRestarts windowS)
    ⟨rfl, rfl, fun next _ => .refl _ next []⟩ (fun _ c h => h.callEither c) past

/-- The loops of any calls left out: the answer counts all restarts. -/
theorem canRestart_callEither {maxRestarts : ℤ} {windowS : ℚ} {past : List (PolicyCall × Bool)}
    {now : ℚ} (hclock : ((past.map fun c => c.1.time) ++ [now]).Pairwise (· ≤ ·)) :
    ((finalState callEither (create maxRestarts windowS) past).canRestart now).1 = true ↔
      (((recorded (past.map Prod.fst)).countP fun t =>
        t ≤ now ∧ binary64 (now - t) ≤ binary64 windowS : ℕ) : ℤ) < maxRestarts := by
  have h := keepsHistory maxRestarts windowS past
  generalize finalState callEither (create maxRestarts windowS) past = p at h ⊢
  have hrecent := h.recent now hclock
  have hsub : (recorded (past.map Prod.fst)).Sublist (past.map fun c => c.1.time) := by
    have hmap := recorded_sublist (past.map Prod.fst)
    rwa [List.map_map] at hmap
  have hanswer := canRestart_of_keepsRecent hrecent
    (hclock.sublist (hsub.append (List.Sublist.refl [now])))
  rwa [h.width, h.limit] at hanswer

/-- The program's calls all prune. -/
theorem finalState_call (p : RestartPolicy) (calls : List PolicyCall) :
    finalState call p calls = finalState callEither p (calls.map fun c => (c, true)) := by
  induction calls generalizing p with
  | nil => rfl
  | cons c rest ih => exact ih (p.call c).1

/-- **The throttle.**  On a clock that does not go back `can_restart` answers whether fewer
than `max_restarts` of all restarts recorded have an age, in double precision, of at most the
window, and which calls have pruned the deque makes no difference. -/
theorem canRestart_window (maxRestarts : ℤ) (windowS : ℚ) (past : List PolicyCall) (now : ℚ)
    (hclock : (past.map PolicyCall.time ++ [now]).Pairwise (· ≤ ·)) :
    (((finalState call (create maxRestarts windowS) past).canRestart now).1 = true ↔
        (((recorded past).countP fun t =>
          t ≤ now ∧ binary64 (now - t) ≤ binary64 windowS : ℕ) : ℤ) < maxRestarts) ∧
      ∀ choices : List (PolicyCall × Bool), choices.map Prod.fst = past →
        ((finalState callEither (create maxRestarts windowS) choices).canRestart now).1 =
          ((finalState call (create maxRestarts windowS) past).canRestart now).1 := by
  have hanswer : ∀ choices : List (PolicyCall × Bool), choices.map Prod.fst = past →
      (((finalState callEither (create maxRestarts windowS) choices).canRestart now).1 = true ↔
        (((recorded past).countP fun t =>
          t ≤ now ∧ binary64 (now - t) ≤ binary64 windowS : ℕ) : ℤ) < maxRestarts) := by
    rintro choices rfl
    rw [List.map_map] at hclock
    exact canRestart_callEither hclock
  have hall : (past.map fun c => (c, true)).map Prod.fst = past := by
    rw [List.map_map]
    exact List.map_id past
  have hprogram := hanswer _ hall
  rw [← finalState_call] at hprogram
  exact ⟨hprogram, fun choices h => Bool.eq_iff_iff.mpr ((hanswer choices h).trans hprogram.symm)⟩

/-- Two restarts a minute: the one that is exactly a minute old still counts. -/
theorem minuteOld_window :
    ((finalState call (create 2 60)
        [.recordRestart 0, .recordRestart 10]).canRestart 60).1 = false ∧
      ((finalState call (create 2 60)
        [.recordRestart 0, .recordRestart 10, .canRestart 60]).canRestart 61).1 = true := by
  have hfull := (canRestart_window 2 60
    [.recordRestart 0, .recordRestart 10] 60 (by decide +kernel)).1
  have hroom := (canRestart_window 2 60
    [.recordRestart 0, .recordRestart 10, .canRestart 60] 61 (by decide +kernel)).1
  refine ⟨?_, hroom.mpr (by decide +kernel)⟩
  rw [← Bool.not_eq_true, hfull]
  decide +kernel

/-- **A restart outside the window counts**: `60.1 - 0.1` is 60 in doubles, but a little more
in exact arithmetic. -/
theorem restart_outside_counts :
    ((finalState call (create 1 60) [.recordRestart (binary64 0.1)]).canRestart
        (binary64 60.1)).1 = false ∧
      (recorded [.recordRestart (binary64 0.1)]).countP
        (fun t => binary64 60.1 - 60 ≤ t ∧ t ≤ binary64 60.1) = 0 := by
  decide +kernel

end RestartPolicy

end Supervision
end AvaListener
