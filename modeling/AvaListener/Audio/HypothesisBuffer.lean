import Mathlib.Algebra.Order.Ring.Rat
import Mathlib.Data.List.TakeWhile
import AvaListener.Config.Defaults
import AvaListener.Matcher.Evaluator

/-!
# The rolling hypothesis buffer

`runtime/audio/realtime/ring_buffer.py`.  Every operation takes the clock
readings it makes: `push` reads the clock once for the stamp and once for the
purge, `get_window` once.

The deque is only ever purged from the front, so what an operation can see of an
old buffer is its live part; `push_eq_push_live` makes that precise.
-/

namespace AvaListener
namespace Audio

open Library Config Matcher

/-- `(monotonic_timestamp, text, stability_frames)`. -/
structure BufferEntry where
  stamp : ℚ
  text : Text
  stability : ℕ
  deriving DecidableEq

structure HypothesisBuffer where
  entries : List BufferEntry
  deriving DecidableEq

namespace HypothesisBuffer

def empty : HypothesisBuffer := ⟨[]⟩

/-- Stale at clock reading `now`. -/
def stale (now : ℚ) (e : BufferEntry) : Bool :=
  e.stamp < now - windowSeconds

/-- `_purge`. -/
def purge (now : ℚ) (b : HypothesisBuffer) : HypothesisBuffer :=
  ⟨b.entries.dropWhile (stale now)⟩

/-- The growing-prefix test of `push`. -/
def absorbs (text : Text) (last : BufferEntry) : Bool :=
  last.text ≠ [] ∧ (startsWith text last.text ∨ startsWith last.text text)

/-- The entries `push` keeps in front of the new one: without the last entry
where the new text replaces it in place. -/
def kept (text : Text) (entries : List BufferEntry) : List BufferEntry :=
  if (entries.getLast?.any (absorbs text)) then entries.dropLast else entries

def push (b : HypothesisBuffer) (stampTime purgeTime : ℚ) (text : Text) (stability : ℕ) :
    HypothesisBuffer :=
  purge purgeTime ⟨kept text b.entries ++ [⟨stampTime, text, stability⟩]⟩

/-- `(text, stability)` of all entries, after the purge `get_window` makes. -/
def window (b : HypothesisBuffer) : List Hypothesis :=
  b.entries.map fun e => ⟨e.text, e.stability⟩

def clear (_ : HypothesisBuffer) : HypothesisBuffer := empty

/-- The entries a reader at clock reading `now` can still see. -/
def live (now : ℚ) (b : HypothesisBuffer) : List BufferEntry :=
  b.entries.dropWhile (stale now)

theorem kept_sublist (text : Text) (entries : List BufferEntry) :
    (kept text entries).Sublist entries := by
  unfold kept
  split
  · exact List.dropLast_sublist entries
  · exact List.Sublist.refl entries

/-- **A push sees only the live entries.**  The stale ones are in front of the
live ones, and if all are stale the pushed entry is the only one that can
survive the purge. -/
theorem push_eq_push_live (b : HypothesisBuffer)
    (stampTime purgeTime : ℚ) (text : Text) (stability : ℕ) :
    b.push stampTime purgeTime text stability =
      push ⟨b.live purgeTime⟩ stampTime purgeTime text stability := by
  have hsplit : b.entries = b.entries.takeWhile (stale purgeTime) ++ b.live purgeTime :=
    List.takeWhile_append_dropWhile.symm
  have hdead : ∀ e ∈ b.entries.takeWhile (stale purgeTime), stale purgeTime e = true :=
    fun e he => List.mem_takeWhile_imp he
  cases hlive : b.live purgeTime with
  | nil =>
      -- Everything is stale: whatever `kept` keeps is purged.
      rw [hlive, List.append_nil] at hsplit
      have hkept : ∀ e ∈ kept text b.entries, stale purgeTime e = true := by
        intro e he
        refine hdead e ?_
        rw [← hsplit]
        exact (kept_sublist text b.entries).subset he
      simp only [push, purge, List.dropWhile_append_of_pos hkept]
      simp [kept]
  | cons e rest =>
      rw [hlive] at hsplit
      have hkept : kept text b.entries =
          b.entries.takeWhile (stale purgeTime) ++ kept text (e :: rest) := by
        have hlast : b.entries.getLast? = (e :: rest).getLast? := by
          rw [hsplit, List.getLast?_append, List.getLast?_cons, Option.some_or]
        unfold kept
        rw [hlast]
        split
        · conv_lhs => rw [hsplit]
          rw [List.dropLast_append_of_ne_nil (by simp)]
        · exact hsplit
      simp only [push, purge, hkept, List.append_assoc, List.dropWhile_append_of_pos hdead]

end HypothesisBuffer

end Audio
end AvaListener
