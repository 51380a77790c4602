import Mathlib.Data.List.Basic
import Mathlib.Data.List.Range

/-!
# Items cut into blocks

A reader takes its items in blocks of one size, each with the items just before it as an
overlap, and carries a state from block to block.  The items come in pieces of any length:
those that do not fill a block wait (`Reading`).

Where the pieces are cut does not matter.  What has been read after some pieces is what the
reader makes of all their items in one pass (`Reading.append`, `Reading.next`,
`Reading.blocks_eq`), and further items only add answers (`answers_append`).
-/

namespace AvaListener
namespace Library

structure BlockReader (α β σ : Type*) where
  size : ℕ
  size_pos : 0 < size
  /-- What stands before the first item, as long as every overlap. -/
  lead : List α
  initial : σ
  /-- The answer to a block with its overlap in front, and the next state. -/
  read : List α → σ → β × σ

namespace BlockReader

variable {α β σ : Type*} (r : BlockReader α β σ) (items more : List α) (k : ℕ)

/-! ## One pass over all items -/

/-- The items before block `k`, as far as the overlap goes. -/
def overlap : List α := ((r.lead ++ items).drop (r.size * k)).take r.lead.length

/-- Block `k` with its overlap. -/
def window : List α := ((r.lead ++ items).drop (r.size * k)).take (r.lead.length + r.size)

/-- The state before block `k`. -/
def stateAt : ℕ → σ
  | 0 => r.initial
  | k + 1 => (r.read (r.window items k) (stateAt k)).2

def answerAt : β := (r.read (r.window items k) (r.stateAt items k)).1

/-- How many blocks are full. -/
def blocks : ℕ := items.length / r.size

def answers : List β := (List.range (r.blocks items)).map (r.answerAt items)

@[simp] theorem blocks_nil (r : BlockReader α β σ) : r.blocks [] = 0 := Nat.zero_div _

@[simp] theorem length_answers : (r.answers items).length = r.blocks items := by
  rw [answers, List.length_map, List.length_range]

variable {r items k}

/-- A block that is full stays as it is. -/
theorem window_append (h : r.size * (k + 1) ≤ items.length) :
    r.window (items ++ more) k = r.window items k := by
  have hlength : r.size * k + (r.lead.length + r.size) ≤ (r.lead ++ items).length := by
    rw [List.length_append]
    rw [Nat.mul_succ] at h
    omega
  unfold window
  rw [← List.append_assoc, List.drop_append_of_le_length (by omega),
    List.take_append_of_le_length (by rw [List.length_drop]; omega)]

theorem overlap_append (h : r.size * k ≤ items.length) :
    r.overlap (items ++ more) k = r.overlap items k := by
  have hlength : r.size * k + r.lead.length ≤ (r.lead ++ items).length := by
    rw [List.length_append]
    omega
  unfold overlap
  rw [← List.append_assoc, List.drop_append_of_le_length (by omega),
    List.take_append_of_le_length (by rw [List.length_drop]; omega)]

theorem stateAt_append (h : r.size * k ≤ items.length) :
    r.stateAt (items ++ more) k = r.stateAt items k := by
  induction k with
  | zero => rfl
  | succ k ih =>
      have hk : r.size * k ≤ items.length := (Nat.mul_le_mul_left _ (Nat.le_succ k)).trans h
      rw [stateAt, stateAt, window_append more h, ih hk]

theorem answerAt_append (h : r.size * (k + 1) ≤ items.length) :
    r.answerAt (items ++ more) k = r.answerAt items k := by
  have hk : r.size * k ≤ items.length := (Nat.mul_le_mul_left _ (Nat.le_succ k)).trans h
  rw [answerAt, answerAt, window_append more h, stateAt_append more hk]

theorem size_mul_le_iff : r.size * k ≤ items.length ↔ k ≤ r.blocks items := by
  rw [blocks, Nat.le_div_iff_mul_le r.size_pos, Nat.mul_comm]

variable (r items) in
/-- **Further items only add answers.** -/
theorem answers_append :
    r.answers (items ++ more) = r.answers items ++
      (List.range' (r.blocks items) (r.blocks (items ++ more) - r.blocks items)).map
        (r.answerAt (items ++ more)) := by
  have hmono : r.blocks items ≤ r.blocks (items ++ more) := by
    refine Nat.div_le_div_right ?_
    rw [List.length_append]
    exact Nat.le_add_right _ _
  have hold : (List.range (r.blocks items)).map (r.answerAt (items ++ more)) =
      r.answers items := by
    refine List.map_congr_left fun k hk => ?_
    exact answerAt_append more (size_mul_le_iff.mpr (List.mem_range.mp hk))
  have hsplit : r.blocks (items ++ more) =
      r.blocks items + (r.blocks (items ++ more) - r.blocks items) := by omega
  rw [← hold, ← List.map_append, answers]
  congr 1
  conv_lhs => rw [hsplit, List.range_eq_range', ← List.range'_append_1, Nat.zero_add]
  rw [List.range_eq_range']

/-! ## Piece by piece -/

/-- What a reader holds that has read `k` blocks of the items: those that wait, the overlap
and the state. -/
structure Reading (r : BlockReader α β σ) (items : List α) (k : ℕ) (pending before : List α)
    (state : σ) : Prop where
  whole : r.size * k ≤ items.length
  pending : pending = items.drop (r.size * k)
  before : before = r.overlap items k
  state : state = r.stateAt items k

variable (r) in
theorem reading_nil : r.Reading [] 0 [] r.lead r.initial where
  whole := Nat.le_refl _
  pending := List.drop_nil.symm
  before := by simp [overlap]
  state := rfl

namespace Reading

variable {pending before : List α} {state : σ}

/-- A further piece waits. -/
theorem append (h : r.Reading items k pending before state) :
    r.Reading (items ++ more) k (pending ++ more) before state where
  whole := h.whole.trans (by simp)
  pending := by rw [h.pending, List.drop_append_of_le_length h.whole]
  before := by rw [h.before, overlap_append more h.whole]
  state := by rw [h.state, stateAt_append more h.whole]

variable (h : r.Reading items k pending before state)
include h

theorem whole_succ (hfull : r.size ≤ pending.length) : r.size * (k + 1) ≤ items.length := by
  have hlength := h.pending ▸ hfull
  have hwhole := h.whole
  rw [List.length_drop] at hlength
  rw [Nat.mul_succ]
  omega

/-- What is read next is the window of the one pass. -/
theorem window_eq : before ++ pending.take r.size = r.window items k := by
  have hitems : ((r.lead ++ items).drop (r.size * k)).drop r.lead.length =
      items.drop (r.size * k) := by
    rw [List.drop_drop, Nat.add_comm, List.drop_length_add_append]
  rw [h.before, h.pending, window, overlap, List.take_add, hitems]

/-- **One block.**  The last items of the window are the next overlap. -/
theorem next (hfull : r.size ≤ pending.length) :
    r.Reading items (k + 1) (pending.drop r.size)
      ((r.window items k).drop ((r.window items k).length - r.lead.length))
      (r.read (r.window items k) state).2 where
  whole := h.whole_succ hfull
  pending := by rw [h.pending, List.drop_drop, Nat.mul_succ]
  before := by
    have hwhole := h.whole_succ hfull
    have hlength : (r.window items k).length = r.lead.length + r.size := by
      rw [window, List.length_take, List.length_drop, List.length_append]
      rw [Nat.mul_succ] at hwhole
      omega
    rw [hlength, Nat.add_sub_cancel_left, window, List.drop_take, Nat.add_sub_cancel, overlap,
      List.drop_drop, Nat.mul_succ]
  state := by rw [h.state, stateAt]

/-- When no full block waits, every full block has been read. -/
theorem blocks_eq (hrest : pending.length < r.size) : k = r.blocks items := by
  refine Nat.le_antisymm (size_mul_le_iff.mp h.whole) (Nat.le_of_not_lt fun hlt => ?_)
  have hmore := size_mul_le_iff.mpr (Nat.succ_le_of_lt hlt)
  rw [h.pending, List.length_drop] at hrest
  rw [Nat.mul_succ] at hmore
  omega

end Reading

end BlockReader

end Library
end AvaListener
