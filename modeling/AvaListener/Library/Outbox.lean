import Mathlib.Data.List.Perm.Subperm

/-!
# Outboxes

A sender that passes items on while it can and holds them back while it cannot, to pass on
all it holds at some later time.  Whatever the operations, an item is passed on or held as
often as it was given (`perm_all_hold`, `perm_all_pass`, `all_flush`), except when what is
held is lost.

Items that come in the order of a relation stay in that order as long as nothing is passed
on past an item that is held (`inOrder_pass_iff`).
-/

namespace AvaListener
namespace Library

/-- What has left, and what waits, the oldest first. -/
structure Outbox (α : Type*) where
  passed : List α
  held : List α

namespace Outbox

variable {α : Type*}

/-- The items that are not lost, in the order in which they leave. -/
def all (b : Outbox α) : List α := b.passed ++ b.held

/-- An item is held back. -/
def hold (b : Outbox α) (x : α) : Outbox α := { b with held := b.held ++ [x] }

/-- An item is passed on at once, past whatever is held. -/
def pass (b : Outbox α) (x : α) : Outbox α := { b with passed := b.passed ++ [x] }

/-- All that is held leaves, in its order. -/
def flush (b : Outbox α) : Outbox α := ⟨b.passed ++ b.held, []⟩

/-- All that is held is thrown away. -/
def lose (b : Outbox α) : Outbox α := { b with held := [] }

@[simp] theorem all_hold (b : Outbox α) (x : α) : (b.hold x).all = b.all ++ [x] :=
  (List.append_assoc ..).symm

/-- An item that is passed on is there once more, though not at the end. -/
theorem perm_all_pass (b : Outbox α) (x : α) : (b.pass x).all.Perm (b.all ++ [x]) := by
  unfold all pass
  rw [List.append_assoc, List.append_assoc]
  exact List.perm_append_comm.append_left b.passed

/-- A flush loses nothing and changes no order. -/
@[simp] theorem all_flush (b : Outbox α) : b.flush.all = b.all := List.append_nil _

theorem all_lose_sublist (b : Outbox α) : b.lose.all.Sublist b.all :=
  (List.nil_sublist b.held).append_left b.passed

/-! ## What has been given

Nothing is made up: the items are among those given.  Of a kind of which none is lost, they
are those given. -/

section Given

variable {b : Outbox α} {given : List α}

theorem subperm_pass (h : b.all.Subperm given) (x : α) : (b.pass x).all.Subperm (given ++ [x]) :=
  (b.perm_all_pass x).subperm.trans ((List.subperm_append_right [x]).mpr h)

theorem subperm_hold (h : b.all.Subperm given) (x : α) : (b.hold x).all.Subperm (given ++ [x]) := by
  rw [all_hold]
  exact (List.subperm_append_right [x]).mpr h

/-- The item is given and lost. -/
theorem subperm_drop (h : b.all.Subperm given) (x : α) : b.all.Subperm (given ++ [x]) :=
  h.trans (List.sublist_append_left given [x]).subperm

variable {p : α → Bool}

theorem filter_perm_pass (h : (b.all.filter p).Perm (given.filter p)) (x : α) :
    ((b.pass x).all.filter p).Perm ((given ++ [x]).filter p) := by
  refine ((b.perm_all_pass x).filter p).trans ?_
  rw [List.filter_append, List.filter_append]
  exact h.append_right _

theorem filter_perm_hold (h : (b.all.filter p).Perm (given.filter p)) (x : α) :
    ((b.hold x).all.filter p).Perm ((given ++ [x]).filter p) := by
  rw [all_hold, List.filter_append, List.filter_append]
  exact h.append_right _

/-- An item that is of no interest is given and lost. -/
theorem filter_perm_drop (h : (b.all.filter p).Perm (given.filter p)) {x : α} (hx : p x = false) :
    (b.all.filter p).Perm ((given ++ [x]).filter p) := by
  rw [List.filter_append, List.filter_singleton, hx, Bool.cond_false, List.append_nil]
  exact h

end Given

/-! ## Order -/

section Order

variable (r : α → α → Prop)

/-- The items leave in the order of `r`. -/
def InOrder (b : Outbox α) : Prop := b.all.Pairwise r

variable {r} {b : Outbox α} {x : α}

/-- A newest item goes to the end. -/
theorem pairwise_concat {l : List α} (h : l.Pairwise r) (hnewest : ∀ y ∈ l, r y x) :
    (l ++ [x]).Pairwise r := by
  refine List.pairwise_append.mpr ⟨h, List.pairwise_singleton r x, ?_⟩
  intro y hy z hz
  rw [List.mem_singleton.mp hz]
  exact hnewest y hy

theorem InOrder.hold (h : b.InOrder r) (hnewest : ∀ y ∈ b.all, r y x) :
    (b.hold x).InOrder r := by
  unfold InOrder
  rw [all_hold]
  exact pairwise_concat h hnewest

theorem InOrder.flush (h : b.InOrder r) : b.flush.InOrder r := by
  unfold InOrder
  rwa [all_flush]

theorem InOrder.lose (h : b.InOrder r) : b.lose.InOrder r :=
  List.Pairwise.sublist b.all_lose_sublist h

/-- **Overtaking.**  The newest item may be passed on exactly when nothing is held. -/
theorem inOrder_pass_iff (h : b.InOrder r) (hnewest : ∀ y ∈ b.all, r y x)
    (hasymm : ∀ y, r y x → ¬ r x y) : (b.pass x).InOrder r ↔ b.held = [] := by
  constructor
  · intro hpass
    refine List.eq_nil_iff_forall_not_mem.mpr fun y hy => ?_
    have hyx : r y x := hnewest y (List.mem_append_right _ hy)
    have hxy : r x y := by
      have hcross := (List.pairwise_append.mp hpass).2.2
      exact hcross x (List.mem_append_right _ (List.mem_singleton_self x)) y hy
    exact hasymm y hyx hxy
  · intro hheld
    have hsame : (b.pass x).all = b.all ++ [x] := by
      unfold all pass
      rw [hheld, List.append_nil, List.append_nil]
    unfold InOrder
    rw [hsame]
    exact pairwise_concat h hnewest

end Order

end Outbox

end Library
end AvaListener
