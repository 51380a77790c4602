import AvaListener.Library.Runs
import Mathlib.Data.List.Perm.Basic

/-!
# Operations on shared cells

Threads share cells and hold no lock.  An `Access` is what a thread does to one cell: it reads
it, as often as it likes, and then writes it, leaves it as it is or raises.  `run` is the
whole of it at once, `advance` its next read or write.

A `SharedSystem` has threads that meet in such operations only.  An `atomic` step performs
one of them at once.  An `interleaved` step performs one read or write: an operation that
has been begun is kept in `begun` with what is left of it, and its thread stays where it is
until the last access.

An interleaved step is `Uncrossed` if it does not write a cell on which another operation
has been begun.  Whatever the atomic steps keep, the interleaved ones keep along every
schedule in which no step crosses an operation (`always_of_uncrossed`).
-/

namespace AvaListener
namespace Library

/-- An operation on a cell with values in `σ`. -/
inductive Access (σ : Type*) where
  | read (rest : σ → Access σ)
  | write (value : σ)
  | done
  | raise

namespace Access

variable {σ : Type*}

/-- The whole operation: the value it leaves in the cell; `none` is the exception. -/
def run : Access σ → σ → Option σ
  | read rest, s => (rest s).run s
  | write value, _ => some value
  | done, s => some s
  | raise, _ => none

/-- The next read or write: what is left of the operation, or how it ended. -/
def advance : Access σ → σ → Access σ ⊕ Option σ
  | read rest, s =>
      match rest s with
      | done => .inr (some s)
      | raise => .inr none
      | other => .inl other
  | write value, _ => .inr (some value)
  | done, s => .inr (some s)
  | raise, _ => .inr none

/-- The next access is a write. -/
def writes : Access σ → Bool
  | write _ => true
  | _ => false

variable {a b : Access σ} {s t : σ} {result : Option σ}

theorem run_of_advance_inl (h : a.advance s = .inl b) : b.run s = a.run s := by
  cases a with
  | read rest =>
      simp only [advance] at h
      split at h
      · cases h
      · cases h
      · exact congrArg (fun c => c.run s) (Sum.inl.inj h).symm
  | write value => cases h
  | done => cases h
  | raise => cases h

theorem run_of_advance_inr (h : a.advance s = .inr result) : a.run s = result := by
  cases a with
  | read rest =>
      simp only [advance] at h
      simp only [run]
      split at h
      next hrest =>
        rw [hrest]
        exact Sum.inr.inj h
      next hrest =>
        rw [hrest]
        exact Sum.inr.inj h
      · cases h
  | write value => exact Sum.inr.inj h
  | done => exact Sum.inr.inj h
  | raise => exact Sum.inr.inj h

/-- Without a write the cell keeps its value. -/
theorem eq_of_advance (h : a.advance s = .inr (some t)) (hwrites : a.writes = false) : t = s := by
  cases a with
  | read rest =>
      simp only [advance] at h
      split at h
      · exact (Option.some.inj (Sum.inr.inj h)).symm
      · cases Sum.inr.inj h
      · cases h
  | write value => cases hwrites
  | done => exact (Option.some.inj (Sum.inr.inj h)).symm
  | raise => cases Sum.inr.inj h

end Access

/-- A system of threads that share cells: `ο` are the operations on the cells `κ`, and `ε`
is everything else that happens. -/
structure SharedSystem (τ ε ο κ σ : Type*) where
  view : τ → κ → σ
  cell : ο → κ
  program : ο → Access σ
  /-- How many threads are at an operation. -/
  waiting : τ → ο → ℕ
  /-- A thread is through with an operation, which left a value in the cell or raised. -/
  finish : τ → ο → Option σ → τ
  event : τ → ε → Option τ

/-- The shared state and the operations that have been begun. -/
structure Interleaved (τ ο σ : Type*) where
  core : τ
  begun : List (ο × Access σ)

inductive AccessLabel (ε ο : Type*) where
  | event (e : ε)
  /-- The first read of an operation. -/
  | begin (o : ο)
  /-- The next access of an operation that has been begun. -/
  | goOn (i : ℕ)
  deriving DecidableEq, Repr

namespace SharedSystem

variable {τ ε ο κ σ : Type*} (sys : SharedSystem τ ε ο κ σ)

/-- One step with operations in one piece. -/
def atomic (s : τ) : ε ⊕ ο → Option τ
  | .inl e => sys.event s e
  | .inr o =>
      if 0 < sys.waiting s o then
        some (sys.finish s o ((sys.program o).run (sys.view s (sys.cell o))))
      else none

/-- The state after one access of an operation, beside the others that have been begun. -/
def resolve (core : τ) (others : List (ο × Access σ)) (o : ο) :
    Access σ ⊕ Option σ → Interleaved τ ο σ
  | .inl rest => ⟨core, others ++ [(o, rest)]⟩
  | .inr result => ⟨sys.finish core o result, others⟩

/-- The next access of what is left of an operation. -/
def next (core : τ) (o : ο) (rest : Access σ) : Access σ ⊕ Option σ :=
  rest.advance (sys.view core (sys.cell o))

variable [DecidableEq ο]

/-- One access of one thread. -/
def interleaved (s : Interleaved τ ο σ) : AccessLabel ε ο → Option (Interleaved τ ο σ)
  | .event e => (sys.event s.core e).map fun core => { s with core := core }
  | .begin o =>
      if s.begun.countP (·.1 = o) < sys.waiting s.core o then
        some (sys.resolve s.core s.begun o (sys.next s.core o (sys.program o)))
      else none
  | .goOn i =>
      s.begun[i]?.map fun p =>
        sys.resolve s.core (s.begun.eraseIdx i) p.1 (sys.next s.core p.1 p.2)

omit [DecidableEq ο] in
/-- The event or the operation that a step completes. -/
def completes (s : Interleaved τ ο σ) : AccessLabel ε ο → Option (ε ⊕ ο)
  | .event e => some (.inl e)
  | .begin o => if (sys.next s.core o (sys.program o)).isRight then some (.inr o) else none
  | .goOn i =>
      s.begun[i]?.bind fun p =>
        if (sys.next s.core p.1 p.2).isRight then some (.inr p.1) else none

omit [DecidableEq ο] in
/-- The step does not write a cell on which another operation has been begun. -/
def Uncrossed (s : Interleaved τ ο σ) : AccessLabel ε ο → Prop
  | .goOn i =>
      ∀ p ∈ s.begun[i]?, p.2.writes = true →
        ∀ q ∈ s.begun.eraseIdx i, sys.cell q.1 ≠ sys.cell p.1
  | _ => True

instance [DecidableEq κ] (s : Interleaved τ ο σ) (l : AccessLabel ε ο) :
    Decidable (sys.Uncrossed s l) :=
  match l with
  | .event _ => inferInstanceAs (Decidable True)
  | .begin _ => inferInstanceAs (Decidable True)
  | .goOn i =>
      inferInstanceAs (Decidable (∀ p ∈ s.begun[i]?, p.2.writes = true →
        ∀ q ∈ s.begun.eraseIdx i, sys.cell q.1 ≠ sys.cell p.1))

/-- What the parts of a shared system owe to each other. -/
structure Lawful : Prop where
  view_finish_some : ∀ s o v, sys.view (sys.finish s o (some v)) (sys.cell o) = v
  view_finish_none : ∀ s o c, sys.view (sys.finish s o none) c = sys.view s c
  view_finish_of_ne : ∀ s o r c, c ≠ sys.cell o → sys.view (sys.finish s o r) c = sys.view s c
  waiting_finish_self : ∀ s o r, sys.waiting s o ≤ sys.waiting (sys.finish s o r) o + 1
  waiting_finish_of_ne : ∀ s o r q, 0 < sys.waiting s o → q ≠ o →
    sys.waiting s q ≤ sys.waiting (sys.finish s o r) q
  view_event : ∀ s e t, sys.event s e = some t → ∀ c, sys.view t c = sys.view s c
  waiting_event : ∀ s e t, sys.event s e = some t → ∀ q, sys.waiting s q ≤ sys.waiting t q
  /-- Operations begin with a read. -/
  program_reads : ∀ o, (sys.program o).writes = false

/-- What is left of every operation leads to what the whole would do now, and every
operation that has been begun has its thread. -/
structure Sound (s : Interleaved τ ο σ) : Prop where
  outcome : ∀ p ∈ s.begun, p.2.run (sys.view s.core (sys.cell p.1)) =
    (sys.program p.1).run (sys.view s.core (sys.cell p.1))
  places : ∀ o, s.begun.countP (·.1 = o) ≤ sys.waiting s.core o

variable {sys}

theorem sound_start (s : τ) : sys.Sound ⟨s, []⟩ := ⟨by simp, by simp⟩

variable {core : τ} {others : List (ο × Access σ)} {o : ο} {rest : Access σ}

omit [DecidableEq ο] in
/-- An uncrossed end of an operation is not seen by the others. -/
theorem view_finish_of_uncrossed (hlaw : sys.Lawful) {result : Option σ}
    (hend : sys.next core o rest = .inr result)
    (huncrossed : rest.writes = true → ∀ q ∈ others, sys.cell q.1 ≠ sys.cell o)
    {q : ο × Access σ} (hq : q ∈ others) :
    sys.view (sys.finish core o result) (sys.cell q.1) = sys.view core (sys.cell q.1) := by
  cases result with
  | none => exact hlaw.view_finish_none ..
  | some v =>
      by_cases hcell : sys.cell q.1 = sys.cell o
      · have hreads : rest.writes = false := by
          by_contra hwrites
          exact huncrossed (by simpa using hwrites) q hq hcell
        rw [hcell, hlaw.view_finish_some]
        exact Access.eq_of_advance hend hreads
      · exact hlaw.view_finish_of_ne _ _ _ _ hcell

theorem Sound.resolve (hlaw : sys.Lawful) (hothers : sys.Sound ⟨core, others⟩)
    (hplace : others.countP (·.1 = o) < sys.waiting core o)
    (houtcome : rest.run (sys.view core (sys.cell o)) =
      (sys.program o).run (sys.view core (sys.cell o)))
    (huncrossed : rest.writes = true → ∀ q ∈ others, sys.cell q.1 ≠ sys.cell o) :
    sys.Sound (sys.resolve core others o (sys.next core o rest)) := by
  cases hnext : sys.next core o rest with
  | inl left =>
      refine ⟨fun p hp => ?_, fun q => ?_⟩
      · rcases List.mem_append.mp hp with hold | hnew
        · exact hothers.outcome p hold
        · obtain rfl := List.mem_singleton.mp hnew
          exact (Access.run_of_advance_inl hnext).trans houtcome
      · show (others ++ [(o, left)]).countP (·.1 = q) ≤ sys.waiting core q
        by_cases hq : o = q
        · subst hq
          simp only [List.countP_append, List.countP_singleton, decide_true, if_true]
          omega
        · simpa [List.countP_append, List.countP_singleton, hq] using hothers.places q
  | inr result =>
      refine ⟨fun p hp => ?_, fun q => ?_⟩
      · show p.2.run (sys.view (sys.finish core o result) (sys.cell p.1)) = _
        rw [view_finish_of_uncrossed hlaw hnext huncrossed hp]
        exact (hothers.outcome p hp).trans
          (congrArg _ (view_finish_of_uncrossed hlaw hnext huncrossed hp).symm)
      · have hwaiting : 0 < sys.waiting core o := Nat.zero_lt_of_lt hplace
        show others.countP (·.1 = q) ≤ sys.waiting (sys.finish core o result) q
        by_cases hq : q = o
        · subst hq
          have hself := hlaw.waiting_finish_self core q result
          omega
        · exact Nat.le_trans (hothers.places q) (hlaw.waiting_finish_of_ne _ _ _ _ hwaiting hq)

omit [DecidableEq ο] in
/-- The last access of an operation is the operation. -/
theorem atomic_of_resolve (hwaiting : 0 < sys.waiting core o)
    (houtcome : rest.run (sys.view core (sys.cell o)) =
      (sys.program o).run (sys.view core (sys.cell o)))
    (hend : (sys.next core o rest).isRight = true) :
    sys.atomic core (.inr o) =
      some (sys.resolve core others o (sys.next core o rest)).core := by
  obtain ⟨result, hresult⟩ := Sum.isRight_iff.mp hend
  rw [hresult]
  show (if _ then _ else none) = _
  rw [if_pos hwaiting, ← houtcome, Access.run_of_advance_inr hresult]
  rfl

omit [DecidableEq ο] in
/-- Any other access leaves the shared state alone. -/
theorem core_resolve_of_isLeft (hgoes : (sys.next core o rest).isRight = false) :
    (sys.resolve core others o (sys.next core o rest)).core = core := by
  cases hnext : sys.next core o rest with
  | inl left => rfl
  | inr result => simp [hnext] at hgoes

variable {s t : Interleaved τ ο σ} {l : AccessLabel ε ο}

/-- The operations begun beside the `i`-th. -/
theorem Sound.beside (h : sys.Sound s) {i : ℕ} {p : ο × Access σ} (hp : s.begun[i]? = some p) :
    sys.Sound ⟨s.core, s.begun.eraseIdx i⟩ ∧
      (s.begun.eraseIdx i).countP (·.1 = p.1) < sys.waiting s.core p.1 := by
  obtain ⟨hi, rfl⟩ := List.getElem?_eq_some_iff.mp hp
  have hperm := List.getElem_cons_eraseIdx_perm hi
  have hcount (o : ο) :
      (s.begun[i] :: s.begun.eraseIdx i).countP (·.1 = o) ≤ sys.waiting s.core o := by
    rw [hperm.countP_eq]
    exact h.places o
  refine ⟨⟨fun q hq => h.outcome q (List.mem_of_mem_eraseIdx hq), fun o => ?_⟩, ?_⟩
  · exact Nat.le_trans ((List.sublist_cons_self ..).countP_le) (hcount o)
  · have hself := hcount s.begun[i].1
    rwa [List.countP_cons_of_pos (by simp)] at hself

/-- **One access.**  An uncrossed access keeps what is left of the operations sound, and it
completes an atomic step or leaves the shared state alone. -/
theorem Sound.step (hlaw : sys.Lawful) (h : sys.Sound s) (huncrossed : sys.Uncrossed s l)
    (hstep : sys.interleaved s l = some t) :
    sys.Sound t ∧
      match sys.completes s l with
      | none => t.core = s.core
      | some a => sys.atomic s.core a = some t.core := by
  cases l with
  | event e =>
      obtain ⟨core, hcore, rfl⟩ := Option.map_eq_some_iff.mp hstep
      refine ⟨⟨fun p hp => ?_, fun o => ?_⟩, hcore⟩
      · rw [hlaw.view_event _ _ _ hcore]
        exact h.outcome p hp
      · exact Nat.le_trans (h.places o) (hlaw.waiting_event _ _ _ hcore o)
  | begin o =>
      obtain ⟨hplace, hstep⟩ := Option.ite_none_right_eq_some.mp hstep
      obtain rfl := Option.some.inj hstep
      refine ⟨h.resolve hlaw hplace rfl fun hwrites => ?_, ?_⟩
      · rw [hlaw.program_reads] at hwrites
        cases hwrites
      · simp only [completes]
        split
        next hnone => exact core_resolve_of_isLeft (by simpa using hnone)
        next a hsome =>
          obtain ⟨hend, hop⟩ := Option.ite_none_right_eq_some.mp hsome
          obtain rfl := Option.some.inj hop
          exact atomic_of_resolve (by omega) rfl hend
  | goOn i =>
      obtain ⟨p, hp, rfl⟩ := Option.map_eq_some_iff.mp hstep
      obtain ⟨hothers, hplace⟩ := h.beside hp
      have hmem : p ∈ s.begun := List.mem_of_getElem? hp
      refine ⟨hothers.resolve hlaw hplace (h.outcome p hmem) (huncrossed p hp), ?_⟩
      simp only [completes, hp, Option.bind_some]
      split
      next hnone => exact core_resolve_of_isLeft (by simpa using hnone)
      next a hsome =>
        obtain ⟨hend, hop⟩ := Option.ite_none_right_eq_some.mp hsome
        obtain rfl := Option.some.inj hop
        exact atomic_of_resolve (by omega) (h.outcome p hmem) hend

/-- **Uncrossed schedules are atomic.**  An invariant of the atomic steps that meet `cond`
holds along every interleaving whose steps cross no operation and complete such steps only. -/
theorem always_of_uncrossed (hlaw : sys.Lawful) {Inv P : τ → Prop} {cond : τ → ε ⊕ ο → Prop}
    {start : τ} {labels : List (AccessLabel ε ο)} (hstart : Inv start)
    (hP : ∀ a, Inv a → P a)
    (hstep : ∀ a l b, Inv a → cond a l → sys.atomic a l = some b → Inv b)
    (hmeets : MeetsAlong sys.interleaved
      (fun s l => sys.Uncrossed s l ∧ ∀ a ∈ sys.completes s l, cond s.core a) ⟨start, []⟩ labels) :
    Always sys.interleaved (fun s => P s.core) ⟨start, []⟩ labels := by
  refine always_of_meetsAlong sys.interleaved ⟨sound_start start, hstart⟩
    (fun s (hs : sys.Sound s ∧ Inv s.core) => hP s.core hs.2) (fun s l t hs hcond hst => ?_) hmeets
  obtain ⟨hsound, hcore⟩ := hs.1.step hlaw hcond.1 hst
  refine ⟨hsound, ?_⟩
  cases hcompletes : sys.completes s l with
  | none =>
      rw [hcompletes] at hcore
      rw [hcore]
      exact hs.2
  | some a =>
      rw [hcompletes] at hcore
      exact hstep s.core a t.core hs.2 (hcond.2 a hcompletes) hcore

end SharedSystem

end Library
end AvaListener
