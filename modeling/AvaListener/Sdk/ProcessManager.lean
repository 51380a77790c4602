import AvaListener.Library.Simulation
import AvaListener.Sdk.PortLine

/-!
# The supervisor processes of the SDK

`ProcessManager` of `node/process_manager.js`: the handle `this.proc`, the processes it
has spawned, the promises of `spawnSupervisor` and those of `stop`.  A label is one call
or one event of a process or a timer.

The listener for `'close'` that `spawnSupervisor` attaches clears the handle, whichever
process the handle is of by then.  `stop` clears it at once and resolves after three
seconds even if the process has not ended, so that the next supervisor may be spawned
while the last one is still there.

A process that cannot be started at all, whose `'error'` event nobody listens to, is left
out.
-/

namespace AvaListener
namespace Sdk

open Library

/-- The promise of `spawnSupervisor`. -/
inductive SpawnPromise where
  | pending
  | resolved (port : ℕ)
  /-- `Supervisor exited before starting server.` -/
  | rejected
  deriving DecidableEq, Repr

structure ChildProcess where
  promise : SpawnPromise
  closed : Bool
  deriving DecidableEq, Repr

namespace ChildProcess

/-- The listener for `'data'` on the error stream. -/
def onData (child : ChildProcess) (data : Text) : ChildProcess :=
  match child.promise, portIn data with
  | .pending, some port => { child with promise := .resolved port }
  | _, _ => child

/-- The listener for `'close'`, on the process itself. -/
def onClose (child : ChildProcess) : ChildProcess :=
  match child.promise with
  | .pending => ⟨.rejected, true⟩
  | promise => ⟨promise, true⟩

@[simp] theorem closed_onData (child : ChildProcess) (data : Text) :
    (child.onData data).closed = child.closed := by
  unfold onData
  split
  · rfl
  · rfl

@[simp] theorem closed_onClose (child : ChildProcess) : child.onClose.closed = true := by
  unfold onClose
  split
  · rfl
  · rfl

end ChildProcess

/-- A call of `stop` that found a process. -/
structure StopCall where
  proc : ℕ
  /-- The promise has resolved. -/
  resolved : Bool
  /-- The three seconds are running. -/
  timer : Bool
  deriving DecidableEq, Repr

structure ProcessManager where
  /-- `this.proc`. -/
  proc : Option ℕ
  children : List ChildProcess
  stops : List StopCall
  deriving DecidableEq, Repr

inductive ProcessLabel where
  | spawnSupervisor
  | data (child : ℕ) (text : Text)
  | close (child : ℕ)
  | stop
  /-- The timer of the `i`-th stop. -/
  | timeout (i : ℕ)
  deriving DecidableEq

namespace ProcessManager

def init : ProcessManager := ⟨none, [], []⟩

def step (s : ProcessManager) : ProcessLabel → Option ProcessManager
  | .spawnSupervisor =>
      match s.proc with
      -- `Supervisor is already running.`
      | some _ => some s
      | none =>
          some { s with
            proc := some s.children.length
            children := s.children ++ [⟨.pending, false⟩] }
  | .data c text =>
      match s.children[c]? with
      | some child =>
          if child.closed then none
          else some { s with children := s.children.set c (child.onData text) }
      | none => none
  | .close c =>
      match s.children[c]? with
      | some child =>
          if child.closed then none
          else
            some {
              proc := none
              children := s.children.set c child.onClose
              stops := s.stops.map fun call =>
                if call.proc = c then { call with resolved := true, timer := false } else call }
      | none => none
  | .stop =>
      match s.proc with
      | none => some s
      | some c => some { s with proc := none, stops := s.stops ++ [⟨c, false, true⟩] }
  | .timeout i =>
      match s.stops[i]? with
      | some call =>
          if call.timer then
            some { s with stops := s.stops.set i { call with resolved := true, timer := false } }
          else none
      | none => none

/-! ## What a step does -/

variable {s t : ProcessManager} {l : ProcessLabel}

/-- The steps, each with its guard and the state it leads to. -/
inductive StepsTo (s : ProcessManager) : ProcessLabel → ProcessManager → Prop
  | refused {c : ℕ} (hproc : s.proc = some c) : StepsTo s .spawnSupervisor s
  | spawned (hproc : s.proc = none) : StepsTo s .spawnSupervisor
      { s with
        proc := some s.children.length
        children := s.children ++ [⟨.pending, false⟩] }
  | data {c : ℕ} {text : Text} {child : ChildProcess} (hchild : s.children[c]? = some child)
      (hopen : child.closed = false) :
      StepsTo s (.data c text) { s with children := s.children.set c (child.onData text) }
  | close {c : ℕ} {child : ChildProcess} (hchild : s.children[c]? = some child)
      (hopen : child.closed = false) :
      StepsTo s (.close c)
        { proc := none
          children := s.children.set c child.onClose
          stops := s.stops.map fun call =>
            if call.proc = c then { call with resolved := true, timer := false } else call }
  | idle (hproc : s.proc = none) : StepsTo s .stop s
  | stop {c : ℕ} (hproc : s.proc = some c) :
      StepsTo s .stop { s with proc := none, stops := s.stops ++ [⟨c, false, true⟩] }
  | timeout {i : ℕ} {call : StopCall} (hcall : s.stops[i]? = some call) :
      StepsTo s (.timeout i)
        { s with stops := s.stops.set i { call with resolved := true, timer := false } }

theorem stepsTo_of_step (h : s.step l = some t) : s.StepsTo l t := by
  cases l with
  | spawnSupervisor =>
      simp only [step] at h
      split at h
      next c hproc =>
        obtain rfl := Option.some.inj h
        exact .refused hproc
      next hproc =>
        obtain rfl := Option.some.inj h
        exact .spawned hproc
  | data c text =>
      simp only [step] at h
      split at h
      next child hchild =>
        obtain ⟨hopen, h⟩ := Option.ite_none_left_eq_some.mp h
        obtain rfl := Option.some.inj h
        exact .data hchild (Bool.eq_false_iff.mpr hopen)
      · cases h
  | close c =>
      simp only [step] at h
      split at h
      next child hchild =>
        obtain ⟨hopen, h⟩ := Option.ite_none_left_eq_some.mp h
        obtain rfl := Option.some.inj h
        exact .close hchild (Bool.eq_false_iff.mpr hopen)
      · cases h
  | stop =>
      simp only [step] at h
      split at h
      next hproc =>
        obtain rfl := Option.some.inj h
        exact .idle hproc
      next c hproc =>
        obtain rfl := Option.some.inj h
        exact .stop hproc
  | timeout i =>
      simp only [step] at h
      split at h
      next call hcall =>
        obtain ⟨-, h⟩ := Option.ite_none_right_eq_some.mp h
        obtain rfl := Option.some.inj h
        exact .timeout hcall
      · cases h

/-! ## The promises of `spawnSupervisor` -/

/-- What the error stream of a process has shown. -/
def dataOf (c : ℕ) (labels : List ProcessLabel) : List Text :=
  labels.filterMap fun l =>
    match l with
    | .data child text => if child = c then some text else none
    | _ => none

/-- A promise that settles with the first port shown, or with the end of the process. -/
def outcome (shown : Option ℕ) (closed : Bool) : SpawnPromise :=
  match shown with
  | some port => .resolved port
  | none => if closed then .rejected else .pending

theorem resolvedPort_append (xs : List Text) (text : Text) :
    resolvedPort (xs ++ [text]) = (resolvedPort xs).or (portIn text) := by
  rw [resolvedPort, List.findSome?_append]
  simp [resolvedPort]

theorem promise_onData {child : ChildProcess} {shown : Option ℕ} (text : Text)
    (h : child.promise = outcome shown false) :
    (child.onData text).promise = outcome (shown.or (portIn text)) false := by
  unfold ChildProcess.onData
  rw [h]
  cases shown with
  | some port => exact h
  | none =>
      cases hport : portIn text with
      | some port => rfl
      | none => exact h

theorem promise_onClose {child : ChildProcess} {shown : Option ℕ}
    (h : child.promise = outcome shown false) :
    child.onClose.promise = outcome shown true := by
  unfold ChildProcess.onClose
  rw [h]
  cases shown with
  | some port => rfl
  | none => rfl

/-- Every process is where its own events have brought it. -/
structure Settles (labels : List ProcessLabel) (s : ProcessManager) : Prop where
  closed : ∀ c child, s.children[c]? = some child → child.closed = decide (.close c ∈ labels)
  promise : ∀ c child, s.children[c]? = some child →
    child.promise = outcome (resolvedPort (dataOf c labels)) child.closed
  /-- A process to come has had no events. -/
  fresh : ∀ c, s.children.length ≤ c → dataOf c labels = [] ∧ .close c ∉ labels

theorem dataOf_append (c : ℕ) (labels : List ProcessLabel) (l : ProcessLabel) :
    dataOf c (labels ++ [l]) = dataOf c labels ++ dataOf c [l] :=
  List.filterMap_append ..

theorem close_mem_append {c : ℕ} {labels : List ProcessLabel} (hl : l ≠ .close c) :
    ProcessLabel.close c ∈ labels ++ [l] ↔ .close c ∈ labels := by
  simp [hl.symm]

section Settles

variable {labels : List ProcessLabel}

/-- A step that is no event of the process. -/
theorem Settles.at_of_other (h : s.Settles labels) {c : ℕ} {child : ChildProcess}
    (hchild : s.children[c]? = some child) (hdata : dataOf c [l] = []) (hl : l ≠ .close c) :
    child.closed = decide (.close c ∈ labels ++ [l]) ∧
      child.promise = outcome (resolvedPort (dataOf c (labels ++ [l]))) child.closed := by
  simp only [close_mem_append hl, dataOf_append, hdata, List.append_nil]
  exact ⟨h.closed c child hchild, h.promise c child hchild⟩

/-- A step that touches no process. -/
theorem Settles.of_children_eq (h : s.Settles labels) (hchildren : t.children = s.children)
    (hdata : ∀ c, dataOf c [l] = []) (hl : ∀ c, l ≠ .close c) : t.Settles (labels ++ [l]) := by
  refine ⟨?_, ?_, ?_⟩
  · intro c child hchild
    rw [hchildren] at hchild
    exact (h.at_of_other hchild (hdata c) (hl c)).1
  · intro c child hchild
    rw [hchildren] at hchild
    exact (h.at_of_other hchild (hdata c) (hl c)).2
  · intro c hc
    rw [hchildren] at hc
    obtain ⟨hnone, hopen⟩ := h.fresh c hc
    rw [dataOf_append, hnone, hdata c, close_mem_append (hl c)]
    exact ⟨rfl, hopen⟩

/-- A process is spawned, without events. -/
theorem Settles.spawned (h : s.Settles labels) :
    Settles (labels ++ [.spawnSupervisor])
      { s with
        proc := some s.children.length
        children := s.children ++ [⟨.pending, false⟩] } := by
  have hall : ∀ c child, (s.children ++ [⟨.pending, false⟩])[c]? = some child →
      child.closed = decide (.close c ∈ labels ++ [.spawnSupervisor]) ∧
        child.promise =
          outcome (resolvedPort (dataOf c (labels ++ [.spawnSupervisor]))) child.closed := by
    intro c child hchild
    by_cases hold : c < s.children.length
    · rw [List.getElem?_append_left hold] at hchild
      exact h.at_of_other hchild rfl nofun
    · rw [List.getElem?_append_right (Nat.le_of_not_lt hold), List.getElem?_singleton] at hchild
      obtain ⟨hnone, hopen⟩ := h.fresh c (Nat.le_of_not_lt hold)
      obtain ⟨-, hchild⟩ := Option.ite_none_right_eq_some.mp hchild
      obtain rfl := Option.some.inj hchild
      rw [dataOf_append, hnone]
      exact ⟨by simp [hopen], rfl⟩
  refine ⟨fun c child hchild => (hall c child hchild).1, fun c child hchild => (hall c child hchild).2,
    ?_⟩
  intro c hc
  rw [List.length_append, List.length_singleton] at hc
  obtain ⟨hnone, hopen⟩ := h.fresh c (by omega)
  rw [dataOf_append, hnone]
  exact ⟨rfl, by simp [hopen]⟩

/-- An event of one process leaves the others alone. -/
theorem Settles.set (h : s.Settles labels) {c : ℕ} {child next : ChildProcess}
    (hchild : s.children[c]? = some child) (hchildren : t.children = s.children.set c next)
    (hother : ∀ d, d ≠ c → dataOf d [l] = [] ∧ l ≠ .close d)
    (hclosed : next.closed = decide (.close c ∈ labels ++ [l]))
    (hpromise : next.promise = outcome (resolvedPort (dataOf c (labels ++ [l]))) next.closed) :
    t.Settles (labels ++ [l]) := by
  have hlt : c < s.children.length := (List.getElem?_eq_some_iff.mp hchild).1
  have hall : ∀ d other, t.children[d]? = some other →
      other.closed = decide (.close d ∈ labels ++ [l]) ∧
        other.promise = outcome (resolvedPort (dataOf d (labels ++ [l]))) other.closed := by
    intro d other hd
    rw [hchildren] at hd
    by_cases hdc : d = c
    · subst hdc
      rw [List.getElem?_set_self hlt] at hd
      obtain rfl := Option.some.inj hd
      exact ⟨hclosed, hpromise⟩
    · rw [List.getElem?_set_ne (Ne.symm hdc)] at hd
      exact h.at_of_other hd (hother d hdc).1 (hother d hdc).2
  refine ⟨fun d other hd => (hall d other hd).1, fun d other hd => (hall d other hd).2, ?_⟩
  intro d hd
  rw [hchildren, List.length_set] at hd
  obtain ⟨hnone, hopen⟩ := h.fresh d hd
  obtain ⟨hdata, hl⟩ := hother d (by omega)
  rw [dataOf_append, hnone, hdata, close_mem_append hl]
  exact ⟨rfl, hopen⟩

theorem Settles.step (h : s.Settles labels) (hstep : s.step l = some t) :
    t.Settles (labels ++ [l]) := by
  cases stepsTo_of_step hstep with
  | refused hproc => exact h.of_children_eq rfl (fun c => rfl) nofun
  | idle hproc => exact h.of_children_eq rfl (fun c => rfl) nofun
  | stop hproc => exact h.of_children_eq rfl (fun c => rfl) nofun
  | timeout hcall => exact h.of_children_eq rfl (fun c => rfl) nofun
  | spawned hproc => exact h.spawned
  | @data c text child hchild hopen =>
      have hshown := h.promise c child hchild
      rw [hopen] at hshown
      have hpromise := promise_onData text hshown
      have hdata : dataOf c (labels ++ [.data c text]) = dataOf c labels ++ [text] := by
        rw [dataOf_append]
        simp [dataOf]
      refine h.set hchild rfl ?_ ?_ ?_
      · intro d hd
        exact ⟨by simp [dataOf, hd.symm], nofun⟩
      · rw [ChildProcess.closed_onData, h.closed c child hchild]
        simp
      · rw [hpromise, hdata, resolvedPort_append, ChildProcess.closed_onData, hopen]
  | @close c child hchild hopen =>
      have hshown := h.promise c child hchild
      rw [hopen] at hshown
      have hpromise := promise_onClose hshown
      refine h.set hchild rfl ?_ ?_ ?_
      · intro d hd
        exact ⟨rfl, fun heq => hd (ProcessLabel.close.inj heq).symm⟩
      · simp
      · rw [hpromise, ChildProcess.closed_onClose, dataOf_append]
        simp [dataOf]

end Settles

/-- **The promise of `spawnSupervisor`.**  Over any interleaving of calls, processes and
timers it is settled by its own process alone: with the first port that the process's
error stream shows, or by a rejection if the process ends before. -/
theorem spawnPromise_eq_outcome {labels : List ProcessLabel} (hrun : execute step init labels = some s)
    {c : ℕ} {child : ChildProcess} (hchild : s.children[c]? = some child) :
    child.promise = outcome (resolvedPort (dataOf c labels)) (decide (.close c ∈ labels)) := by
  have h : s.Settles labels := by
    refine execute_history (fun labels s => s.Settles labels) ?_ ?_ hrun
    · exact ⟨by simp [init], by simp [init], fun c _ => ⟨rfl, by simp⟩⟩
    · exact fun past l t v _ ht hstep => ht.step hstep
  rw [h.promise c child hchild, h.closed c child hchild]

/-- The supervisor says where it listens, and ends. -/
def portThenClose : List ProcessLabel :=
  [.spawnSupervisor, .data 0 "INFO starting\n".toList,
    .data 0 "WebSocket Server listening on ws://127.0.0.1:5050\n".toList, .close 0]

theorem portThenClose_resolves :
    ∃ s child, execute step init portThenClose = some s ∧ s.children[0]? = some child ∧
      child.promise = .resolved 5050 := by
  obtain ⟨s, hs⟩ := Option.isSome_iff_exists.mp
    (show (execute step init portThenClose).isSome by decide +kernel)
  have hshown : (execute step init portThenClose).map (fun s => s.children.length) = some 1 := by
    decide +kernel
  rw [hs] at hshown
  have hlength : s.children.length = 1 := Option.some.inj hshown
  have hchild : s.children[0]? = some s.children[0] := List.getElem?_eq_getElem _
  refine ⟨s, s.children[0], hs, hchild, ?_⟩
  rw [spawnPromise_eq_outcome hs hchild]
  decide +kernel

/-! ## Processes without a handle -/

/-- The process has been spawned and has not ended. -/
def runs (children : List ChildProcess) (c : ℕ) : Bool :=
  children[c]?.any fun child => !child.closed

theorem lt_of_runs {children : List ChildProcess} {c : ℕ} (h : runs children c = true) :
    c < children.length := by
  by_contra hlt
  rw [runs, List.getElem?_eq_none (Nat.le_of_not_lt hlt)] at h
  cases h

theorem runs_append (children : List ChildProcess) (c : ℕ) :
    runs (children ++ [⟨.pending, false⟩]) c = true ↔ runs children c = true ∨ c = children.length := by
  by_cases hold : c < children.length
  · rw [runs, List.getElem?_append_left hold, runs]
    simp [hold.ne]
  · have hnone : runs children c = false := Bool.eq_false_iff.mpr fun h => hold (lt_of_runs h)
    rw [runs, List.getElem?_append_right (Nat.le_of_not_lt hold), List.getElem?_singleton, hnone]
    split
    next hzero => simp; omega
    next hpos => simp; omega

theorem runs_set {children : List ChildProcess} {c : ℕ} (hc : c < children.length)
    (next : ChildProcess) (d : ℕ) :
    runs (children.set c next) d = if d = c then !next.closed else runs children d := by
  by_cases hdc : d = c
  · subst hdc
    simp [runs, hc]
  · rw [if_neg hdc, runs, List.getElem?_set_ne (Ne.symm hdc), runs]

/-- Every process that runs can be stopped: it is the one of the handle, or `stop` has been
called for it. -/
def Attended (s : ProcessManager) : Prop :=
  ∀ c < s.children.length, runs s.children c = true →
    s.proc = some c ∨ ∃ call ∈ s.stops, call.proc = c

instance (s : ProcessManager) : Decidable s.Attended :=
  inferInstanceAs (Decidable (∀ c < _, _))

/-- A process that ends while there is a handle is the one of the handle. -/
def OwnClose (s : ProcessManager) : ProcessLabel → Prop
  | .close c => ∀ held ∈ s.proc, held = c
  | _ => True

instance (s : ProcessManager) : ∀ l, Decidable (s.OwnClose l)
  | .close c => inferInstanceAs (Decidable (∀ held ∈ s.proc, held = c))
  | .spawnSupervisor | .data _ _ | .stop | .timeout _ => isTrue trivial

/-- The invariant of the runs in which no process is lost. -/
structure Tracked (s : ProcessManager) : Prop where
  attended : ∀ c, runs s.children c = true → s.proc = some c ∨ ∃ call ∈ s.stops, call.proc = c
  /-- The handle is of a process that runs and is not being stopped. -/
  handle : ∀ c, s.proc = some c → runs s.children c = true ∧ ∀ call ∈ s.stops, call.proc ≠ c
  stops : ∀ call ∈ s.stops, call.proc < s.children.length

theorem tracked_init : init.Tracked where
  attended := by simp [init, runs]
  handle := by simp [init]
  stops := by simp [init]

theorem Tracked.step (h : s.Tracked) (hown : s.OwnClose l) (hstep : s.step l = some t) :
    t.Tracked := by
  cases stepsTo_of_step hstep with
  | refused hproc => exact h
  | idle hproc => exact h
  | spawned hproc =>
      refine ⟨?_, ?_, ?_⟩
      · intro c hruns
        rcases (runs_append s.children c).mp hruns with hold | rfl
        · refine .inr ((h.attended c hold).resolve_left ?_)
          rw [hproc]
          nofun
        · exact .inl rfl
      · intro c hc
        obtain rfl := Option.some.inj hc
        exact ⟨(runs_append s.children _).mpr (.inr rfl), fun call hcall => (h.stops call hcall).ne⟩
      · intro call hcall
        have := h.stops call hcall
        simp only [List.length_append, List.length_singleton]
        omega
  | @data c text child hchild hopen =>
      have hlt : c < s.children.length := (List.getElem?_eq_some_iff.mp hchild).1
      have hsame : ∀ d, runs (s.children.set c (child.onData text)) d = runs s.children d := by
        intro d
        rw [runs_set hlt, ChildProcess.closed_onData]
        split
        next hdc => rw [hdc, runs, hchild, Option.any_some]
        · rfl
      refine ⟨?_, ?_, ?_⟩
      · intro d hd
        exact h.attended d (hsame d ▸ hd)
      · intro d hd
        exact ⟨(hsame d).trans (h.handle d hd).1, (h.handle d hd).2⟩
      · intro call hcall
        rw [List.length_set]
        exact h.stops call hcall
  | @close c child hchild hopen =>
      have hlt : c < s.children.length := (List.getElem?_eq_some_iff.mp hchild).1
      refine ⟨?_, nofun, ?_⟩
      · intro d hd
        rw [runs_set hlt] at hd
        split at hd
        · simp at hd
        next hdc =>
          rcases h.attended d hd with hheld | ⟨call, hcall, rfl⟩
          · exact absurd (hown d hheld) hdc
          · refine .inr ⟨_, List.mem_map_of_mem hcall, ?_⟩
            split
            · rfl
            · rfl
      · intro call hcall
        obtain ⟨old, hold, rfl⟩ := List.mem_map.mp hcall
        rw [List.length_set]
        split
        · exact h.stops old hold
        · exact h.stops old hold
  | @stop c hproc =>
      refine ⟨?_, nofun, ?_⟩
      · intro d hd
        rcases h.attended d hd with hheld | ⟨call, hcall, rfl⟩
        · obtain rfl := Option.some.inj (hproc.symm.trans hheld)
          exact .inr ⟨_, List.mem_append_right _ (List.mem_singleton_self _), rfl⟩
        · exact .inr ⟨call, List.mem_append_left _ hcall, rfl⟩
      · intro call hcall
        rcases List.mem_append.mp hcall with hold | hnew
        · exact h.stops call hold
        · obtain rfl := List.mem_singleton.mp hnew
          exact lt_of_runs (h.handle c hproc).1
  | @timeout i call hcall =>
      have hprocs : ∀ other ∈ s.stops.set i { call with resolved := true, timer := false },
          ∃ old ∈ s.stops, old.proc = other.proc := by
        intro other hother
        rcases List.mem_or_eq_of_mem_set hother with hold | rfl
        · exact ⟨other, hold, rfl⟩
        · exact ⟨call, List.mem_of_getElem? hcall, rfl⟩
      refine ⟨?_, ?_, ?_⟩
      · intro d hd
        refine (h.attended d hd).imp_right ?_
        rintro ⟨old, hold, rfl⟩
        obtain ⟨j, hj, rfl⟩ := List.getElem_of_mem hold
        by_cases hij : i = j
        · subst hij
          obtain rfl := Option.some.inj ((List.getElem?_eq_getElem hj).symm.trans hcall)
          exact ⟨_, List.mem_set hj _, rfl⟩
        · refine ⟨s.stops[j], List.mem_iff_getElem?.mpr ⟨j, ?_⟩, rfl⟩
          rw [List.getElem?_set_ne hij, List.getElem?_eq_getElem hj]
      · intro d hd
        refine ⟨(h.handle d hd).1, fun other hother => ?_⟩
        obtain ⟨old, hold, heq⟩ := hprocs other hother
        rw [← heq]
        exact (h.handle d hd).2 old hold
      · intro other hother
        obtain ⟨old, hold, heq⟩ := hprocs other hother
        rw [← heq]
        exact h.stops old hold

/-- Another process's end loses the process of the handle. -/
theorem Tracked.not_attended (h : s.Tracked) (hnot : ¬ s.OwnClose l) (hstep : s.step l = some t) :
    ¬ t.Attended := by
  cases stepsTo_of_step hstep with
  | @close c child hchild hopen =>
      obtain ⟨held, hheld, hne⟩ : ∃ held ∈ s.proc, held ≠ c := by
        simpa [OwnClose] using hnot
      obtain ⟨hruns, hstops⟩ := h.handle held hheld
      intro hall
      have hlt : c < s.children.length := (List.getElem?_eq_some_iff.mp hchild).1
      rcases hall held (by simpa using lt_of_runs hruns) (by rw [runs_set hlt, if_neg hne, hruns])
        with hnone | ⟨call, hcall, heq⟩
      · cases hnone
      · obtain ⟨old, hold, rfl⟩ := List.mem_map.mp hcall
        refine hstops old hold ?_
        rw [← heq]
        split
        · rfl
        · rfl
  | _ => exact absurd trivial hnot

/-- A supervisor is spawned only when the earlier ones have ended. -/
def SpawnsAlone (s : ProcessManager) : ProcessLabel → Prop
  | .spawnSupervisor => s.proc = none → ∀ c < s.children.length, runs s.children c = false
  | _ => True

/-- The invariant of those runs. -/
structure Alone (s : ProcessManager) : Prop where
  tracked : s.Tracked
  one : ∀ c d, runs s.children c = true → runs s.children d = true → c = d

theorem Alone.ownClose (h : s.Alone) (hstep : s.step l = some t) : s.OwnClose l := by
  cases stepsTo_of_step hstep with
  | @close c child hchild hopen =>
      intro held hheld
      refine h.one held c (h.tracked.handle held hheld).1 ?_
      rw [runs, hchild, Option.any_some, hopen]
      rfl
  | _ => trivial

/-- No step but a spawn makes a process run. -/
theorem runs_of_step (hstep : s.step l = some t) {c : ℕ} (hruns : runs t.children c = true) :
    runs s.children c = true ∨ (l = .spawnSupervisor ∧ s.proc = none ∧ c = s.children.length) := by
  cases stepsTo_of_step hstep with
  | spawned hproc =>
      rcases (runs_append s.children c).mp hruns with hold | heq
      · exact .inl hold
      · exact .inr ⟨rfl, hproc, heq⟩
  | @data d text child hchild hopen =>
      refine .inl ?_
      rw [runs_set (List.getElem?_eq_some_iff.mp hchild).1] at hruns
      split at hruns
      next hcd => rw [hcd, runs, hchild, Option.any_some, hopen, Bool.not_false]
      · exact hruns
  | @close d child hchild hopen =>
      refine .inl ?_
      rw [runs_set (List.getElem?_eq_some_iff.mp hchild).1] at hruns
      split at hruns
      · simp at hruns
      · exact hruns
  | _ => exact .inl hruns

theorem Alone.step (h : s.Alone) (halone : s.SpawnsAlone l) (hstep : s.step l = some t) :
    t.Alone := by
  refine ⟨h.tracked.step (h.ownClose hstep) hstep, ?_⟩
  intro c d hc hd
  rcases runs_of_step hstep hc with hcOld | ⟨rfl, hproc, rfl⟩
  · rcases runs_of_step hstep hd with hdOld | ⟨rfl, hproc, -⟩
    · exact h.one c d hcOld hdOld
    · cases (halone hproc c (lt_of_runs hcOld)).symm.trans hcOld
  · rcases runs_of_step hstep hd with hdOld | ⟨-, -, rfl⟩
    · cases (halone hproc d (lt_of_runs hdOld)).symm.trans hdOld
    · rfl

theorem alone_init : init.Alone := ⟨tracked_init, by simp [init, runs]⟩

/-- **When a supervisor is lost.**  In every run all running supervisors can be stopped exactly
as long as no process ends while the handle is of another one; and that is so in the
runs that spawn a supervisor only when the earlier ones have ended. -/
theorem attended_iff_ownClose {labels : List ProcessLabel}
    (hrun : execute step init labels = some s) :
    (Always step Attended init labels ↔ MeetsAlong step OwnClose init labels) ∧
      (MeetsAlong step SpawnsAlone init labels → Always step Attended init labels) := by
  refine ⟨?_, fun hmeets => ?_⟩
  · exact always_iff_meetsAlong step Tracked tracked_init (fun a ha c _ => ha.attended c)
      (fun a l b ha _ hown hstep => ha.step hown hstep)
      (fun a l b ha _ hnot hstep => ha.not_attended hnot hstep) hrun
  · exact always_of_meetsAlong step alone_init (fun a ha c _ => ha.tracked.attended c)
      (fun a l b ha halone hstep => ha.step halone hstep) hmeets

/-- The supervisor is stopped, outlives the three seconds, and ends after the next one has
been spawned. -/
def lateClose : List ProcessLabel :=
  [.spawnSupervisor, .data 0 "WebSocket Server listening on ws://127.0.0.1:5050\n".toList, .stop,
    .timeout 0, .spawnSupervisor, .close 0]

/-- **The second supervisor is lost**: it runs, and neither `stop` nor `spawnSupervisor` knows
of it. -/
theorem lateClose_loses_supervisor :
    ∃ s, execute step init lateClose = some s ∧ s.proc = none ∧ runs s.children 1 = true ∧
      ¬ Always step Attended init lateClose := by
  obtain ⟨s, hs⟩ := Option.isSome_iff_exists.mp
    (show (execute step init lateClose).isSome by decide +kernel)
  have hshown : (execute step init lateClose).map (fun s => (s.proc, runs s.children 1)) =
      some (none, true) := by
    decide +kernel
  rw [hs] at hshown
  obtain ⟨hproc, hruns⟩ := Prod.mk.inj (Option.some.inj hshown)
  exact ⟨s, hs, hproc, hruns, fun hall =>
    absurd ((attended_iff_ownClose hs).1.mp hall) (by decide +kernel)⟩

end ProcessManager

end Sdk
end AvaListener
