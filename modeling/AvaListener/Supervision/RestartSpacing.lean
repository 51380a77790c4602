import Mathlib.Data.List.Chain
import AvaListener.Supervision.RestartManager

/-!
# How far apart restarts are

`request_restart` computes a delay and returns it; the restart it makes at once.  So the
restarts of a subsystem are as far apart as the requests for them
(`spaced_iff_requestsDue`).  A caller that waits out every delay it is given keeps the
backoff (`backedOff_of_waiting`), but not the cooldown (`spaced_fails`).
-/

namespace AvaListener
namespace Supervision
namespace Hardening

open Library

variable {Callable : Type*}

/-! ## Requests for one subsystem -/

/-- An invocation of the restart handler that returned, with the delay that its request
returned. -/
structure Invocation where
  started : ℚ
  finished : ℚ
  delayMs : ℚ
  deriving DecidableEq

/-- At time `now` the cooldown and the delay of the invocation are over. -/
def Invocation.Clears (i : Invocation) (cooldownS now : ℚ) : Prop :=
  i.finished + cooldownS ≤ now ∧ i.finished + i.delayMs / 1000 ≤ now

/-- The invocation that a request has made, if the handler was invoked and returned. -/
def completed (subsystem : Text) (q : RestartRequest) (delayMs : ℚ)
    (effects : List (RestartEffect Callable)) : Option Invocation :=
  match q.outcome with
  | .returns finished =>
      if 0 < effects.countP (RestartEffect.invokes subsystem) then
        some ⟨q.now, finished, delayMs⟩
      else none
  | .raises _ => none

/-- A manager with the requests for one subsystem so far. -/
structure RestartHistory (Callable : Type*) where
  manager : RestartManager Callable
  /-- The end of the last request. -/
  clock : ℚ
  /-- The end of the delay that it returned. -/
  waitedUntil : ℚ
  invocations : List Invocation

namespace RestartHistory

def start (manager : RestartManager Callable) (clock : ℚ) : RestartHistory Callable where
  manager := manager
  clock := clock
  waitedUntil := clock
  invocations := []

/-- One more request.  The clock does not run backwards. -/
def step (subsystem : Text) (s : RestartHistory Callable) (q : RestartRequest) :
    Option (RestartHistory Callable) :=
  match s.manager.requestRestart subsystem q with
  | .error _ => none
  | .ok (manager, delayMs, effects) =>
      let made := completed subsystem q delayMs effects
      let ended := (made.map (·.finished)).getD q.now
      if s.clock ≤ q.now ∧ q.now ≤ ended then
        some ⟨manager, ended, ended + delayMs / 1000, s.invocations ++ made.toList⟩
      else none

variable (subsystem : Text) (s : RestartHistory Callable)

/-- `cooldown_s` of the subsystem. -/
def cooldownS : ℚ := ((s.manager.records.get? subsystem).map (·.cooldownS)).getD 0

/-- Two consecutive successful invocations are at least the cooldown apart, and at least
the delay that the earlier request returned. -/
def Spaced : Prop :=
  s.invocations.IsChain fun earlier later =>
    earlier.Clears (s.cooldownS subsystem) later.started

/-- A request that will restart the subsystem comes after the cooldown and the delay of
the last one that did. -/
def RequestDue (q : RestartRequest) : Prop :=
  q.outcome.succeeds = true → (s.manager.handler? subsystem).isSome = true →
    s.manager.toleratesFailure subsystem = true →
      ∀ last ∈ s.invocations.getLast?, last.Clears (s.cooldownS subsystem) q.now

/-- The caller has waited out the delay of the request before. -/
def Waits (q : RestartRequest) : Prop := s.waitedUntil ≤ q.now

instance (q : RestartRequest) : Decidable (s.Waits q) :=
  inferInstanceAs (Decidable (_ ≤ _))

instance (i : Invocation) (cooldownS now : ℚ) : Decidable (i.Clears cooldownS now) :=
  inferInstanceAs (Decidable (_ ∧ _))

instance : Decidable (s.Spaced subsystem) :=
  inferInstanceAs (Decidable (List.IsChain _ _))

instance (q : RestartRequest) : Decidable (s.RequestDue subsystem q) :=
  inferInstanceAs (Decidable (_ → _ → _ → ∀ last ∈ s.invocations.getLast?, _))

variable {subsystem s} {t u : RestartHistory Callable} {q : RestartRequest}

/-! ## What a request does -/

/-- An invocation is made where the handler returns, if it is invoked. -/
theorem isSome_completed_iff {delayMs : ℚ} {effects : List (RestartEffect Callable)} {p : Prop}
    [Decidable p] (hcount : effects.countP (RestartEffect.invokes subsystem) = if p then 1 else 0) :
    (completed subsystem q delayMs effects).isSome = true ↔
      q.outcome.succeeds = true ∧ p := by
  cases houtcome : q.outcome with
  | raises error => simp [completed, houtcome, HandlerOutcome.succeeds]
  | returns finished =>
      by_cases hp : p
      · simp [completed, houtcome, hcount, hp, HandlerOutcome.succeeds]
      · simp [completed, houtcome, hcount, hp]

theorem eq_of_mem_completed {delayMs : ℚ} {effects : List (RestartEffect Callable)}
    {i : Invocation} (h : i ∈ completed subsystem q delayMs effects) :
    i.started = q.now ∧ i.delayMs = delayMs := by
  unfold completed at h
  split at h
  · split at h
    · obtain rfl := Option.some.inj h
      exact ⟨rfl, rfl⟩
    · cases h
  · cases h

/-- The effect of a request on the history: `r` is the record before it, `made` the
invocation that it made. -/
structure StepEffect (subsystem : Text) (s : RestartHistory Callable) (q : RestartRequest)
    (t : RestartHistory Callable) (r : SubsystemRestartRecord) (made : Option Invocation) :
    Prop where
  record : s.manager.records.get? subsystem = some r
  record' : ∃ r', t.manager.records.get? subsystem = some r' ∧ r'.cooldownS = r.cooldownS ∧
    r'.policy = r.countFailure.2.policy
  inTime : s.clock ≤ q.now ∧ q.now ≤ t.clock
  waitedUntil : t.waitedUntil = t.clock + r.requestDelay q.now / 1000
  invocations : t.invocations = s.invocations ++ made.toList
  isSome_iff : made.isSome = true ↔ q.outcome.succeeds = true ∧
    (s.manager.handler? subsystem).isSome = true ∧ s.manager.toleratesFailure subsystem = true
  mem : ∀ i ∈ made, i.started = q.now ∧ i.finished = t.clock ∧ i.delayMs = r.requestDelay q.now

theorem step_effect (h : step subsystem s q = some t) :
    ∃ r made, StepEffect subsystem s q t r made := by
  cases hrecord : s.manager.records.get? subsystem with
  | none =>
      rw [step, RestartManager.requestRestart_of_missing hrecord] at h
      cases h
  | some r =>
      obtain ⟨record, effects, hrequest, hcooldown, hpolicy⟩ :=
        RestartManager.exists_requestRestart (q := q) hrecord
      have hcount := RestartManager.countP_invokes_requestRestart hrequest
      rw [step, hrequest] at h
      simp only at h
      split at h
      next htime =>
        obtain rfl := Option.some.inj h
        refine ⟨r, completed subsystem q (r.requestDelay q.now) effects, ?_⟩
        refine ⟨hrecord, ⟨record, RestartManager.setRecord_records_self record, hcooldown, hpolicy⟩,
          htime, rfl, rfl, isSome_completed_iff hcount, ?_⟩
        intro i hi
        obtain ⟨hstarted, hdelay⟩ := eq_of_mem_completed hi
        refine ⟨hstarted, ?_, hdelay⟩
        simp [Option.mem_def.mp hi]
      next => cases h

namespace StepEffect

variable {r : SubsystemRestartRecord} {made : Option Invocation}

theorem cooldownS_eq (h : StepEffect subsystem s q t r made) :
    t.cooldownS subsystem = s.cooldownS subsystem := by
  obtain ⟨r', hrecord', hcooldown, -⟩ := h.record'
  simp [cooldownS, h.record, hrecord', hcooldown]

/-- **One request** keeps the restarts apart exactly if it is due. -/
theorem spaced_iff (h : StepEffect subsystem s q t r made) :
    t.Spaced subsystem ↔ s.Spaced subsystem ∧ s.RequestDue subsystem q := by
  have hlast : (∀ last ∈ s.invocations.getLast?, ∀ i ∈ made.toList.head?,
      last.Clears (s.cooldownS subsystem) i.started) ↔ s.RequestDue subsystem q := by
    cases made with
    | none =>
        refine iff_of_true (fun _ _ i hi => absurd hi (by simp)) ?_
        intro hreturns hhandler htolerates
        exact absurd (h.isSome_iff.mpr ⟨hreturns, hhandler, htolerates⟩) (by simp)
    | some i =>
        obtain ⟨hreturns, hhandler, htolerates⟩ := h.isSome_iff.mp rfl
        have hstarted : i.started = q.now := (h.mem i rfl).1
        simp [RequestDue, hreturns, hhandler, htolerates, hstarted]
  unfold Spaced
  rw [h.invocations, List.isChain_append, h.cooldownS_eq, hlast]
  constructor
  · rintro ⟨hchain, -, hdue⟩
    exact ⟨hchain, hdue⟩
  · rintro ⟨hchain, hdue⟩
    refine ⟨hchain, ?_, hdue⟩
    cases made with
    | none => exact .nil
    | some i => exact List.IsChain.singleton i

end StepEffect

/-! ## Sequences of requests -/

/-- **Restarts are spaced** by the cooldown and the backoff exactly if the requests for
them are. -/
theorem spaced_iff_requestsDue (manager : RestartManager Callable) (clock : ℚ)
    (requests : List RestartRequest) {u : RestartHistory Callable}
    (hrun : execute (step subsystem) (start manager clock) requests = some u) :
    Always (step subsystem) (Spaced subsystem) (start manager clock) requests ↔
      MeetsAlong (step subsystem) (RequestDue subsystem) (start manager clock) requests := by
  refine always_iff_meetsAlong (step subsystem) (Spaced subsystem) List.IsChain.nil
    (fun _ h => h) ?_ ?_ hrun
  · intro a q b hspaced _ hdue hstep
    obtain ⟨r, made, heffect⟩ := step_effect hstep
    exact heffect.spaced_iff.mpr ⟨hspaced, hdue⟩
  · intro a q b _ _ hnot hstep hspaced
    obtain ⟨r, made, heffect⟩ := step_effect hstep
    exact hnot (heffect.spaced_iff.mp hspaced).2

/-- The decoder fails, and is restarted at once. -/
def failsAt (now : ℚ) : RestartRequest where
  reason := workerDead
  now := now
  outcome := .returns now

/-- A manager with the default policies and a restart handler for the decoder. -/
def asrManager : RestartManager Unit :=
  (RestartManager.init.registerRestartHandler Subsystem.asr.name ()).toOption.getD .init

/-- A caller that waits out the delay of its first request restarts the decoder again
after a tenth of a second. -/
theorem spaced_fails :
    ∃ requests u,
      execute (step Subsystem.asr.name) (start asrManager 10) requests = some u ∧
        MeetsAlong (step Subsystem.asr.name) Waits (start asrManager 10) requests ∧
        ¬ Always (step Subsystem.asr.name) (Spaced Subsystem.asr.name) (start asrManager 10)
          requests := by
  have hrun : (execute (step Subsystem.asr.name) (start asrManager 10)
      [failsAt 10, failsAt (101 / 10)]).isSome = true := by decide +kernel
  obtain ⟨u, hu⟩ := Option.isSome_iff_exists.mp hrun
  exact ⟨_, u, hu, by decide +kernel, by decide +kernel⟩

/-- Requests two and three seconds apart restart it as often, and far enough apart. -/
theorem patient_spaced :
    Always (step Subsystem.asr.name) (Spaced Subsystem.asr.name) (start asrManager 10)
      [failsAt 10, failsAt 12, failsAt 15] := by
  have hrun : (execute (step Subsystem.asr.name) (start asrManager 10)
      [failsAt 10, failsAt 12, failsAt 15]).isSome = true := by decide +kernel
  obtain ⟨u, hu⟩ := Option.isSome_iff_exists.mp hrun
  exact (spaced_iff_requestsDue asrManager 10 _ hu).mpr (by decide +kernel)

/-! ## Callers that wait -/

/-- The backoff alone: two consecutive successful invocations are at least the delay
apart that the earlier request returned. -/
def BackedOff (s : RestartHistory Callable) : Prop :=
  s.invocations.IsChain fun earlier later =>
    earlier.finished + earlier.delayMs / 1000 ≤ later.started

/-- The delay of the last restart is over when the caller has waited. -/
structure WaitedOut (subsystem : Text) (s : RestartHistory Callable) : Prop where
  backoff : ∀ r, s.manager.records.get? subsystem = some r → r.policy.BackoffNonneg
  backedOff : s.BackedOff
  last : ∀ i ∈ s.invocations.getLast?, i.finished + i.delayMs / 1000 ≤ s.waitedUntil

theorem StepEffect.waitedOut {r : SubsystemRestartRecord} {made : Option Invocation}
    (h : StepEffect subsystem s q t r made) (hs : WaitedOut subsystem s) (hwaits : s.Waits q) :
    WaitedOut subsystem t := by
  have hnonneg := hs.backoff r h.record
  have hdelay := SubsystemRestartRecord.requestDelay_nonneg hnonneg q.now
  have hbackoff : ∀ r', t.manager.records.get? subsystem = some r' →
      r'.policy.BackoffNonneg := by
    obtain ⟨r', hrecord', -, hpolicy⟩ := h.record'
    intro r'' hrecord''
    obtain rfl : r' = r'' := Option.some.inj (hrecord'.symm.trans hrecord'')
    rw [hpolicy]
    exact SubsystemRestartRecord.countFailure_backoffNonneg hnonneg
  cases hmade : made with
  | none =>
      have hsame : t.invocations = s.invocations := by simp [h.invocations, hmade]
      refine ⟨hbackoff, by rw [BackedOff, hsame]; exact hs.backedOff, ?_⟩
      intro i hi
      rw [hsame] at hi
      have hlast := hs.last i hi
      have hended := h.inTime.2
      rw [h.waitedUntil]
      unfold Waits at hwaits
      linarith
  | some i =>
      obtain ⟨hstarted, hfinished, hreturned⟩ := h.mem i hmade
      have hadded : t.invocations = s.invocations ++ [i] := by simp [h.invocations, hmade]
      refine ⟨hbackoff, ?_, ?_⟩
      · rw [BackedOff, hadded]
        refine hs.backedOff.append (List.IsChain.singleton i) ?_
        intro last hlast later hlater
        obtain rfl : i = later := Option.some.inj hlater
        rw [hstarted]
        exact (hs.last last hlast).trans hwaits
      · intro last hlast
        rw [hadded, List.getLast?_concat] at hlast
        obtain rfl : i = last := Option.some.inj hlast
        rw [h.waitedUntil, hfinished, hreturned]

/-- **A caller that waits keeps the backoff**, whatever becomes of the cooldown. -/
theorem backedOff_of_waiting (manager : RestartManager Callable) (clock : ℚ)
    (requests : List RestartRequest)
    (hbackoff : ∀ r, manager.records.get? subsystem = some r → r.policy.BackoffNonneg)
    (hwaits : MeetsAlong (step subsystem) Waits (start manager clock) requests) :
    Always (step subsystem) BackedOff (start manager clock) requests := by
  have hstart : WaitedOut subsystem (start manager clock) :=
    ⟨hbackoff, .nil, fun _ hlast => by cases hlast⟩
  refine always_of_meetsAlong (step subsystem) hstart (fun _ h => h.backedOff) ?_ hwaits
  intro a q b ha hq hstep
  obtain ⟨r, made, heffect⟩ := step_effect hstep
  exact heffect.waitedOut ha hq

end RestartHistory

end Hardening
end Supervision
end AvaListener
