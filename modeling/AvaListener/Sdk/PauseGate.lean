import AvaListener.Kernel.ConfiguredThreshold
import AvaListener.Sdk.Lifecycle

/-!
# The pause gate from end to end

The SDK's life cycle, the supervisor's dispatch and the worker's receive callback
over its engine, joined by two first-in first-out channels that lose nothing while
both ends live.

`gate` records what the worker has been told: the value of the last
`detection_paused` it has processed.  The detection is meant to be paused while it
is `some true`.
-/

namespace AvaListener
namespace Sdk

open Library Matcher Kernel Transport

/-- A worker process. -/
structure Worker where
  engine : WakeEngine
  gate : Option Bool

/-- `_on_ipc_receive` of the worker.  `wakePhrases` are those of the file at the
payload's path, if it can be loaded. -/
def Worker.onIpcReceive (lib : TextLib) (w : Worker) (m : IpcMessage)
    (wakePhrases : Option (List PhraseEntry)) : Worker :=
  let engine :=
    if m.type = "CONFIGURE".toList ∧ m.payload.command = some "load_profile".toList ∧
        m.payload.path ≠ none ∧ m.payload.path ≠ some [] then
      match wakePhrases with
      | none => w.engine
      | some phrases => (w.engine.step lib (.loadProfile phrases)).1
    else w.engine
  { engine := engine
    gate :=
      if m.type = "CONFIGURE".toList ∧ m.payload.detectionPaused ≠ none then
        m.payload.detectionPaused
      else w.gate }

/-- The three processes and what is under way between them. -/
structure System where
  sdk : Lifecycle
  toServer : List Envelope
  toWorker : List IpcMessage
  worker : Option Worker

inductive SystemLabel where
  | sdk (step : SdkStep)
  /-- The supervisor takes a message from its WebSocket. -/
  | deliver
  /-- The worker takes a message from its IPC connection. -/
  | receive (wakePhrases : Option (List PhraseEntry))
  /-- The recogniser calls `_on_hypothesis`. -/
  | hypothesis (c : Call)
  /-- A worker starts, with the registry and index of its profile. -/
  | spawnWorker (m : MatcherState)
  | workerExits

namespace System

variable (lib : TextLib)

def init : System := ⟨.init, [], [], none⟩

/-- The worker is gone, and with it what was under way to it. -/
def withoutWorker (s : System) : System := { s with toWorker := [], worker := none }

/-- What the supervisor does with the envelope, on the system behind it. -/
def dispatch (s : System) (e : Envelope) : System :=
  match validateMessage e with
  | none => s
  | some e =>
      match onWsReceive e with
      | .reply => s
      | .crashWorker => s.withoutWorker
      | .shutdown => s.withoutWorker
      | .forward m => if s.worker.isSome then { s with toWorker := s.toWorker ++ [m] } else s

def step (s : System) : SystemLabel → Option System
  | .sdk l =>
      match s.sdk.step l with
      | none => some s
      | some (sdk, sent) =>
          -- An unsent rest is lost with the socket; `stop` ends the processes.
          if l = .stopped then some { s.withoutWorker with sdk := sdk, toServer := [] }
          else if l = .recovering then some { s with sdk := sdk, toServer := [] }
          else some { s with sdk := sdk, toServer := s.toServer ++ sent }
  | .deliver =>
      match s.toServer with
      | [] => none
      | e :: rest => some ({ s with toServer := rest }.dispatch e)
  | .receive wakePhrases =>
      match s.worker, s.toWorker with
      | some w, m :: rest =>
          some { s with worker := some (w.onIpcReceive lib m wakePhrases), toWorker := rest }
      | _, _ => none
  | .hypothesis c =>
      match s.worker with
      | none => none
      | some w =>
          some { s with worker := some { w with engine := (w.engine.onHypothesis lib c).1 } }
  | .spawnWorker m => some { s with worker := some ⟨.init m, none⟩, toWorker := [] }
  | .workerExits => some s.withoutWorker

/-- The wake that a step emits. -/
def emitted (s : System) : SystemLabel → Option WakeEvent
  | .hypothesis c => s.worker.bind fun w => WakeEngine.wakeOf (w.engine.onHypothesis lib c).2
  | _ => none

/-- The worker was told to pause and has not been told to resume since. -/
def Paused (s : System) : Prop := ∃ w, s.worker = some w ∧ w.gate = some true

/-- The step emits no wake if the worker is paused. -/
def SilentWhilePaused (s : System) (l : SystemLabel) : Prop :=
  s.Paused → s.emitted lib l = none

/-- The step is no hypothesis with which a paused worker's window matches a phrase. -/
def NoMatchWhilePaused (s : System) : SystemLabel → Prop
  | .hypothesis c => ∀ w, s.worker = some w → w.gate = some true →
      (bestMatch lib w.engine.matcher (w.engine.observe lib c).buffer.window).phrase = []
  | _ => True

instance (s : System) : ∀ l, Decidable (s.NoMatchWhilePaused lib l)
  | .hypothesis c => inferInstanceAs (Decidable (∀ w ∈ s.worker, w.gate = some true →
      (bestMatch lib w.engine.matcher (w.engine.observe lib c).buffer.window).phrase = []))
  | .sdk _ | .deliver | .receive _ | .spawnWorker _ | .workerExits =>
      inferInstanceAs (Decidable True)

/-! ## The engines of a run -/

/-- Every engine has gone through some history since its start, in which nothing
has set its pause flag. -/
def Unpaused (s : System) : Prop :=
  ∀ w, s.worker = some w → w.engine.detectionPaused = false ∧
    ∃ answered, WakeEngine.EmaBacked answered w.engine

theorem unpaused_init : init.Unpaused := by
  intro w hw
  cases hw

section Engine

variable {lib} {e : WakeEngine}

/-- Neither a hypothesis nor a profile load touches the flag. -/
theorem step_detectionPaused (input : EngineInput) :
    (e.step lib input).1.detectionPaused = e.detectionPaused := by
  by_cases hcall : ∃ c, input = .hypothesis c
  · obtain ⟨c, rfl⟩ := hcall
    exact (WakeEngine.onHypothesis_keeps lib e c).2
  · obtain ⟨m, hm⟩ := WakeEngine.step_reconfigures lib e input fun c hc => hcall ⟨c, hc⟩
    rw [hm]

theorem engine_step (h : e.detectionPaused = false ∧ ∃ answered, WakeEngine.EmaBacked answered e)
    (input : EngineInput) :
    (e.step lib input).1.detectionPaused = false ∧
      ∃ answered, WakeEngine.EmaBacked answered (e.step lib input).1 := by
  obtain ⟨hpaused, answered, hbacked⟩ := h
  exact ⟨(step_detectionPaused input).trans hpaused, _, hbacked.step input⟩

end Engine

/-- A message at most loads a profile. -/
theorem onIpcReceive_engine (w : Worker) (m : IpcMessage)
    (wakePhrases : Option (List PhraseEntry)) :
    (w.onIpcReceive lib m wakePhrases).engine = w.engine ∨
      ∃ phrases, (w.onIpcReceive lib m wakePhrases).engine =
        (w.engine.step lib (.loadProfile phrases)).1 := by
  unfold Worker.onIpcReceive
  simp only
  split
  · cases wakePhrases with
    | none => exact Or.inl rfl
    | some phrases => exact Or.inr ⟨phrases, rfl⟩
  · exact Or.inl rfl

theorem worker_dispatch {s : System} {e : Envelope} {w : Worker}
    (h : (s.dispatch e).worker = some w) : s.worker = some w := by
  unfold dispatch at h
  split at h
  · exact h
  · split at h
    · exact h
    · cases h
    · cases h
    · split at h
      · exact h
      · exact h

theorem unpaused_step {s t : System} {l : SystemLabel} (hs : s.Unpaused)
    (h : s.step lib l = some t) : t.Unpaused := by
  intro w hw
  cases l with
  | sdk l =>
      simp only [step] at h
      split at h
      · obtain rfl := Option.some.inj h
        exact hs w hw
      · split at h
        · obtain rfl := Option.some.inj h
          cases hw
        · split at h
          · obtain rfl := Option.some.inj h
            exact hs w hw
          · obtain rfl := Option.some.inj h
            exact hs w hw
  | deliver =>
      simp only [step] at h
      split at h
      · cases h
      next e rest _ =>
        obtain rfl := Option.some.inj h
        have hworker := worker_dispatch hw
        exact hs w hworker
  | receive wakePhrases =>
      simp only [step] at h
      split at h
      next v m rest hworker _ =>
        obtain rfl := Option.some.inj h
        obtain rfl := Option.some.inj hw
        rcases onIpcReceive_engine lib v m wakePhrases with heq | ⟨phrases, heq⟩
        · rw [heq]
          exact hs v hworker
        · rw [heq]
          exact engine_step (hs v hworker) _
      · cases h
  | hypothesis c =>
      simp only [step] at h
      split at h
      · cases h
      next v hworker =>
        obtain rfl := Option.some.inj h
        obtain rfl := Option.some.inj hw
        exact engine_step (hs v hworker) (.hypothesis c)
  | spawnWorker m =>
      obtain rfl := Option.some.inj h
      obtain rfl := Option.some.inj hw
      exact ⟨rfl, [], WakeEngine.emaBacked_run lib m []⟩
  | workerExits =>
      obtain rfl := Option.some.inj h
      cases hw

/-! ## What pausing does to the wakes -/

/-- A wake names a phrase that the window matches. -/
theorem silent_of_noMatch {s : System} (hs : s.Unpaused) {l : SystemLabel}
    (h : s.NoMatchWhilePaused lib l) : s.SilentWhilePaused lib l := by
  rintro ⟨w, hworker, hgate⟩
  cases l with
  | hypothesis c =>
      rw [emitted, hworker, Option.bind_some, Option.eq_none_iff_forall_ne_some]
      intro event hevent
      obtain ⟨-, htriggers, -⟩ :=
        (WakeEngine.wakeOf_onHypothesis_eq_some_iff lib w.engine c).mp hevent
      obtain ⟨-, answered, hbacked⟩ := hs w hworker
      exact (hbacked.of_triggers htriggers).1 (h w hworker hgate)
  | _ => rfl

/-- **Pausing.**  A run emits no wake in its paused intervals if the hypotheses
processed in them match no phrase.  The pause itself has no effect: no worker of
any run has the flag set that the gate in `_on_hypothesis` reads. -/
theorem paused_worker_silent (labels : List SystemLabel) :
    (MeetsAlong (step lib) (NoMatchWhilePaused lib) init labels →
      MeetsAlong (step lib) (SilentWhilePaused lib) init labels) ∧
    ∀ s, execute (step lib) init labels = some s →
      ∀ w, s.worker = some w → w.engine.detectionPaused = false := by
  constructor
  · intro hmatchless
    refine meetsAlong_imp (step lib) unpaused_init ?_ ?_ hmatchless
    · intro a l b ha hstep
      exact unpaused_step lib ha hstep
    · intro a l ha hnone
      exact silent_of_noMatch lib ha hnone
  · intro s hrun w hw
    have hunpaused := execute_invariant (step lib) Unpaused unpaused_init
      (fun a l b ha _ hstep => unpaused_step lib ha hstep) hrun
    exact (hunpaused w hw).1

/-! ## A wake after `pause` -/

/-- The SDK starts and pauses, and the worker processes both gate messages. -/
def startThenPause : List SystemLabel :=
  [.sdk (.start false), .sdk .install, .sdk .connect, .spawnWorker WakeEngine.customMatcher,
    .sdk .opened, .sdk .ready, .deliver, .receive none, .sdk .pause, .deliver, .receive none]

/-- The next hypothesis wakes. -/
theorem pausedWorker_wakes :
    ((execute (step AsciiText.lib) init startThenPause).map fun s =>
        (s.sdk.fsm, s.worker.map Worker.gate)) = some (.paused, some (some true)) ∧
      ¬ MeetsAlong (step AsciiText.lib) (SilentWhilePaused AsciiText.lib) init
        (startThenPause ++ [.hypothesis (.still "hey assistant".toList 2 1 10)]) := by
  have hrun : ((execute (step AsciiText.lib) init startThenPause).map fun s =>
      (s.sdk.fsm, s.worker.map Worker.gate,
        (s.emitted AsciiText.lib (.hypothesis (.still "hey assistant".toList 2 1 10))).isSome)) =
      some (.paused, some (some true), true) := by decide +kernel
  obtain ⟨s, hs, hparts⟩ := Option.map_eq_some_iff.mp hrun
  obtain ⟨hfsm, hrest⟩ := Prod.mk.inj hparts
  obtain ⟨hgate, hwakes⟩ := Prod.mk.inj hrest
  refine ⟨by rw [hs, Option.map_some, hfsm, hgate], ?_⟩
  intro hmeets
  obtain ⟨w, hworker, hpaused⟩ := Option.map_eq_some_iff.mp hgate
  have hsilent := meetsAlong_last (step AsciiText.lib) hmeets hs ⟨w, hworker, hpaused⟩
  rw [hsilent] at hwakes
  cases hwakes

/-- One that matches no phrase does not. -/
theorem pausedWorker_silent :
    MeetsAlong (step AsciiText.lib) (SilentWhilePaused AsciiText.lib) init
      (startThenPause ++ [.hypothesis (.still "good morning".toList 2 1 10)]) :=
  (paused_worker_silent AsciiText.lib _).1 (by decide +kernel)

end System

end Sdk
end AvaListener
