import AvaListener.Matcher.PhraseTable
import AvaListener.Sdk.PauseGate

/-!
# The phrase commands from end to end

The SDK's `loadProfile` and phrase APIs, sent in an active state over a connection
that stays up, and relayed in order to a worker that stays alive.  Between the
commands the recogniser may deliver hypotheses.

Every command arrives, and the worker's receive callback acts on `load_profile`
alone; so its registry and index are the table of the profile loaded last.
-/

namespace AvaListener
namespace Sdk

open Library Matcher Kernel Transport

/-- The API call behind a command.  The arguments of the phrase commands stand in
the payload beside the fields that the receivers read. -/
def sdkStep : PhraseCommand → SdkStep
  | .loadProfile path => .loadProfile path
  | .addPhrase _ => .command "add_phrase".toList
  | .removePhrase _ => .command "remove_phrase".toList
  | .enablePhrase _ => .command "enable_phrase".toList
  | .disablePhrase _ => .command "disable_phrase".toList
  | .updateVariants _ _ => .command "update_variants".toList

def commandPayload : PhraseCommand → Payload
  | .loadProfile path => ⟨some "load_profile".toList, some path, none⟩
  | .addPhrase _ => ⟨some "add_phrase".toList, none, none⟩
  | .removePhrase _ => ⟨some "remove_phrase".toList, none, none⟩
  | .enablePhrase _ => ⟨some "enable_phrase".toList, none, none⟩
  | .disablePhrase _ => ⟨some "disable_phrase".toList, none, none⟩
  | .updateVariants _ _ => ⟨some "update_variants".toList, none, none⟩

/-- What the supervisor sends to the worker for a command. -/
def commandMessage (c : PhraseCommand) : IpcMessage :=
  ⟨"CONFIGURE".toList, commandPayload c⟩

/-- The steps of a session in which nothing but commands is sent. -/
inductive SessionLabel where
  | command (c : PhraseCommand)
  | deliver
  | receive (file : Option (List PhraseEntry))
  | hypothesis (c : Call)

def SessionLabel.label : SessionLabel → SystemLabel
  | .command c => .sdk (sdkStep c)
  | .deliver => .deliver
  | .receive file => .receive file
  | .hypothesis c => .hypothesis c

/-- The commands sent, in order. -/
def commandsSent (labels : List SessionLabel) : List PhraseCommand :=
  labels.filterMap fun
    | .command c => some c
    | _ => none

/-- The files found by the worker, message by message. -/
def filesFound (labels : List SessionLabel) : List (Option (List PhraseEntry)) :=
  labels.filterMap fun
    | .receive file => some file
    | _ => none

/-- The commands with what the worker found when it processed them. -/
def processedCommands (labels : List SessionLabel) : List ProcessedCommand :=
  (commandsSent labels).zip (filesFound labels)

namespace System

variable (lib : TextLib)

/-! ## One step -/

/-- In an active state with a connection every command is sent. -/
theorem lifecycle_sdkStep {s : Lifecycle} (hactive : s.fsm.isActive = true)
    (hconnected : s.isConnected = true) (c : PhraseCommand) :
    s.step (sdkStep c) = some (s, [Lifecycle.configure (commandPayload c)]) := by
  have hsend : ∀ payload, s.sendConfigure payload = [Lifecycle.configure payload] :=
    fun _ => if_pos hconnected
  cases c <;> simp only [sdkStep, commandPayload, Lifecycle.step, hactive, if_true, hsend]

theorem step_sdkStep {s : System} (hactive : s.sdk.fsm.isActive = true)
    (hconnected : s.sdk.isConnected = true) (c : PhraseCommand) :
    s.step lib (.sdk (sdkStep c)) =
      some { s with toServer := s.toServer ++ [Lifecycle.configure (commandPayload c)] } := by
  have hother : sdkStep c ≠ .stopped ∧ sdkStep c ≠ .recovering := by
    cases c <;> exact ⟨nofun, nofun⟩
  simp only [step]
  rw [lifecycle_sdkStep hactive hconnected c]
  simp only [if_neg hother.1, if_neg hother.2]

/-- The supervisor forwards every command to the worker. -/
theorem dispatch_command {s : System} (hworker : s.worker.isSome = true) (c : PhraseCommand) :
    s.dispatch (Lifecycle.configure (commandPayload c)) =
      { s with toWorker := s.toWorker ++ [commandMessage c] } := by
  obtain ⟨hvalid, hforward⟩ := onWsReceive_configure (commandPayload c)
  have hvalid' : validateMessage (Lifecycle.configure (commandPayload c)) =
      some (Lifecycle.configure (commandPayload c)) := hvalid
  have hforward' : onWsReceive (Lifecycle.configure (commandPayload c)) =
      .forward (commandMessage c) := hforward
  rw [dispatch, hvalid']
  simp only [hforward', hworker, if_true]

/-- No phrase command goes by the name of the load. -/
theorem commandPayload_ne_load {c : PhraseCommand} (h : ∀ path, c ≠ .loadProfile path) :
    (commandPayload c).command ≠ some "load_profile".toList := by
  cases c with
  | loadProfile path => exact absurd rfl (h path)
  | _ => exact fun hname => absurd (Option.some.inj hname) (by decide)

theorem onIpcReceive_ignored (w : Worker) {m : IpcMessage} (file : Option (List PhraseEntry))
    (h : m.payload.command ≠ some "load_profile".toList) :
    (w.onIpcReceive lib m file).engine = w.engine :=
  if_neg fun hload => h hload.2.1

/-- **What the worker does with a command**: it loads the profile, or nothing. -/
theorem onIpcReceive_matcher (w : Worker) (c : PhraseCommand) (file : Option (List PhraseEntry)) :
    (w.onIpcReceive lib (commandMessage c) file).engine.matcher =
      (ProcessedCommand.loads lib (c, file)).getD w.engine.matcher := by
  cases c with
  | loadProfile path =>
      by_cases hpath : path = []
      · have hignored : (w.onIpcReceive lib (commandMessage (.loadProfile path)) file).engine =
            w.engine := if_neg fun hload => hload.2.2.2 (congrArg some hpath)
        cases file with
        | none => rw [hignored]; rfl
        | some phrases => rw [hignored, ProcessedCommand.loads, if_pos hpath, Option.getD_none]
      · have hacts : (commandMessage (.loadProfile path)).type = "CONFIGURE".toList ∧
            (commandMessage (.loadProfile path)).payload.command = some "load_profile".toList ∧
            (commandMessage (.loadProfile path)).payload.path ≠ none ∧
            (commandMessage (.loadProfile path)).payload.path ≠ some [] :=
          ⟨rfl, rfl, nofun, fun h => hpath (Option.some.inj h)⟩
        cases file with
        | none =>
            have hkept : (w.onIpcReceive lib (commandMessage (.loadProfile path)) none).engine =
              w.engine := if_pos hacts
            rw [hkept]
            rfl
        | some phrases =>
            have hloads : (w.onIpcReceive lib (commandMessage (.loadProfile path))
                (some phrases)).engine = (w.engine.step lib (.loadProfile phrases)).1 :=
              if_pos hacts
            rw [hloads, ProcessedCommand.loads, if_neg hpath, WakeEngine.step,
              MatcherState.loadPhrases_eq lib w.engine.matcher]
            cases MatcherState.empty.loadPhrases lib phrases with
            | ok m => rfl
            | error e => rfl
  | _ =>
      rw [onIpcReceive_ignored lib w file (commandPayload_ne_load fun _ h => by cases h)]
      rfl

theorem onHypothesis_matcher (s : WakeEngine) (c : Call) :
    (s.onHypothesis lib c).1.matcher = s.matcher := by
  cases hpaused : s.detectionPaused with
  | true => rw [WakeEngine.onHypothesis_paused lib s c hpaused]
  | false =>
      by_cases htriggers : s.Triggers lib c
      · simp [WakeEngine.onHypothesis_fired lib s c hpaused htriggers]
      · simp [WakeEngine.onHypothesis_quiet lib s c hpaused htriggers]

/-! ## Sessions -/

/-- An active SDK with a connection, a live worker, and commands on their way. -/
structure InSession (s : System) (w : Worker) (waiting unsent : List PhraseCommand) : Prop where
  active : s.sdk.fsm.isActive = true
  connected : s.sdk.isConnected = true
  worker : s.worker = some w
  toWorker : s.toWorker = waiting.map commandMessage
  toServer : s.toServer = unsent.map fun c => Lifecycle.configure (commandPayload c)

/-- What a session step does to the commands on their way and to the worker's
registry and index. -/
theorem session_step {s t : System} {w : Worker} {waiting unsent : List PhraseCommand}
    {l : SessionLabel} (h : s.InSession w waiting unsent) (hstep : s.step lib l.label = some t) :
    ∃ v waiting' unsent', t.InSession v waiting' unsent' ∧
      match l with
      | .command c => v = w ∧ waiting' = waiting ∧ unsent' = unsent ++ [c]
      | .deliver => ∃ c, v = w ∧ waiting' = waiting ++ [c] ∧ unsent = c :: unsent'
      | .receive file => ∃ c, waiting = c :: waiting' ∧ unsent' = unsent ∧
          v.engine.matcher = (ProcessedCommand.loads lib (c, file)).getD w.engine.matcher
      | .hypothesis _ =>
          waiting' = waiting ∧ unsent' = unsent ∧ v.engine.matcher = w.engine.matcher := by
  cases l with
  | command c =>
      rw [SessionLabel.label, step_sdkStep lib h.active h.connected] at hstep
      obtain rfl := Option.some.inj hstep
      refine ⟨w, waiting, unsent ++ [c], ⟨h.active, h.connected, h.worker, h.toWorker, ?_⟩,
        rfl, rfl, rfl⟩
      rw [List.map_append, ← h.toServer]
      rfl
  | deliver =>
      cases unsent with
      | nil =>
          simp only [SessionLabel.label, step, h.toServer, List.map_nil] at hstep
          cases hstep
      | cons c rest =>
          simp only [SessionLabel.label, step, h.toServer, List.map_cons] at hstep
          rw [dispatch_command (by rw [h.worker]; rfl)] at hstep
          obtain rfl := Option.some.inj hstep
          refine ⟨w, waiting ++ [c], rest, ⟨h.active, h.connected, h.worker, ?_, rfl⟩,
            c, rfl, rfl, rfl⟩
          rw [List.map_append, ← h.toWorker]
          rfl
  | receive file =>
      cases waiting with
      | nil =>
          simp only [SessionLabel.label, step, h.worker, h.toWorker, List.map_nil] at hstep
          cases hstep
      | cons c rest =>
          simp only [SessionLabel.label, step, h.worker, h.toWorker, List.map_cons] at hstep
          obtain rfl := Option.some.inj hstep
          exact ⟨_, rest, unsent, ⟨h.active, h.connected, rfl, rfl, h.toServer⟩, c, rfl, rfl,
            onIpcReceive_matcher lib w c file⟩
  | hypothesis c =>
      simp only [SessionLabel.label, step, h.worker] at hstep
      obtain rfl := Option.some.inj hstep
      exact ⟨_, waiting, unsent, ⟨h.active, h.connected, rfl, h.toWorker, h.toServer⟩, rfl, rfl,
        onHypothesis_matcher lib w.engine c⟩

/-- **A session is a queue of loads.**  Once everything sent has been processed, each
command was processed with one file, and the worker's registry and index are the
table of the profile loaded last. -/
theorem session_run {s t : System} {w : Worker} {waiting unsent : List PhraseCommand}
    {labels : List SessionLabel} (h : s.InSession w waiting unsent)
    (hrun : execute (step lib) s (labels.map SessionLabel.label) = some t)
    (hdone : t.toServer = [] ∧ t.toWorker = []) :
    (waiting ++ unsent ++ commandsSent labels).length = (filesFound labels).length ∧
      ∃ v, t.worker = some v ∧ v.engine.matcher =
        ProcessedCommand.lastLoaded lib w.engine.matcher
          ((waiting ++ unsent ++ commandsSent labels).zip (filesFound labels)) := by
  induction labels generalizing s w waiting unsent with
  | nil =>
      obtain rfl := Option.some.inj hrun
      obtain rfl : unsent = [] := List.map_eq_nil_iff.mp (h.toServer.symm.trans hdone.1)
      obtain rfl : waiting = [] := List.map_eq_nil_iff.mp (h.toWorker.symm.trans hdone.2)
      exact ⟨rfl, w, h.worker, rfl⟩
  | cons l rest ih =>
      obtain ⟨a, hstep, hrest⟩ := execute_cons_eq_some (step lib) hrun
      obtain ⟨v, waiting', unsent', ha, heffect⟩ := session_step lib h hstep
      have htail := ih ha hrest
      cases l with
      | command c =>
          obtain ⟨rfl, rfl, rfl⟩ := heffect
          have hsent : waiting' ++ unsent ++ commandsSent (.command c :: rest) =
              waiting' ++ (unsent ++ [c]) ++ commandsSent rest := by
            simp [commandsSent]
          rw [hsent]
          exact htail
      | deliver =>
          obtain ⟨c, rfl, rfl, rfl⟩ := heffect
          have hsent : waiting ++ c :: unsent' ++ commandsSent (.deliver :: rest) =
              waiting ++ [c] ++ unsent' ++ commandsSent rest := by
            simp [commandsSent]
          rw [hsent]
          exact htail
      | receive file =>
          obtain ⟨c, rfl, rfl, hmatcher⟩ := heffect
          rw [hmatcher] at htail
          have hsent : c :: waiting' ++ unsent' ++ commandsSent (.receive file :: rest) =
              c :: (waiting' ++ unsent' ++ commandsSent rest) := by
            simp [commandsSent]
          have hfiles : filesFound (.receive file :: rest) = file :: filesFound rest := rfl
          rw [hsent, hfiles, List.length_cons, List.length_cons, List.zip_cons_cons]
          exact ⟨congrArg Nat.succ htail.1, htail.2⟩
      | hypothesis c =>
          obtain ⟨rfl, rfl, hmatcher⟩ := heffect
          rw [hmatcher] at htail
          exact htail

/-- **When the worker follows the commands.**  Nothing is on its way before or after;
every command sent was processed, and the worker's registry and index are the table
that the commands describe exactly when the commands since the last load leave that
profile's table as it is. -/
theorem worker_follows_commands_iff {s t : System} {w : Worker} {labels : List SessionLabel}
    (h : s.InSession w [] [])
    (hrun : execute (step lib) s (labels.map SessionLabel.label) = some t)
    (hdone : t.toServer = [] ∧ t.toWorker = []) :
    (commandsSent labels).length = (filesFound labels).length ∧
      ((∃ v, t.worker = some v ∧
          v.engine.matcher =
            ProcessedCommand.table lib w.engine.matcher (processedCommands labels)) ↔
        ProcessedCommand.table lib
            (ProcessedCommand.lastLoaded lib w.engine.matcher (processedCommands labels))
            (ProcessedCommand.sinceLoad lib (processedCommands labels)) =
          ProcessedCommand.lastLoaded lib w.engine.matcher (processedCommands labels)) := by
  obtain ⟨hlength, v, hv, hmatcher⟩ := session_run lib h hrun hdone
  refine ⟨hlength, ?_⟩
  rw [← ProcessedCommand.table_eq]
  constructor
  · rintro ⟨v', hv', htable⟩
    obtain rfl := Option.some.inj (hv.symm.trans hv')
    exact htable.symm.trans hmatcher
  · intro htable
    exact ⟨v, hv, hmatcher.trans htable.symm⟩

/-! ## A command without effect -/

/-- The SDK starts, and the worker processes the gate message. -/
def sessionStart : List SystemLabel :=
  [.sdk (.start false), .sdk .install, .sdk .connect, .spawnWorker WakeEngine.customMatcher,
    .sdk .opened, .sdk .ready, .deliver, .receive none]

/-- The worker of the shipped custom profile. -/
def activeWorker : Worker :=
  ⟨.init WakeEngine.customMatcher, some false⟩

def activeSystem : System :=
  ⟨⟨.running, true, none, false⟩, [], [], some activeWorker⟩

theorem activeSystem_reached :
    execute (step AsciiText.lib) init sessionStart = some activeSystem := rfl

theorem activeSystem_inSession : activeSystem.InSession activeWorker [] [] :=
  ⟨rfl, rfl, rfl, rfl, rfl⟩

/-- The SDK disables the profile's phrase, and the command is processed. -/
def disableCustom : List SessionLabel :=
  [.command (.disablePhrase "custom_core".toList), .deliver, .receive none]

/-- The phrase stays enabled in the worker. -/
theorem disableCustom_without_effect :
    execute (step AsciiText.lib) init sessionStart = some activeSystem ∧
      activeSystem.InSession activeWorker [] [] ∧
      ∃ t, execute (step AsciiText.lib) activeSystem (disableCustom.map SessionLabel.label) =
          some t ∧
        (t.toServer = [] ∧ t.toWorker = []) ∧
        ¬ ∃ v, t.worker = some v ∧
          v.engine.matcher = ProcessedCommand.table AsciiText.lib activeWorker.engine.matcher
            (processedCommands disableCustom) := by
  refine ⟨activeSystem_reached, activeSystem_inSession, _, rfl, ⟨rfl, rfl⟩, ?_⟩
  rintro ⟨v, hv, htable⟩
  obtain rfl := Option.some.inj hv
  revert htable
  decide +kernel

/-- The SDK enables the phrase, which is enabled already. -/
def enableCustom : List SessionLabel :=
  [.command (.enablePhrase "custom_core".toList), .deliver, .receive none]

/-- Neither table changes. -/
theorem worker_follows_enableCustom :
    ∃ t, execute (step AsciiText.lib) activeSystem (enableCustom.map SessionLabel.label) = some t ∧
      ∃ v, t.worker = some v ∧
        v.engine.matcher = ProcessedCommand.table AsciiText.lib activeWorker.engine.matcher
          (processedCommands enableCustom) := by
  have hrun : ∃ t, execute (step AsciiText.lib) activeSystem
      (enableCustom.map SessionLabel.label) = some t ∧ t.toServer = [] ∧ t.toWorker = [] :=
    ⟨_, rfl, rfl, rfl⟩
  obtain ⟨t, ht, hdone⟩ := hrun
  refine ⟨t, ht, ?_⟩
  refine (worker_follows_commands_iff AsciiText.lib activeSystem_inSession ht hdone).2.mpr ?_
  decide +kernel

end System

end Sdk
end AvaListener
