import AvaListener.Library.Runs
import AvaListener.Sdk.Lifecycle

/-!
# Profile switches

`loadProfile` calls of the SDK, the supervisor that passes them on and respawns the
worker, and the worker that loads profiles, joined by two first-in first-out
channels.  The current profile is written down in four places: what the SDK has
requested, the arguments the supervisor launches workers with, the path it answers
`effective_config` from, and the profile that is active in the worker.

The IPC channel is read by `recv_json`, which answers one frame for each `recv`: of
several frames in one chunk the worker sees the first, and a chunk without a whole
frame ends its receive loop.

The arguments are those after the module's name; the IPC address that
`_spawn_worker` adds is left out.
-/

namespace AvaListener
namespace Sdk

open Library Transport

/-- A path that the SDK passes as `--profile`, which it does when it is truthy. -/
abbrev ProfilePath := {path : Text // path ≠ []}

/-- What `WakeEngine.load_profile` makes of a path. -/
inductive LoadOutcome where
  /-- The loader raises. -/
  | rejected
  /-- The loader returns, then `PhraseConfig.from_dict` raises. -/
  | phrasesRejected
  | loaded
  deriving DecidableEq

/-! ## The worker -/

inductive WorkerStage where
  | starting
  /-- The startup profile is loaded. -/
  | running
  /-- The engine has signalled `ready`. -/
  | ready
  deriving DecidableEq

structure ProfileWorker where
  /-- `--profile`, as parsed by `main`. -/
  profile : Option Text
  /-- The IPC connection is there. -/
  connected : Bool
  /-- `_recv_loop` has not ended. -/
  receiving : Bool
  stage : WorkerStage
  /-- The path that `_active_profile` was read from. -/
  activeProfile : Option Text
  /-- The path that the registry's phrases were read from. -/
  phrasesOf : Option Text
  deriving DecidableEq

namespace ProfileWorker

variable (outcome : Text → LoadOutcome)

/-- `WakeEngine.load_profile`, an exception being logged. -/
def loadProfile (w : ProfileWorker) (path : Text) : ProfileWorker :=
  match outcome path with
  | .rejected => w
  | .phrasesRejected => { w with activeProfile := some path }
  | .loaded => { w with activeProfile := some path, phrasesOf := some path }

/-- `_on_ipc_receive`. -/
def onIpcReceive (w : ProfileWorker) (m : IpcMessage) : ProfileWorker :=
  if m.type = "CONFIGURE".toList ∧ m.payload.command = some "load_profile".toList then
    match m.payload.path with
    | none => w
    | some path => if path = [] then w else w.loadProfile outcome path
  else w

/-- The start of `run_worker`; `none` when the startup profile cannot be loaded and
the process ends. -/
def loadStartup (w : ProfileWorker) : Option ProfileWorker :=
  match w.profile with
  | none => some { w with stage := .running }
  | some path =>
      if path = [] then some { w with stage := .running }
      else if outcome path = .loaded then
        some { w.loadProfile outcome path with stage := .running }
      else none

/-- The active profile and the phrases are those of a path. -/
def Has (w : ProfileWorker) (profile : Option Text) : Prop :=
  w.activeProfile = profile ∧ w.phrasesOf = profile

end ProfileWorker

/-! ## The system -/

/-- The arguments of `worker_cmd`, built by the supervisor's `main`. -/
def workerArgs (profile : Option ProfilePath) (debug : Bool) : List Text :=
  (match profile with
    | some path => ["--profile".toList, path]
    | none => []) ++ (if debug then ["--debug".toList] else [])

/-- What the worker's argument parser finds for `--profile`. -/
def profileArg : List Text → Option Text
  | flag :: value :: rest =>
      if flag = "--profile".toList then some value else profileArg (value :: rest)
  | _ => none

structure ProfileSystem where
  sdk : Lifecycle
  /-- The argument of the last `loadProfile` that did not throw. -/
  requested : Option Text
  toServer : List Envelope
  workerArgs : List Text
  /-- `profile_path` of the supervisor. -/
  profilePath : Option Text
  toWorker : List IpcMessage
  worker : Option ProfileWorker
  deriving DecidableEq

inductive ProfileLabel where
  | loadProfile (path : Text)
  /-- The supervisor takes a message from its WebSocket. -/
  | deliver
  /-- `_spawn_worker`, for the first worker or in place of another. -/
  | spawnWorker
  /-- The worker's IPC connection is accepted. -/
  | connect
  /-- The worker loads its startup profile. -/
  | loadStartup
  | ready
  /-- A `recv` of the worker that returns the next message and `dropped` others, of
  which `recv_json` answers the first. -/
  | receive (dropped : ℕ)
  /-- A `recv` that returns parts of `lost` messages and no whole frame. -/
  | undecodable (lost : ℕ)
  | workerExits
  deriving DecidableEq

/-- A `recv` returns one frame. -/
def ProfileLabel.OneFrame : ProfileLabel → Prop
  | .receive dropped => dropped = 0
  | .undecodable _ => False
  | _ => True

instance : DecidablePred ProfileLabel.OneFrame
  | .receive dropped => inferInstanceAs (Decidable (dropped = 0))
  | .undecodable _ => inferInstanceAs (Decidable False)
  | .loadProfile _ | .deliver | .spawnWorker | .connect | .loadStartup | .ready | .workerExits =>
      inferInstanceAs (Decidable True)

namespace ProfileSystem

variable (outcome : Text → LoadOutcome)

/-- The SDK is connected, in some state, and no worker has been spawned yet. -/
def init (fsm : SdkState) (startup : Option ProfilePath) (debug : Bool) : ProfileSystem where
  sdk := ⟨fsm, true, none, false⟩
  requested := none
  toServer := []
  workerArgs := Sdk.workerArgs startup debug
  profilePath := startup.map Subtype.val
  toWorker := []
  worker := none

/-- `_ipc_server.send`: without a connection the message is lost. -/
def sendIpc (s : ProfileSystem) (m : IpcMessage) : ProfileSystem :=
  match s.worker with
  | none => s
  | some w => if w.connected then { s with toWorker := s.toWorker ++ [m] } else s

/-- The worker is gone, and with it what was under way to it. -/
def withoutWorker (s : ProfileSystem) : ProfileSystem := { s with toWorker := [], worker := none }

/-- What the supervisor does with an envelope. -/
def dispatch (s : ProfileSystem) (e : Envelope) : ProfileSystem :=
  match validateMessage e with
  | none => s
  | some e =>
      match onWsReceive e with
      | .reply => s
      | .crashWorker => s.withoutWorker
      | .shutdown => s.withoutWorker
      | .forward m => s.sendIpc m

def step (s : ProfileSystem) : ProfileLabel → Option ProfileSystem
  | .loadProfile path =>
      match s.sdk.step (.loadProfile path) with
      | none => some s
      | some (sdk, sent) =>
          some { s with sdk := sdk, requested := some path, toServer := s.toServer ++ sent }
  | .deliver =>
      match s.toServer with
      | [] => none
      | e :: rest => some ({ s with toServer := rest }.dispatch e)
  | .spawnWorker =>
      some { s with
        toWorker := []
        worker := some ⟨profileArg s.workerArgs, false, true, .starting, none, none⟩ }
  | .connect =>
      match s.worker with
      | none => none
      | some w =>
          if w.stage = .starting then some { s with worker := some { w with connected := true } }
          else none
  | .loadStartup =>
      match s.worker with
      | none => none
      | some w =>
          if w.stage = .starting then
            match w.loadStartup outcome with
            | none => some s.withoutWorker
            | some w => some { s with worker := some w }
          else none
  | .ready =>
      match s.worker with
      | none => none
      | some w =>
          if w.stage = .running then some { s with worker := some { w with stage := .ready } }
          else none
  | .receive dropped =>
      match s.worker, s.toWorker with
      | some w, m :: rest =>
          if w.connected ∧ w.stage ≠ .starting ∧ w.receiving then
            some { s with
              toWorker := rest.drop dropped
              worker := some (w.onIpcReceive outcome m) }
          else none
      | _, _ => none
  | .undecodable lost =>
      match s.worker with
      | none => none
      | some w =>
          if w.connected ∧ w.stage ≠ .starting ∧ w.receiving then
            some { s with
              toWorker := s.toWorker.drop lost
              worker := some { w with receiving := false } }
          else none
  | .workerExits => s.worker.map fun _ => s.withoutWorker

/-- The last path requested, or the startup profile if none was. -/
def current (startup : Option ProfilePath) (s : ProfileSystem) : Option Text :=
  s.requested.or (startup.map Subtype.val)

/-- The worker is ready and no `configure` message is under way. -/
def Settled (s : ProfileSystem) (w : ProfileWorker) : Prop :=
  s.worker = some w ∧ w.stage = .ready ∧ s.toServer = [] ∧ s.toWorker = []

/-- In a settled state the worker has the current profile, a new worker would be
launched with it, and `effective_config` is answered from it. -/
def Agreement (startup : Option ProfilePath) (s : ProfileSystem) : Prop :=
  ∀ w, s.Settled w → w.Has (s.current startup) ∧
    profileArg s.workerArgs = s.current startup ∧ s.profilePath = s.current startup

/-- A settled state has the startup profile as its current one. -/
def SettlesOnStartup (startup : Option ProfilePath) (s : ProfileSystem) : Prop :=
  ∀ w, s.Settled w → s.current startup = startup.map Subtype.val

instance (startup : Option ProfilePath) : DecidablePred (SettlesOnStartup startup) := fun s =>
  decidable_of_iff
    (∀ w ∈ s.worker, w.stage = .ready ∧ s.toServer = [] ∧ s.toWorker = [] →
      s.current startup = startup.map Subtype.val)
    (by simp only [SettlesOnStartup, Settled, Option.mem_def, and_imp])

/-! ## What is under way -/

/-- The envelope of a `loadProfile` call. -/
def loadEnvelope (path : Text) : Envelope :=
  Lifecycle.configure ⟨some "load_profile".toList, some path, none⟩

/-- What the supervisor makes of it. -/
def loadMessage (path : Text) : IpcMessage :=
  ⟨"CONFIGURE".toList, ⟨some "load_profile".toList, some path, none⟩⟩

theorem dispatch_loadEnvelope (s : ProfileSystem) (path : Text) :
    s.dispatch (loadEnvelope path) = s.sendIpc (loadMessage path) := by
  obtain ⟨hvalid, hforward⟩ :=
    onWsReceive_configure ⟨some "load_profile".toList, some path, none⟩
  have hvalid' : validateMessage (loadEnvelope path) = some (loadEnvelope path) := hvalid
  have hforward' : onWsReceive (loadEnvelope path) = .forward (loadMessage path) := hforward
  rw [dispatch, hvalid']
  simp only [hforward']

theorem onIpcReceive_loadMessage (w : ProfileWorker) (path : Text) :
    w.onIpcReceive outcome (loadMessage path) =
      if path = [] then w else w.loadProfile outcome path := by
  rw [ProfileWorker.onIpcReceive, if_pos ⟨rfl, rfl⟩]
  rfl

theorem profileArg_workerArgs (startup : Option ProfilePath) (debug : Bool) :
    profileArg (Sdk.workerArgs startup debug) = startup.map Subtype.val := by
  cases startup with
  | none =>
      cases debug with
      | false => rfl
      | true => rfl
  | some path =>
      show (if _ = _ then some path.val else _) = some path.val
      rw [if_pos rfl]

/-- Loading a profile touches neither the stage nor the connection. -/
theorem loadProfile_frame (w : ProfileWorker) (path : Text) :
    (w.loadProfile outcome path).stage = w.stage ∧
      (w.loadProfile outcome path).connected = w.connected ∧
      (w.loadProfile outcome path).profile = w.profile := by
  unfold ProfileWorker.loadProfile
  split
  · exact ⟨rfl, rfl, rfl⟩
  · exact ⟨rfl, rfl, rfl⟩
  · exact ⟨rfl, rfl, rfl⟩

theorem has_of_loaded {w : ProfileWorker} {path : Text} (h : outcome path = .loaded) :
    (w.loadProfile outcome path).Has (some path) := by
  rw [ProfileWorker.loadProfile, h]
  exact ⟨rfl, rfl⟩

/-! ## The invariant -/

/-- What holds of the worker in every reachable state. -/
structure WorkerConsistent (startup : Option ProfilePath) (s : ProfileSystem)
    (w : ProfileWorker) : Prop where
  profile : w.profile = startup.map Subtype.val
  /-- A worker runs only after its startup profile has been loaded. -/
  loaded : w.stage ≠ .starting → ∀ path, startup = some path → outcome path.val = .loaded
  fresh : w.stage = .starting → w.activeProfile = none ∧ w.phrasesOf = none
  unconnected : w.connected = false → s.toWorker = [] ∧
    (w.stage ≠ .starting → w.Has (startup.map Subtype.val))
  /-- Nothing under way and the startup profile asked for: it is the active one. -/
  settled : w.stage ≠ .starting → s.toServer = [] → s.toWorker = [] →
    s.current startup = startup.map Subtype.val → w.Has (startup.map Subtype.val)

structure Consistent (startup : Option ProfilePath) (s : ProfileSystem) : Prop where
  connected : s.sdk.isConnected = true
  args : profileArg s.workerArgs = startup.map Subtype.val
  path : s.profilePath = startup.map Subtype.val
  /-- Only profile switches are under way, and the last of them is the last path
  requested. -/
  queues : ∃ toServer toWorker : List Text, s.toServer = toServer.map loadEnvelope ∧
    s.toWorker = toWorker.map loadMessage ∧
    ∀ path, (toWorker ++ toServer).getLast? = some path → s.requested = some path
  gone : s.worker = none → s.toWorker = []
  worker : ∀ w, s.worker = some w → WorkerConsistent outcome startup s w

theorem consistent_init (fsm : SdkState) (startup : Option ProfilePath) (debug : Bool) :
    Consistent outcome startup (init fsm startup debug) where
  connected := rfl
  args := profileArg_workerArgs startup debug
  path := rfl
  queues := ⟨[], [], rfl, rfl, nofun⟩
  gone _ := rfl
  worker w hw := by cases hw

/-- In a consistent state the four places agree exactly when the startup profile is
the current one. -/
theorem agreement_iff_settlesOnStartup {startup : Option ProfilePath} {s : ProfileSystem}
    (hs : Consistent outcome startup s) : s.Agreement startup ↔ s.SettlesOnStartup startup := by
  constructor
  · intro hagree w hw
    obtain ⟨-, -, hpath⟩ := hagree w hw
    rw [← hpath, hs.path]
  · intro hsettles w hw
    have hcurrent := hsettles w hw
    obtain ⟨hworker, hready, hserver, hqueue⟩ := hw
    have hstage : w.stage ≠ .starting := by
      rw [hready]
      nofun
    refine ⟨?_, hs.args.trans hcurrent.symm, hs.path.trans hcurrent.symm⟩
    rw [hcurrent]
    exact (hs.worker w hworker).settled hstage hserver hqueue hcurrent

/-! ## One step -/

section Steps

variable {startup : Option ProfilePath} {s t : ProfileSystem}

/-- A request puts its path at the end of what is under way. -/
theorem consistent_loadProfile {path : Text} (hs : Consistent outcome startup s)
    (h : s.step outcome (.loadProfile path) = some t) : Consistent outcome startup t := by
  simp only [step] at h
  split at h
  · obtain rfl := Option.some.inj h
    exact hs
  next sdk sent hstep =>
    obtain rfl := Option.some.inj h
    have hsent : sdk = s.sdk ∧ sent = [loadEnvelope path] := by
      simp only [Lifecycle.step] at hstep
      split at hstep
      · obtain ⟨hsdk, hsent⟩ := Prod.mk.inj (Option.some.inj hstep)
        rw [Lifecycle.sendConfigure, if_pos hs.connected] at hsent
        exact ⟨hsdk.symm, hsent.symm⟩
      · cases hstep
    obtain ⟨rfl, rfl⟩ := hsent
    obtain ⟨toServer, toWorker, hserver, hworker, -⟩ := hs.queues
    refine ⟨hs.connected, hs.args, hs.path, ?_, hs.gone, ?_⟩
    · refine ⟨toServer ++ [path], toWorker, ?_, hworker, ?_⟩
      · rw [List.map_append, ← hserver]
        rfl
      · intro last hlast
        rw [← List.append_assoc, List.getLast?_append_cons] at hlast
        exact congrArg some (Option.some.inj hlast)
    · intro w hw
      have hold := hs.worker w hw
      refine ⟨hold.profile, hold.loaded, hold.fresh, hold.unconnected, ?_⟩
      intro _ hempty
      exact absurd hempty (List.append_ne_nil_of_right_ne_nil _ nofun)

/-- Where the last of several paths stays the last one when the first goes. -/
theorem getLast?_of_tail {path last : Text} {paths : List Text}
    (h : paths.getLast? = some last) : (path :: paths).getLast? = some last := by
  cases paths with
  | nil => cases h
  | cons next rest => exact h

/-- A message that reaches the supervisor goes on to a connected worker and is lost
otherwise, in which case the worker never got any. -/
theorem consistent_deliver (hs : Consistent outcome startup s)
    (h : s.step outcome .deliver = some t) : Consistent outcome startup t := by
  obtain ⟨toServer, toWorker, hserver, hqueue, hlast⟩ := hs.queues
  cases toServer with
  | nil =>
      rw [List.map_nil] at hserver
      simp only [step, hserver] at h
      cases h
  | cons path rest =>
      rw [List.map_cons] at hserver
      simp only [step, hserver, dispatch_loadEnvelope] at h
      obtain rfl := Option.some.inj h
      -- Without a worker to take it the message is lost.
      have hlost (hempty : s.toWorker = [])
          (hhas : ∀ w, s.worker = some w → w.stage ≠ .starting →
            w.Has (startup.map Subtype.val)) :
          Consistent outcome startup { s with toServer := rest.map loadEnvelope } := by
        refine ⟨hs.connected, hs.args, hs.path, ⟨rest, [], rfl, hempty, ?_⟩, hs.gone, ?_⟩
        · intro last htail
          have hnone : toWorker = [] := List.map_eq_nil_iff.mp (hqueue.symm.trans hempty)
          apply hlast last
          rw [hnone]
          exact getLast?_of_tail htail
        · intro w hw
          have hold := hs.worker w hw
          exact ⟨hold.profile, hold.loaded, hold.fresh, hold.unconnected,
            fun hstage _ _ _ => hhas w hw hstage⟩
      unfold sendIpc
      simp only
      split
      next hgone => exact hlost (hs.gone hgone) fun w hw => by rw [hgone] at hw; cases hw
      next w hworker =>
        split
        next hconnected =>
          refine ⟨hs.connected, hs.args, hs.path, ⟨rest, toWorker ++ [path], rfl, ?_, ?_⟩, ?_, ?_⟩
          · rw [List.map_append, ← hqueue]
            rfl
          · intro last hend
            rw [List.append_assoc] at hend
            exact hlast last hend
          · intro hgone
            have hnone : s.worker = none := hgone
            rw [hworker] at hnone
            cases hnone
          · intro v hv
            obtain rfl : w = v := Option.some.inj (hworker.symm.trans hv)
            have hold := hs.worker w hworker
            refine ⟨hold.profile, hold.loaded, hold.fresh, ?_, ?_⟩
            · intro hunconnected
              rw [hconnected] at hunconnected
              cases hunconnected
            · intro _ _ hempty
              exact absurd hempty (List.append_ne_nil_of_right_ne_nil _ nofun)
        next hunconnected =>
          have hfalse : w.connected = false := eq_false_of_ne_true hunconnected
          obtain ⟨hempty, hhas⟩ := (hs.worker w hworker).unconnected hfalse
          apply hlost hempty
          intro v hv
          obtain rfl : w = v := Option.some.inj (hworker.symm.trans hv)
          exact hhas

/-- A worker that takes the last message under way has the last path requested, if
that one can be loaded. -/
theorem consistent_receive (hs : Consistent outcome startup s)
    (h : s.step outcome (.receive 0) = some t) : Consistent outcome startup t := by
  obtain ⟨toServer, toWorker, hserver, hqueue, hlast⟩ := hs.queues
  simp only [step, List.drop_zero] at h
  split at h
  next w m rest hworker hcons =>
    split at h
    next henabled =>
      obtain rfl := Option.some.inj h
      have hold := hs.worker w hworker
      cases toWorker with
      | nil =>
          rw [hcons] at hqueue
          cases hqueue
      | cons path tail =>
          rw [hcons, List.map_cons] at hqueue
          obtain ⟨rfl, rfl⟩ := List.cons.inj hqueue
          rw [onIpcReceive_loadMessage]
          have hframe : ∀ v, v = (if path = [] then w else w.loadProfile outcome path) →
              v.stage = w.stage ∧ v.connected = w.connected ∧ v.profile = w.profile := by
            rintro v rfl
            split
            · exact ⟨rfl, rfl, rfl⟩
            · exact loadProfile_frame outcome w path
          refine ⟨hs.connected, hs.args, hs.path, ⟨toServer, tail, hserver, rfl, ?_⟩, nofun, ?_⟩
          · intro last hend
            exact hlast last (getLast?_of_tail hend)
          · intro v hv
            obtain ⟨hstage, hconnected, hprofile⟩ := hframe v (Option.some.inj hv).symm
            refine ⟨hprofile.trans hold.profile, ?_, ?_, ?_, ?_⟩
            · intro _
              exact hold.loaded henabled.2.1
            · intro hstarting
              exact absurd (hstage.symm.trans hstarting) henabled.2.1
            · intro hunconnected
              rw [hconnected, henabled.1] at hunconnected
              cases hunconnected
            · intro _ hnoServer hnoWorker hcurrent
              have hnil : toServer = [] := List.map_eq_nil_iff.mp (hserver.symm.trans hnoServer)
              have htail : tail = [] := List.map_eq_nil_iff.mp hnoWorker
              have hrequested : s.requested = some path := by
                apply hlast path
                rw [hnil, htail]
                rfl
              have hstartup : startup.map Subtype.val = some path := by
                rw [← hcurrent]
                show s.requested.or _ = some path
                rw [hrequested, Option.some_or]
              obtain ⟨p, hp, rfl⟩ := Option.map_eq_some_iff.mp hstartup
              obtain rfl := Option.some.inj hv
              rw [if_neg p.property, hstartup]
              exact has_of_loaded outcome (hold.loaded henabled.2.1 p hp)
    · cases h
  · cases h

/-- Without a worker nothing is under way to it. -/
theorem consistent_withoutWorker (hs : Consistent outcome startup s) :
    Consistent outcome startup s.withoutWorker := by
  obtain ⟨toServer, toWorker, hserver, -, hlast⟩ := hs.queues
  refine ⟨hs.connected, hs.args, hs.path, ⟨toServer, [], hserver, rfl, ?_⟩, fun _ => rfl, nofun⟩
  intro last hend
  cases toServer with
  | nil => cases hend
  | cons path rest =>
      apply hlast last
      rw [List.getLast?_append_cons]
      exact hend

/-- A worker in place of another, with the queue to it as it is. -/
theorem consistent_setWorker {w : ProfileWorker} (hs : Consistent outcome startup s)
    (hw : WorkerConsistent outcome startup s w) :
    Consistent outcome startup { s with worker := some w } where
  connected := hs.connected
  args := hs.args
  path := hs.path
  queues := hs.queues
  gone := nofun
  worker v hv := by
    obtain rfl := Option.some.inj hv
    exact ⟨hw.profile, hw.loaded, hw.fresh, hw.unconnected, hw.settled⟩

/-- `run_worker` goes on only with its startup profile loaded. -/
theorem loadStartup_eq_some {w v : ProfileWorker} (hprofile : w.profile = startup.map Subtype.val)
    (hfresh : w.activeProfile = none ∧ w.phrasesOf = none)
    (h : w.loadStartup outcome = some v) :
    v.Has (startup.map Subtype.val) ∧ v.profile = w.profile ∧ v.connected = w.connected ∧
      v.stage = .running ∧ ∀ path, startup = some path → outcome path.val = .loaded := by
  cases startup with
  | none =>
      simp only [ProfileWorker.loadStartup, hprofile, Option.map_none] at h
      obtain rfl := Option.some.inj h
      exact ⟨hfresh, hprofile.symm, rfl, rfl, nofun⟩
  | some path =>
      simp only [ProfileWorker.loadStartup, hprofile, Option.map_some] at h
      rw [if_neg path.property] at h
      split at h
      next hloaded =>
        obtain rfl := Option.some.inj h
        obtain ⟨-, hconnected, hkept⟩ := loadProfile_frame outcome w path
        refine ⟨has_of_loaded outcome hloaded, hkept, hconnected, rfl, ?_⟩
        rintro p hp
        obtain rfl := Option.some.inj hp
        exact hloaded
      · cases h

/-- A worker that has just loaded its startup profile has that one. -/
theorem consistent_loadStartup (hs : Consistent outcome startup s)
    (h : s.step outcome .loadStartup = some t) : Consistent outcome startup t := by
  simp only [step] at h
  split at h
  · cases h
  next w hworker =>
    have hold := hs.worker w hworker
    split at h
    next hstarting =>
      split at h
      · obtain rfl := Option.some.inj h
        exact consistent_withoutWorker outcome hs
      next v hload =>
        obtain rfl := Option.some.inj h
        obtain ⟨hhas, hprofile, hconnected, hrunning, hloaded⟩ :=
          loadStartup_eq_some outcome hold.profile (hold.fresh hstarting) hload
        apply consistent_setWorker outcome hs
        refine ⟨hprofile.trans hold.profile, fun _ => hloaded, ?_, ?_, fun _ _ _ _ => hhas⟩
        · intro hagain
          rw [hrunning] at hagain
          cases hagain
        · intro hunconnected
          exact ⟨(hold.unconnected (hconnected.symm.trans hunconnected)).1, fun _ => hhas⟩
    · cases h

/-- Every step that loses no frame keeps the four places consistent. -/
theorem consistent_step {l : ProfileLabel} (hs : Consistent outcome startup s)
    (hframe : l.OneFrame) (h : s.step outcome l = some t) : Consistent outcome startup t := by
  cases l with
  | loadProfile path => exact consistent_loadProfile outcome hs h
  | deliver => exact consistent_deliver outcome hs h
  | receive dropped =>
      obtain rfl : dropped = 0 := hframe
      exact consistent_receive outcome hs h
  | undecodable lost => exact hframe.elim
  | loadStartup => exact consistent_loadStartup outcome hs h
  | spawnWorker =>
      obtain rfl := Option.some.inj h
      have hgone := consistent_withoutWorker outcome hs
      apply consistent_setWorker outcome hgone
      exact ⟨hs.args, fun hstarting => absurd rfl hstarting, fun _ => ⟨rfl, rfl⟩,
        fun _ => ⟨rfl, fun hstarting => absurd rfl hstarting⟩,
        fun hstarting => absurd rfl hstarting⟩
  | connect =>
      simp only [step] at h
      split at h
      · cases h
      next w hworker =>
        have hold := hs.worker w hworker
        split at h
        next hstarting =>
          obtain rfl := Option.some.inj h
          apply consistent_setWorker outcome hs
          exact ⟨hold.profile, hold.loaded, hold.fresh, nofun, hold.settled⟩
        · cases h
  | ready =>
      simp only [step] at h
      split at h
      · cases h
      next w hworker =>
        have hold := hs.worker w hworker
        split at h
        next hrunning =>
          obtain rfl := Option.some.inj h
          have hstage : w.stage ≠ .starting := by
            rw [hrunning]
            nofun
          apply consistent_setWorker outcome hs
          exact ⟨hold.profile, fun _ => hold.loaded hstage, nofun,
            fun hunconnected => ⟨(hold.unconnected hunconnected).1,
              fun _ => (hold.unconnected hunconnected).2 hstage⟩,
            fun _ => hold.settled hstage⟩
        · cases h
  | workerExits =>
      obtain ⟨w, -, rfl⟩ := Option.map_eq_some_iff.mp h
      exact consistent_withoutWorker outcome hs

end Steps

/-- **Exactly when the current profile is the same everywhere**: in a run in which
every `recv` of the worker returns one frame, if and only if the worker never becomes
ready with nothing under way while the last path requested is another one than the
startup profile.  The supervisor never learns of a switch. -/
theorem agreement_iff (fsm : SdkState) (startup : Option ProfilePath) (debug : Bool)
    (labels : List ProfileLabel) (hframes : ∀ l ∈ labels, l.OneFrame) :
    Always (step outcome) (Agreement startup) (init fsm startup debug) labels ↔
      Always (step outcome) (SettlesOnStartup startup) (init fsm startup debug) labels := by
  apply always_congr (step outcome) (Consistent outcome startup)
    (consistent_init outcome fsm startup debug)
  · intro a l b ha hl hstep
    exact consistent_step outcome ha (hframes l hl) hstep
  · intro a ha
    exact agreement_iff_settlesOnStartup outcome ha

/-- A profile of the repository. -/
def baseProfile : ProfilePath := ⟨"profiles/base.json".toList, nofun⟩

/-- The SDK switches to another profile and back.  The worker has taken the first request
when it exits, the next one takes the second. -/
def switchedBack : List ProfileLabel :=
  [.spawnWorker, .connect, .loadStartup, .ready, .loadProfile "profiles/custom.json".toList,
    .loadProfile baseProfile, .deliver, .receive 0, .workerExits, .spawnWorker, .connect, .deliver,
    .loadStartup, .ready, .receive 0]

theorem switchedBack_agrees :
    Always (step fun _ => .loaded) (Agreement (some baseProfile))
      (init .running (some baseProfile) false) switchedBack :=
  (agreement_iff (fun _ => .loaded) .running (some baseProfile) false switchedBack
    (by decide)).mpr (by decide +kernel)

/-! ## One switch -/

/-- The worker starts, and the SDK switches to another profile. -/
def oneSwitch : List ProfileLabel :=
  [.spawnWorker, .connect, .loadStartup, .ready, .loadProfile "profiles/custom.json".toList,
    .deliver, .receive 0]

/-- The worker has the new profile; the supervisor would launch the next worker with the
old one and reports the old one. -/
theorem oneSwitch_disagrees :
    ((execute (step fun _ => .loaded) (init .running (some baseProfile) false) oneSwitch).map
        fun s => (s.worker.bind ProfileWorker.activeProfile, profileArg s.workerArgs,
          s.profilePath)) =
      some (some "profiles/custom.json".toList, some "profiles/base.json".toList,
        some "profiles/base.json".toList) ∧
      ¬ Always (step fun _ => .loaded) (Agreement (some baseProfile))
        (init .running (some baseProfile) false) oneSwitch := by
  refine ⟨by decide +kernel, ?_⟩
  intro halways
  have hrun : ((execute (step fun _ => .loaded) (init .running (some baseProfile) false)
      oneSwitch).map fun s => (s.worker.map ProfileWorker.stage, s.toServer, s.toWorker)) =
      some (some .ready, [], []) := by decide +kernel
  obtain ⟨u, hu, hparts⟩ := Option.map_eq_some_iff.mp hrun
  simp only [Prod.mk.injEq] at hparts
  obtain ⟨hworker, hserver, hqueue⟩ := hparts
  obtain ⟨w, hw, hready⟩ := Option.map_eq_some_iff.mp hworker
  obtain ⟨-, -, hreported⟩ := always_final _ halways hu w ⟨hw, hready, hserver, hqueue⟩
  have hpaths : ((execute (step fun _ => .loaded) (init .running (some baseProfile) false)
      oneSwitch).map fun s => decide (s.profilePath = s.current (some baseProfile))) =
      some false := by decide +kernel
  rw [hu, Option.map_some, decide_eq_true hreported] at hpaths
  cases hpaths

end ProfileSystem

end Sdk
end AvaListener
