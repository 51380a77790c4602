import AvaListener.Library.Simulation
import AvaListener.Sdk.Requests
import Mathlib.Logic.Function.Basic

/-!
# The WebSocket clients

`AVAListenerClient` of `sdk/client.js`, any number of them on one supervisor: their
`getEffectiveConfig` and `validateProfile`, the supervisor's broadcast answers and the timers
of five seconds.

Both requests wait for the id of their envelope, which is the one that the supervisor echoes,
so unlike the `validateProfile` of `Sdk/Requests.lean` each gets its answer, and nobody else's
(`accepts_broadcast_iff`).  A client that is not connected drops what it sends.  An answer may
reach the clients in any order, and a client may lose it.
-/

namespace AvaListener
namespace Sdk

open Library Transport

variable {ρ : Type}

/-! ## Requests -/

inductive ClientRequestKind where
  | effectiveConfig
  | validateProfile (path : Text)
  deriving DecidableEq

structure ClientRequest where
  client : ℕ
  kind : ClientRequestKind
  correlationId : Text
  deriving DecidableEq

namespace ClientRequest

/-- The envelope that `send` makes.  The payload has no id of its own, and none is read. -/
def message (r : ClientRequest) : RequestMsg :=
  match r.kind with
  | .effectiveConfig =>
      ⟨"diagnostics_request".toList, r.correlationId, none, some "effective_config".toList, []⟩
  | .validateProfile path => ⟨"validate_profile".toList, r.correlationId, some path, none, []⟩

/-- The event that the request listens for. -/
def listensFor (r : ClientRequest) : Text :=
  match r.kind with
  | .effectiveConfig => diagnosticsResponseType
  | .validateProfile _ => validateProfileResponseType

/-- The condition of `onResponse`. -/
def accepts (r : ClientRequest) (m : ResponseMsg ρ) : Bool :=
  m.type = r.listensFor ∧ m.payload.correlationId = r.correlationId

/-- The supervisor's answer is one that the request waits for. -/
theorem accepts_respond {r : ClientRequest} {result : Option ρ}
    {obj : MessageObj (ResponsePayload ρ)} (h : respond r.message result = some obj)
    (now : ℚ) (uuid : Text) :
    (outMsg obj now uuid).type = r.listensFor ∧
      (outMsg obj now uuid).payload.correlationId = r.correlationId := by
  obtain ⟨client, kind, correlationId⟩ := r
  cases kind with
  | effectiveConfig =>
      have hmap : result.map (responseObj diagnosticsResponseType
          (message ⟨client, .effectiveConfig, correlationId⟩)) = some obj := h
      obtain ⟨value, -, rfl⟩ := Option.map_eq_some_iff.mp hmap
      exact ⟨rfl, rfl⟩
  | validateProfile path =>
      have hmap : result.map (responseObj validateProfileResponseType
          (message ⟨client, .validateProfile path, correlationId⟩)) = some obj := h
      obtain ⟨value, -, rfl⟩ := Option.map_eq_some_iff.mp hmap
      exact ⟨rfl, rfl⟩

end ClientRequest

/-! ## Sessions -/

/-- What settles a promise. -/
inductive Settlement (ρ : Type) where
  | resolved (result : ρ)
  | timedOut
  deriving DecidableEq

structure ClientCall (ρ : Type) where
  request : ClientRequest
  /-- How the promise is settled, if it is. -/
  promise : Option (Settlement ρ)
  deriving DecidableEq

/-- `onResponse`.  A promise that has timed out is not settled again. -/
def ClientCall.onMessage (call : ClientCall ρ) (client : ℕ) (m : ResponseMsg ρ) : ClientCall ρ :=
  if call.request.client = client ∧ call.request.accepts m = true then
    { call with promise := call.promise.or (some (.resolved m.payload.result)) }
  else call

structure ClientSessions (ρ : Type) where
  isConnected : ℕ → Bool
  calls : List (ClientCall ρ)
  toSupervisor : List ClientRequest
  /-- The answers, each with the request it was produced for. -/
  broadcasts : List (ClientRequest × ResponseMsg ρ)

inductive ClientLabel (ρ : Type) where
  | opened (client : ℕ)
  | closed (client : ℕ)
  | request (r : ClientRequest)
  /-- The supervisor handles a request; `result` is what the branch computes, `none` when that
  raises. -/
  | handle (i : ℕ) (result : Option ρ) (now : ℚ) (uuid : Text)
  /-- An answer arrives at a client. -/
  | arrive (client : ℕ) (i : ℕ)
  /-- The timer of a call. -/
  | timeout (i : ℕ)

namespace ClientSessions

def init : ClientSessions ρ := ⟨fun _ => false, [], [], []⟩

/-- The requests made so far. -/
def requests (s : ClientSessions ρ) : List ClientRequest := s.calls.map ClientCall.request

/-- `crypto.randomUUID` has not returned the id before. -/
def Fresh (s : ClientSessions ρ) (r : ClientRequest) : Prop :=
  ∀ other ∈ s.requests, r.correlationId ≠ other.correlationId

instance (s : ClientSessions ρ) (r : ClientRequest) : Decidable (s.Fresh r) :=
  inferInstanceAs (Decidable (∀ other ∈ s.requests, _))

def step (s : ClientSessions ρ) : ClientLabel ρ → Option (ClientSessions ρ)
  | .opened c => some { s with isConnected := Function.update s.isConnected c true }
  | .closed c => some { s with isConnected := Function.update s.isConnected c false }
  | .request r =>
      if s.Fresh r then
        some { s with
          calls := s.calls ++ [⟨r, none⟩]
          toSupervisor := if s.isConnected r.client then s.toSupervisor ++ [r] else s.toSupervisor }
      else none
  | .handle i result now uuid =>
      match s.toSupervisor[i]? with
      | none => none
      | some r =>
          match respond r.message result with
          | none => some { s with toSupervisor := s.toSupervisor.eraseIdx i }
          | some obj =>
              some { s with
                toSupervisor := s.toSupervisor.eraseIdx i
                broadcasts := s.broadcasts ++ [(r, outMsg obj now uuid)] }
  | .arrive c i =>
      match s.broadcasts[i]? with
      | none => none
      | some (_, m) =>
          if s.isConnected c then
            some { s with calls := s.calls.map fun call => call.onMessage c m }
          else none
  | .timeout i =>
      match s.calls[i]? with
      | none => none
      | some call =>
          -- An answer clears the timer.
          if call.promise = none then
            some { s with calls := s.calls.set i { call with promise := some .timedOut } }
          else none

/-! ## Who takes an answer -/

/-- The ids are distinct, and every answer is one to its request. -/
structure Tracked (s : ClientSessions ρ) : Prop where
  distinct : (s.requests.map ClientRequest.correlationId).Nodup
  queued : ∀ r ∈ s.toSupervisor, r ∈ s.requests
  answers : ∀ p ∈ s.broadcasts, p.1 ∈ s.requests ∧ p.2.type = p.1.listensFor ∧
    p.2.payload.correlationId = p.1.correlationId

theorem tracked_init : (init : ClientSessions ρ).Tracked := ⟨List.nodup_nil, nofun, nofun⟩

variable {s t : ClientSessions ρ}

/-- **Who takes an answer**: the request it was produced for. -/
theorem accepts_broadcast_iff (hs : s.Tracked) {r other : ClientRequest} {m : ResponseMsg ρ}
    (hm : (r, m) ∈ s.broadcasts) (hother : other ∈ s.requests) :
    other.accepts m = true ↔ other = r := by
  obtain ⟨hr, htype, hid⟩ := hs.answers _ hm
  unfold ClientRequest.accepts
  rw [decide_eq_true_eq]
  constructor
  · rintro ⟨-, haccepts⟩
    exact List.inj_on_of_nodup_map hs.distinct hother hr (haccepts.symm.trans hid)
  · rintro rfl
    exact ⟨htype, hid⟩

/-- A request is made once. -/
theorem Tracked.eq_of_request_eq (hs : s.Tracked) {i j : ℕ} {call other : ClientCall ρ}
    (hi : s.calls[i]? = some call) (hj : s.calls[j]? = some other)
    (h : call.request = other.request) : i = j := by
  have hnodup : s.requests.Nodup := hs.distinct.of_map _
  have hlt : i < s.requests.length := by
    unfold requests
    rw [List.length_map]
    exact (List.getElem?_eq_some_iff.mp hi).1
  refine (List.getElem?_inj hlt hnodup).mp ?_
  unfold requests
  rw [List.getElem?_map, List.getElem?_map, hi, hj]
  exact congrArg some h

theorem requests_onMessage (s : ClientSessions ρ) (c : ℕ) (m : ResponseMsg ρ) :
    (s.calls.map fun call => call.onMessage c m).map ClientCall.request = s.requests := by
  rw [List.map_map]
  refine List.map_congr_left fun call _ => ?_
  show (call.onMessage c m).request = call.request
  unfold ClientCall.onMessage
  split
  · rfl
  · rfl

theorem requests_set {i : ℕ} {call : ClientCall ρ} (hcall : s.calls[i]? = some call)
    (promise : Option (Settlement ρ)) :
    (s.calls.set i { call with promise := promise }).map ClientCall.request = s.requests := by
  obtain ⟨hlt, hget⟩ := List.getElem?_eq_some_iff.mp
    ((List.getElem?_map ..).trans (congrArg (Option.map ClientCall.request) hcall))
  have hsame : (s.calls.map ClientCall.request)[i] = call.request := hget
  rw [List.map_set]
  show (s.calls.map ClientCall.request).set i call.request = s.calls.map ClientCall.request
  rw [← hsame, List.set_getElem_self]

theorem tracked_request {r : ClientRequest} (hs : s.Tracked) (hfresh : s.Fresh r)
    (hcalls : t.calls = s.calls ++ [⟨r, none⟩])
    (hqueued : ∀ a ∈ t.toSupervisor, a ∈ s.toSupervisor ∨ a = r)
    (hbroadcasts : t.broadcasts = s.broadcasts) : t.Tracked := by
  have hrequests : t.requests = s.requests ++ [r] := by
    unfold requests
    rw [hcalls, List.map_append]
    rfl
  refine ⟨?_, ?_, ?_⟩
  · rw [hrequests, List.map_append, List.nodup_append]
    refine ⟨hs.distinct, List.nodup_singleton _, ?_⟩
    intro a ha b hb
    obtain ⟨other, hother, rfl⟩ := List.mem_map.mp ha
    rw [List.mem_singleton.mp hb]
    exact (hfresh other hother).symm
  · intro a ha
    rw [hrequests]
    rcases hqueued a ha with hold | rfl
    · exact List.mem_append_left _ (hs.queued a hold)
    · exact List.mem_append_right _ (List.mem_singleton_self a)
  · intro p hp
    rw [hbroadcasts] at hp
    obtain ⟨hmem, hanswer⟩ := hs.answers p hp
    rw [hrequests]
    exact ⟨List.mem_append_left _ hmem, hanswer⟩

/-- A step after which the same requests have been made. -/
theorem tracked_of_requests (hs : s.Tracked) (hrequests : t.requests = s.requests)
    (hqueued : ∀ r ∈ t.toSupervisor, r ∈ s.toSupervisor)
    (hanswers : ∀ p ∈ t.broadcasts, p.1 ∈ s.requests ∧ p.2.type = p.1.listensFor ∧
      p.2.payload.correlationId = p.1.correlationId) : t.Tracked := by
  refine ⟨?_, ?_, ?_⟩
  · rw [hrequests]
    exact hs.distinct
  · rw [hrequests]
    exact fun r hr => hs.queued r (hqueued r hr)
  · rw [hrequests]
    exact hanswers

theorem tracked_step {l : ClientLabel ρ} (hs : s.Tracked) (h : s.step l = some t) : t.Tracked := by
  cases l with
  | opened c =>
      obtain rfl := Option.some.inj h
      exact ⟨hs.distinct, hs.queued, hs.answers⟩
  | closed c =>
      obtain rfl := Option.some.inj h
      exact ⟨hs.distinct, hs.queued, hs.answers⟩
  | request r =>
      obtain ⟨hfresh, h⟩ := Option.ite_none_right_eq_some.mp h
      obtain rfl := Option.some.inj h
      refine tracked_request hs hfresh rfl ?_ rfl
      intro a ha
      have hmem : a ∈ if s.isConnected r.client then s.toSupervisor ++ [r] else s.toSupervisor := ha
      split at hmem
      · exact (List.mem_append.mp hmem).imp_right List.mem_singleton.mp
      · exact .inl hmem
  | handle i result now uuid =>
      simp only [step] at h
      split at h
      · cases h
      next r hr =>
        split at h
        · obtain rfl := Option.some.inj h
          exact tracked_of_requests hs rfl (fun _ hmem => List.mem_of_mem_eraseIdx hmem) hs.answers
        next obj hobj =>
          obtain rfl := Option.some.inj h
          refine tracked_of_requests hs rfl (fun _ hmem => List.mem_of_mem_eraseIdx hmem) ?_
          intro p hp
          rcases List.mem_append.mp hp with hold | hnew
          · exact hs.answers p hold
          · rw [List.mem_singleton.mp hnew]
            exact ⟨hs.queued r (List.mem_of_getElem? hr),
              ClientRequest.accepts_respond hobj now uuid⟩
  | arrive c i =>
      simp only [step] at h
      split at h
      · cases h
      next m hm =>
        obtain ⟨-, h⟩ := Option.ite_none_right_eq_some.mp h
        obtain rfl := Option.some.inj h
        exact tracked_of_requests hs (requests_onMessage s c m) (fun _ hmem => hmem) hs.answers
  | timeout i =>
      simp only [step] at h
      split at h
      · cases h
      next call hcall =>
        obtain ⟨-, h⟩ := Option.ite_none_right_eq_some.mp h
        obtain rfl := Option.some.inj h
        exact tracked_of_requests hs (requests_set hcall _) (fun _ hmem => hmem) hs.answers

/-! ## How promises are settled -/

/-- What the step is to the request: the arrival of its own answer at its own client, or the
end of its own timer. -/
def settlement (r : ClientRequest) (s : ClientSessions ρ) : ClientLabel ρ → Option (Settlement ρ)
  | .arrive c i =>
      match s.broadcasts[i]? with
      | none => none
      | some (other, m) =>
          if r.client = c ∧ r = other then some (.resolved m.payload.result) else none
  | .timeout i => if s.requests[i]? = some r then some .timedOut else none
  | _ => none

/-- Every call is settled as the steps so far say, `happened` of a request being what they
were to it. -/
structure Settles (s : ClientSessions ρ) (happened : ClientRequest → List (Settlement ρ)) :
    Prop where
  tracked : s.Tracked
  promises : ∀ call ∈ s.calls, call.promise = (happened call.request).head?
  /-- Nothing has happened to a request that has not been made. -/
  fresh : ∀ r, r ∉ s.requests → happened r = []

variable {happened : ClientRequest → List (Settlement ρ)}

/-- The answer that arrives is taken by its own call alone. -/
theorem promise_onMessage (hs : s.Settles happened) {c i : ℕ} {r : ClientRequest}
    {m : ResponseMsg ρ} (hm : s.broadcasts[i]? = some (r, m)) {call : ClientCall ρ}
    (hcall : call ∈ s.calls) :
    (call.onMessage c m).promise =
      (happened call.request ++ (settlement call.request s (.arrive c i)).toList).head? := by
  have hmem : call.request ∈ s.requests := List.mem_map_of_mem hcall
  have hiff := accepts_broadcast_iff hs.tracked (List.mem_of_getElem? hm) hmem
  have hsettlement : settlement call.request s (.arrive c i) =
      if call.request.client = c ∧ call.request = r then some (.resolved m.payload.result)
      else none := by
    simp only [settlement, hm]
  rw [hsettlement, List.head?_append, ← hs.promises call hcall]
  simp only [ClientCall.onMessage, hiff]
  split
  · rfl
  · exact (Option.or_none).symm

/-- Nothing can happen to a request before it is made. -/
theorem settlement_eq_none (hs : s.Tracked) {r : ClientRequest} (hr : r ∉ s.requests)
    (l : ClientLabel ρ) : settlement r s l = none := by
  cases l with
  | arrive c i =>
      simp only [settlement]
      split
      · rfl
      next other m hm =>
        refine if_neg ?_
        rintro ⟨-, rfl⟩
        exact hr (hs.answers _ (List.mem_of_getElem? hm)).1
  | timeout i => exact if_neg fun hget => hr (List.mem_of_getElem? hget)
  | _ => rfl

/-- A step that settles no promise. -/
theorem settles_of_calls {l : ClientLabel ρ} (hs : s.Settles happened) (ht : t.Tracked)
    (hcalls : t.calls = s.calls) (hsilent : ∀ r, settlement r s l = none) :
    t.Settles fun r => happened r ++ (settlement r s l).toList := by
  have hrequests : t.requests = s.requests := congrArg (List.map ClientCall.request) hcalls
  refine ⟨ht, ?_, ?_⟩
  · intro call hcall
    rw [hcalls] at hcall
    rw [hsilent, Option.toList_none, List.append_nil]
    exact hs.promises call hcall
  · intro r hr
    rw [hrequests] at hr
    rw [hsilent, Option.toList_none, List.append_nil]
    exact hs.fresh r hr

theorem settles_request {r : ClientRequest} (hs : s.Settles happened)
    (h : s.step (.request r) = some t) :
    t.Settles fun r' => happened r' ++ (settlement r' s (.request r)).toList := by
  have htracked := tracked_step hs.tracked h
  obtain ⟨hfresh, h⟩ := Option.ite_none_right_eq_some.mp h
  obtain rfl := Option.some.inj h
  have hr : r ∉ s.requests := fun hmem => hfresh r hmem rfl
  refine ⟨htracked, ?_, ?_⟩
  · intro call hcall
    rw [show settlement call.request s (.request r) = none from rfl, Option.toList_none,
      List.append_nil]
    rcases List.mem_append.mp hcall with hold | hnew
    · exact hs.promises call hold
    · rw [List.mem_singleton.mp hnew, hs.fresh r hr]
      rfl
  · intro r' hr'
    rw [show settlement r' s (.request r) = none from rfl, Option.toList_none, List.append_nil]
    refine hs.fresh r' fun hold => hr' ?_
    obtain ⟨call, hcall, rfl⟩ := List.mem_map.mp hold
    exact List.mem_map_of_mem (List.mem_append_left _ hcall)

theorem settles_arrive {c i : ℕ} (hs : s.Settles happened) (h : s.step (.arrive c i) = some t) :
    t.Settles fun r => happened r ++ (settlement r s (.arrive c i)).toList := by
  have htracked := tracked_step hs.tracked h
  simp only [step] at h
  split at h
  · cases h
  next r m hm =>
    obtain ⟨-, h⟩ := Option.ite_none_right_eq_some.mp h
    obtain rfl := Option.some.inj h
    refine ⟨htracked, ?_, ?_⟩
    · intro call hcall
      obtain ⟨before, hbefore, rfl⟩ := List.mem_map.mp hcall
      have hrequest : (before.onMessage c m).request = before.request := by
        unfold ClientCall.onMessage
        split
        · rfl
        · rfl
      rw [hrequest]
      exact promise_onMessage hs hm hbefore
    · intro r' hr'
      have hold : r' ∉ s.requests := by rwa [← requests_onMessage s c m]
      rw [settlement_eq_none hs.tracked hold, hs.fresh r' hold]
      rfl

theorem settles_timeout {i : ℕ} (hs : s.Settles happened) (h : s.step (.timeout i) = some t) :
    t.Settles fun r => happened r ++ (settlement r s (.timeout i)).toList := by
  have htracked := tracked_step hs.tracked h
  simp only [step] at h
  split at h
  · cases h
  next call hcall =>
    obtain ⟨hpending, h⟩ := Option.ite_none_right_eq_some.mp h
    obtain rfl := Option.some.inj h
    have hrequest : s.requests[i]? = some call.request := by
      unfold requests
      rw [List.getElem?_map, hcall]
      rfl
    have hsettlement (r : ClientRequest) : settlement r s (.timeout i) =
        if call.request = r then some .timedOut else none := by
      simp only [settlement, hrequest, Option.some.injEq]
    refine ⟨htracked, ?_, ?_⟩
    · intro other hother
      rw [hsettlement, List.head?_append]
      obtain ⟨j, hj⟩ := List.mem_iff_getElem?.mp hother
      by_cases hij : i = j
      · subst hij
        rw [List.getElem?_set_self (List.getElem?_eq_some_iff.mp hcall).1] at hj
        obtain rfl := Option.some.inj hj
        rw [← hs.promises call (List.mem_of_getElem? hcall), hpending, if_pos rfl]
        rfl
      · rw [List.getElem?_set_ne hij] at hj
        have hother : call.request ≠ other.request := fun hsame =>
          hij (hs.tracked.eq_of_request_eq hcall hj hsame)
        rw [if_neg hother, ← hs.promises other (List.mem_of_getElem? hj)]
        exact (Option.or_none).symm
    · intro r' hr'
      have hold : r' ∉ s.requests := by
        rwa [← requests_set hcall (some Settlement.timedOut)]
      rw [settlement_eq_none hs.tracked hold, hs.fresh r' hold]
      rfl

theorem settles_step {l : ClientLabel ρ} (hs : s.Settles happened) (h : s.step l = some t) :
    t.Settles fun r => happened r ++ (settlement r s l).toList := by
  have htracked := tracked_step hs.tracked h
  cases l with
  | opened c =>
      obtain rfl := Option.some.inj h
      exact settles_of_calls hs htracked rfl fun _ => rfl
  | closed c =>
      obtain rfl := Option.some.inj h
      exact settles_of_calls hs htracked rfl fun _ => rfl
  | request r => exact settles_request hs h
  | handle i result now uuid =>
      simp only [step] at h
      split at h
      · cases h
      · split at h
        · obtain rfl := Option.some.inj h
          exact settles_of_calls hs htracked rfl fun _ => rfl
        · obtain rfl := Option.some.inj h
          exact settles_of_calls hs htracked rfl fun _ => rfl
  | arrive c i => exact settles_arrive hs h
  | timeout i => exact settles_timeout hs h

/-- **Promises and their answers.**  In every run with any number of clients the promise of each
call is settled by what comes first of the arrival of its own answer at its own client, with the
result computed for it, and the end of its own timer; it is pending as long as neither has come. -/
theorem promise_eq_first_settlement {labels : List (ClientLabel ρ)} {u : ClientSessions ρ}
    (hrun : execute step init labels = some u) {call : ClientCall ρ} (hcall : call ∈ u.calls) :
    call.promise = (noted step (settlement call.request) init labels).head? := by
  have hu : u.Settles fun r => noted step (settlement r) init labels := by
    refine execute_history (fun past s => s.Settles fun r => noted step (settlement r) init past)
      ⟨tracked_init, nofun, fun _ _ => rfl⟩ ?_ hrun
    intro past l s t hpast hs hstep
    have hlast (r : ClientRequest) : noted step (settlement r) init (past ++ [l]) =
        noted step (settlement r) init past ++ (settlement r s l).toList := by
      rw [noted_append hpast, noted_cons hstep, noted_nil, List.append_nil]
    simp only [hlast]
    exact settles_step hs hstep
  exact hu.promises call hcall

/-- The answer to the second client reaches both, the one to the first comes too late. -/
def twoClients : List (ClientLabel Bool) :=
  [.opened 0, .opened 1, .request ⟨0, .effectiveConfig, "a".toList⟩,
    .request ⟨1, .validateProfile "p.json".toList, "b".toList⟩, .handle 1 (some true) 0 [],
    .arrive 0 0, .timeout 0, .arrive 1 0, .handle 0 (some false) 1 [], .arrive 0 1]

theorem twoClients_settled :
    ∃ u : ClientSessions Bool, execute step init twoClients = some u ∧
      u.calls.map ClientCall.promise = [some .timedOut, some (.resolved true)] ∧
      ∀ call ∈ u.calls,
        call.promise = (noted step (settlement call.request) init twoClients).head? := by
  have hpromises : (execute step (init : ClientSessions Bool) twoClients).map
      (fun u => u.calls.map ClientCall.promise) =
        some [some .timedOut, some (.resolved true)] := by decide +kernel
  obtain ⟨u, hu, hpromises⟩ := Option.map_eq_some_iff.mp hpromises
  exact ⟨u, hu, hpromises, fun _ hcall => promise_eq_first_settlement hu hcall⟩

end ClientSessions

end Sdk
end AvaListener
