import AvaListener.Library.Runs
import AvaListener.Transport.Envelope
import AvaListener.Transport.Reliability

/-!
# Requests and their responses

The requests of `node/lifecycle.js` that wait for an answer, `validateProfile` and
`_diagnosticsRequest`, against the answers of `Supervisor._on_ws_receive`.

A request draws two ids: one of its own and one in `createEnvelope`.  The supervisor
echoes the id of the envelope, on its answer and in the answer's payload.
`_diagnosticsRequest` writes its own id over that of the envelope, `validateProfile`
does not, so that the answer to it carries an id that nobody waits for
(`responses_correlated_iff`).
-/

namespace AvaListener
namespace Sdk

open Library Transport

inductive RequestKind where
  | validateProfile (path : Text)
  | diagnostics (type : Text)
  deriving DecidableEq

/-- A request with the ids that `crypto.randomUUID` returned for it. -/
structure Request where
  kind : RequestKind
  correlationId : Text
  /-- The id drawn in `createEnvelope`. -/
  envelopeId : Text
  deriving DecidableEq

/-- The payload of a request: `path` of a validation, `type` of a diagnostics request. -/
structure RequestPayload where
  path : Option Text
  type : Option Text
  correlationId : Text
  deriving DecidableEq

structure RequestMsg where
  type : Text
  correlationId : Text
  payload : RequestPayload
  deriving DecidableEq

/-- The envelope that the SDK sends. -/
def Request.message (r : Request) : RequestMsg :=
  match r.kind with
  | .validateProfile path =>
      ⟨"validate_profile".toList, r.envelopeId, some path, none, r.correlationId⟩
  | .diagnostics type =>
      -- The envelope's own id is overwritten.
      ⟨"diagnostics_request".toList, r.correlationId, none, some type, r.correlationId⟩

structure ResponsePayload (ρ : Type) where
  correlationId : Text
  result : ρ
  deriving DecidableEq

variable {ρ : Type}

/-- The diagnostics that the supervisor implements. -/
def implementedDiagnostics : List Text :=
  ["effective_config", "metrics", "health"].map String.toList

def diagnosticsResponseType : Text := "diagnostics_response".toList
def validateProfileResponseType : Text := "validate_profile_response".toList

/-- The object that the supervisor broadcasts in answer. -/
def responseObj (type : Text) (m : RequestMsg) (result : ρ) : MessageObj (ResponsePayload ρ) :=
  ⟨some type, none, none, none, some m.correlationId, some ⟨m.correlationId, result⟩,
    ⟨m.correlationId, result⟩⟩

/-- The requests among the branches of `_on_ws_receive`; `result` is what the branch
computes, `none` when that raises. -/
def respond (m : RequestMsg) (result : Option ρ) : Option (MessageObj (ResponsePayload ρ)) :=
  if m.type = "diagnostics_request".toList then
    match m.payload.type with
    | some type =>
        if type ∈ implementedDiagnostics then
          result.map (responseObj diagnosticsResponseType m)
        else none
    | none => none
  else if m.type = "validate_profile".toList then
    result.map (responseObj validateProfileResponseType m)
  else none

abbrev ResponseMsg (ρ : Type) := OutMsg (ResponsePayload ρ)

/-- The condition of the request's listener. -/
def Request.accepts (m : ResponseMsg ρ) (r : Request) : Bool :=
  match r.kind with
  | .validateProfile _ =>
      m.type = validateProfileResponseType ∧ m.payload.correlationId = r.correlationId
  | .diagnostics _ =>
      m.type = diagnosticsResponseType ∧
        (m.payload.correlationId = r.correlationId ∨ m.correlationId = r.correlationId)

/-! ## Sessions -/

/-- A connected SDK, the supervisor and what is under way between them. -/
structure RequestSession (ρ : Type) where
  sent : List Request
  /-- The requests whose listener is registered, in that order. -/
  pending : List Request
  toSupervisor : List Request
  /-- The answers under way, each with the request it was produced for. -/
  inFlight : List (Request × ResponseMsg ρ)
  deriving DecidableEq

inductive RequestLabel (ρ : Type) where
  | request (r : Request)
  /-- The supervisor handles the oldest request and broadcasts at time `now`. -/
  | handle (result : Option ρ) (now : ℚ) (uuid : Text)
  /-- One of the answers under way arrives. -/
  | arrive (i : ℕ)
  /-- The timer of a request fires. -/
  | timeout (r : Request)

namespace RequestSession

def init : RequestSession ρ := ⟨[], [], [], []⟩

/-- The ids of a request have never been drawn before. -/
def Fresh (s : RequestSession ρ) (r : Request) : Prop :=
  r.correlationId ≠ r.envelopeId ∧ ∀ other ∈ s.sent,
    r.correlationId ≠ other.correlationId ∧ r.correlationId ≠ other.envelopeId ∧
      r.envelopeId ≠ other.correlationId

instance (s : RequestSession ρ) (r : Request) : Decidable (s.Fresh r) := by
  unfold Fresh
  infer_instance

/-- The requests whose promise an answer resolves. -/
def resolves (s : RequestSession ρ) (m : ResponseMsg ρ) : List Request :=
  s.pending.filter fun r => r.accepts m

def step (s : RequestSession ρ) : RequestLabel ρ → Option (RequestSession ρ)
  | .request r =>
      if s.Fresh r then
        some { s with
          sent := s.sent ++ [r]
          pending := s.pending ++ [r]
          toSupervisor := s.toSupervisor ++ [r] }
      else none
  | .handle result now uuid =>
      match s.toSupervisor with
      | [] => none
      | r :: rest =>
          match respond r.message result with
          | none => some { s with toSupervisor := rest }
          | some obj =>
              some { s with
                toSupervisor := rest
                inFlight := s.inFlight ++ [(r, outMsg obj now uuid)] }
  | .arrive i =>
      match s.inFlight[i]? with
      | none => none
      | some (_, m) =>
          some { s with
            pending := s.pending.filter fun r => !r.accepts m
            inFlight := s.inFlight.eraseIdx i }
  | .timeout r => some { s with pending := s.pending.filter (· ≠ r) }

/-- An answer that arrives resolves the promise of the request it was produced for,
if that is still pending, and no other one. -/
def Correlated (s : RequestSession ρ) : RequestLabel ρ → Prop
  | .arrive i => ∀ r m, s.inFlight[i]? = some (r, m) →
      s.resolves m = if r ∈ s.pending then [r] else []
  | _ => True

/-- An answer that arrives for a pending request is one to a diagnostics request. -/
def AnswersDiagnostics (s : RequestSession ρ) : RequestLabel ρ → Prop
  | .arrive i => ∀ r m, s.inFlight[i]? = some (r, m) → r ∈ s.pending →
      ∃ type, r.kind = .diagnostics type
  | _ => True

/-- The type of the answer to a request. -/
def responseType (r : Request) : Text :=
  match r.kind with
  | .validateProfile _ => validateProfileResponseType
  | .diagnostics _ => diagnosticsResponseType

/-- The ids are distinct, and every answer under way carries the type and the
envelope's id of its request. -/
structure Tracked (s : RequestSession ρ) : Prop where
  distinct : ∀ r ∈ s.sent, ∀ other ∈ s.sent, r.correlationId = other.correlationId → r = other
  disjoint : ∀ r ∈ s.sent, ∀ other ∈ s.sent, r.correlationId ≠ other.envelopeId
  pending_sent : ∀ r ∈ s.pending, r ∈ s.sent
  pending_nodup : s.pending.Nodup
  queued_sent : ∀ r ∈ s.toSupervisor, r ∈ s.sent
  inFlight_sent : ∀ p ∈ s.inFlight, p.1 ∈ s.sent
  answers : ∀ p ∈ s.inFlight, p.2.type = responseType p.1 ∧
    p.2.correlationId = p.1.message.correlationId ∧
    p.2.payload.correlationId = p.1.message.correlationId

theorem tracked_init : (init : RequestSession ρ).Tracked :=
  ⟨nofun, nofun, nofun, List.nodup_nil, nofun, nofun, nofun⟩

/-- What the supervisor answers, if it does. -/
theorem respond_spec {r : Request} {result : Option ρ} {obj : MessageObj (ResponsePayload ρ)}
    (h : respond r.message result = some obj) :
    ∃ value, obj = responseObj (responseType r) r.message value := by
  obtain ⟨kind, correlationId, envelopeId⟩ := r
  cases kind with
  | validateProfile path =>
      have hmap : result.map (responseObj validateProfileResponseType
          ⟨"validate_profile".toList, envelopeId, some path, none, correlationId⟩) = some obj := h
      obtain ⟨value, -, rfl⟩ := Option.map_eq_some_iff.mp hmap
      exact ⟨value, rfl⟩
  | diagnostics type =>
      have hite : (if type ∈ implementedDiagnostics then
          result.map (responseObj diagnosticsResponseType
            ⟨"diagnostics_request".toList, correlationId, none, some type, correlationId⟩)
          else none) = some obj := h
      split at hite
      · obtain ⟨value, -, rfl⟩ := Option.map_eq_some_iff.mp hite
        exact ⟨value, rfl⟩
      · cases hite

theorem Tracked.request {s : RequestSession ρ} (h : s.Tracked) {r : Request} (hfresh : s.Fresh r) :
    Tracked { s with
      sent := s.sent ++ [r]
      pending := s.pending ++ [r]
      toSupervisor := s.toSupervisor ++ [r] } := by
  obtain ⟨hself, hother⟩ := hfresh
  have hnew : ∀ {p : Request → Request → Prop},
      (∀ a ∈ s.sent, ∀ b ∈ s.sent, p a b) → (∀ a ∈ s.sent, p a r ∧ p r a) → p r r →
        ∀ a ∈ s.sent ++ [r], ∀ b ∈ s.sent ++ [r], p a b := by
    intro p hold hmixed hrr a ha b hb
    rcases List.mem_append.mp ha with ha | ha <;> rcases List.mem_append.mp hb with hb | hb
    · exact hold a ha b hb
    · exact List.mem_singleton.mp hb ▸ (hmixed a ha).1
    · exact List.mem_singleton.mp ha ▸ (hmixed b hb).2
    · exact List.mem_singleton.mp ha ▸ List.mem_singleton.mp hb ▸ hrr
  have hlast : ∀ {xs : List Request}, (∀ a ∈ xs, a ∈ s.sent) →
      ∀ a ∈ xs ++ [r], a ∈ s.sent ++ [r] := by
    intro xs hxs a ha
    rcases List.mem_append.mp ha with ha | ha
    · exact List.mem_append_left _ (hxs a ha)
    · exact List.mem_append_right _ ha
  refine ⟨hnew h.distinct ?_ fun _ => rfl, hnew h.disjoint ?_ hself, hlast h.pending_sent, ?_,
    hlast h.queued_sent, fun p hp => List.mem_append_left _ (h.inFlight_sent p hp), h.answers⟩
  · intro a ha
    exact ⟨fun heq => absurd heq.symm (hother a ha).1, fun heq => absurd heq (hother a ha).1⟩
  · intro a ha
    exact ⟨Ne.symm (hother a ha).2.2, (hother a ha).2.1⟩
  · refine List.nodup_append.mpr ⟨h.pending_nodup, List.nodup_singleton r, ?_⟩
    rintro a ha b hb rfl
    obtain rfl := List.mem_singleton.mp hb
    exact (hother a (h.pending_sent a ha)).1 rfl

theorem step_tracked {s t : RequestSession ρ} {l : RequestLabel ρ} (h : s.Tracked)
    (hstep : s.step l = some t) : t.Tracked := by
  cases l with
  | request r =>
      simp only [step] at hstep
      split at hstep
      next hfresh =>
        cases hstep
        exact h.request hfresh
      · cases hstep
  | handle result now uuid =>
      simp only [step] at hstep
      split at hstep
      · cases hstep
      next r rest hqueue =>
        have hqueued : ∀ a ∈ rest, a ∈ s.sent := by
          intro a ha
          exact h.queued_sent a (hqueue ▸ List.mem_cons_of_mem r ha)
        split at hstep
        · cases hstep
          exact { h with queued_sent := hqueued }
        next obj hobj =>
          cases hstep
          obtain ⟨value, rfl⟩ := respond_spec hobj
          -- The answer goes into flight with the request it was produced for.
          have hr : r ∈ s.sent := h.queued_sent r (hqueue ▸ List.mem_cons_self ..)
          refine { h with queued_sent := hqueued, inFlight_sent := ?_, answers := ?_ }
          · intro p hp
            rcases List.mem_append.mp hp with hp | hp
            · exact h.inFlight_sent p hp
            · obtain rfl := List.mem_singleton.mp hp
              exact hr
          · intro p hp
            rcases List.mem_append.mp hp with hp | hp
            · exact h.answers p hp
            · obtain rfl := List.mem_singleton.mp hp
              exact ⟨rfl, rfl, rfl⟩
  | arrive i =>
      simp only [step] at hstep
      split at hstep
      · cases hstep
      · cases hstep
        exact { h with
          pending_sent := fun r hr => h.pending_sent r (List.mem_of_mem_filter hr)
          pending_nodup := h.pending_nodup.filter _
          inFlight_sent := fun p hp => h.inFlight_sent p (List.mem_of_mem_eraseIdx hp)
          answers := fun p hp => h.answers p (List.mem_of_mem_eraseIdx hp) }
  | timeout r =>
      cases hstep
      exact { h with
        pending_sent := fun r hr => h.pending_sent r (List.mem_of_mem_filter hr)
        pending_nodup := h.pending_nodup.filter _ }

/-- **Who takes an answer**: the request it was produced for, if that is a diagnostics
request, and nobody otherwise. -/
theorem accepts_iff {s : RequestSession ρ} (h : s.Tracked) {r other : Request}
    {m : ResponseMsg ρ} (hm : (r, m) ∈ s.inFlight) (hother : other ∈ s.pending) :
    other.accepts m = true ↔ other = r ∧ ∃ type, r.kind = .diagnostics type := by
  obtain ⟨htype, hcorr, hpayload⟩ := h.answers _ hm
  have hr : r ∈ s.sent := h.inFlight_sent _ hm
  have hsent : other ∈ s.sent := h.pending_sent other hother
  have htypes : diagnosticsResponseType ≠ validateProfileResponseType := by decide
  cases hother_kind : other.kind with
  | validateProfile path =>
      -- It waits for its own id, which no envelope carries.
      constructor
      · intro haccepts
        simp only [Request.accepts, hother_kind, decide_eq_true_eq] at haccepts
        cases hr_kind : r.kind with
        | validateProfile _ =>
            have henvelope : m.payload.correlationId = r.envelopeId := by
              rw [hpayload, Request.message, hr_kind]
            exact absurd (haccepts.2.symm.trans henvelope) (h.disjoint other hsent r hr)
        | diagnostics _ =>
            have hdiagnostics : m.type = diagnosticsResponseType := by
              rw [htype, responseType, hr_kind]
            exact absurd (hdiagnostics.symm.trans haccepts.1) htypes
      · rintro ⟨rfl, type, hdiagnostics⟩
        rw [hother_kind] at hdiagnostics
        cases hdiagnostics
  | diagnostics type =>
      simp only [Request.accepts, hother_kind, decide_eq_true_eq]
      constructor
      · rintro ⟨hm_type, hid⟩
        cases hr_kind : r.kind with
        | validateProfile _ =>
            have hvalidate : m.type = validateProfileResponseType := by
              rw [htype, responseType, hr_kind]
            exact absurd (hm_type.symm.trans hvalidate) htypes
        | diagnostics type' =>
            have hown : r.message.correlationId = r.correlationId := by
              rw [Request.message, hr_kind]
            have heq : r.correlationId = other.correlationId := by
              rcases hid with hid | hid
              · rw [← hid, hpayload, hown]
              · rw [← hid, hcorr, hown]
            exact ⟨(h.distinct r hr other hsent heq).symm, type', rfl⟩
      · rintro ⟨rfl, -⟩
        have hown : other.message.correlationId = other.correlationId := by
          rw [Request.message, hother_kind]
        exact ⟨by rw [htype, responseType, hother_kind], Or.inl (hpayload.trans hown)⟩

/-- In a tracked session a step is correlated exactly when it answers diagnostics. -/
theorem correlated_iff {s : RequestSession ρ} (h : s.Tracked) (l : RequestLabel ρ) :
    s.Correlated l ↔ s.AnswersDiagnostics l := by
  cases l with
  | arrive i =>
      refine forall_congr' fun r => forall_congr' fun m => imp_congr_right fun hget => ?_
      have hm : (r, m) ∈ s.inFlight := List.mem_of_getElem? hget
      by_cases hdiagnostics : ∃ type, r.kind = .diagnostics type
      · refine iff_of_true ?_ fun _ => hdiagnostics
        have hfilter : s.resolves m = s.pending.filter (· = r) := by
          refine List.filter_congr ?_
          intro other hother
          rw [Bool.eq_iff_iff, accepts_iff h hm hother, decide_eq_true_eq]
          exact and_iff_left hdiagnostics
        rw [hfilter]
        by_cases hr : r ∈ s.pending
        · rw [if_pos hr, List.filter_eq, List.count_eq_one_of_mem h.pending_nodup hr]
          rfl
        · rw [if_neg hr, List.filter_eq, List.count_eq_zero_of_not_mem hr]
          rfl
      · have hnobody : s.resolves m = [] := by
          refine List.filter_eq_nil_iff.mpr ?_
          intro other hother haccepts
          exact hdiagnostics ((accepts_iff h hm hother).mp haccepts).2
        rw [hnobody]
        by_cases hr : r ∈ s.pending
        · simp [hr, hdiagnostics]
        · simp [hr]
  | _ => exact Iff.rfl

/-- **When answers find their requests.** -/
theorem responses_correlated_iff (labels : List (RequestLabel ρ)) :
    MeetsAlong step Correlated init labels ↔ MeetsAlong step AnswersDiagnostics init labels :=
  meetsAlong_congr step tracked_init (fun _ _ _ h hstep => step_tracked h hstep)
    fun _ l h => correlated_iff h l

/-- A validation and the answer to it. -/
def lostValidation : Request :=
  ⟨.validateProfile "p.json".toList, "own".toList, "envelope".toList⟩

def lostAnswer : ResponseMsg Bool :=
  outMsg (responseObj validateProfileResponseType lostValidation.message true) 0 []

/-- The promise of a validation is not resolved by the answer to it. -/
theorem validation_not_resolved :
    ¬MeetsAlong step Correlated (init : RequestSession Bool)
      [.request lostValidation, .handle (some true) 0 [], .arrive 0] := by
  intro hmeets
  have hrun : execute step (init : RequestSession Bool)
      [.request lostValidation, .handle (some true) 0 []] =
        some ⟨[lostValidation], [lostValidation], [], [(lostValidation, lostAnswer)]⟩ := by
    decide +kernel
  have hlast := meetsAlong_last step hmeets hrun lostValidation lostAnswer rfl
  revert hlast
  decide +kernel

end RequestSession

end Sdk
end AvaListener
