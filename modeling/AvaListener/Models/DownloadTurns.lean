import AvaListener.Library.Simulation
import AvaListener.Models.ManagerSteps

/-!
# The downloads of a call

Which models a `verifyOrDownload` downloads, in which order and how often, and which
files it writes: a model whose check came out true is left alone, and the others have
their turn in the order of the manifest, each with at most three attempts, the next one
only when the one before is in place.
-/

namespace AvaListener
namespace Models

open Library

/-- The fetches are those of the models served, model after model: at least one and at most
three of each. -/
inductive InTurn : List ModelEntry → List ModelEntry → Prop where
  | none : InTurn [] []
  | next {fetches served : List ModelEntry} (h : InTurn fetches served) (e : ModelEntry) {n : ℕ}
      (hfirst : 1 ≤ n) (hlast : n ≤ 3) : InTurn (fetches ++ List.replicate n e) (served ++ [e])

variable {β : Type*}

/-- The attempts that have come to the end of their fetch. -/
def Stage.ended : Stage β → ℕ
  | .fetching => 0
  | _ => 1

namespace ModelManager

/-- The model whose fetch ends with the step, well or not. -/
def fetchEnds (s : ModelManager β) : Label β → Option ModelEntry
  | .fetched _ | .attemptThrows =>
      match s.phase with
      | .downloading e _ _ .fetching => some e
      | _ => none
  | _ => none

/-! ## One step of a download -/

/-- Where an attempt goes from its stage. -/
inductive Advances (e : ModelEntry) (rest : List ModelEntry) (attempt : ℕ) (missing : List Text) :
    Stage β → Phase β → Prop where
  | goesOn {stage : Stage β} (next : Stage β) (hnext : next.ended = 1)
      (hwaits : next = .waiting → attempt ≠ 3) :
      Advances e rest attempt missing stage (.downloading e rest attempt next)
  | rejects {stage : Stage β} (h : attempt = 3) :
      Advances e rest attempt missing stage .rejected
  | retries : Advances e rest attempt missing .waiting (.downloading e rest (attempt + 1) .fetching)
  | nextModel {e' : ModelEntry} {rest' : List ModelEntry} (h : rest = e' :: rest') :
      Advances e rest attempt missing .describing (.downloading e' rest' 1 .fetching)
  | resolves (h : rest = []) :
      Advances e rest attempt missing .describing (.resolved missing)

/-- What a step of the download of `e` does. -/
structure DownloadStep (s t : ModelManager β) (l : Label β) (e : ModelEntry)
    (rest : List ModelEntry) (attempt : ℕ) (stage : Stage β) : Prop where
  verifications : t.verifications = s.verifications
  missingModels : t.missingModels = s.missingModels
  /-- Only the model's own file is written. -/
  frame : ∀ target, target ≠ e.target → t.disk.models target = s.disk.models target
  noted : s.fetchEnds l = if stage.ended = 0 then some e else none
  advances : Advances e rest attempt (s.missingModels.map ModelEntry.target) stage t.phase

theorem advances_attemptFailed (s : ModelManager β) (e : ModelEntry) (rest : List ModelEntry)
    (attempt : ℕ) (missing : List Text) (stage : Stage β) :
    Advances e rest attempt missing stage (s.attemptFailed e rest attempt).phase := by
  unfold attemptFailed
  split
  next hlast => exact .rejects hlast
  next hleft => exact .goesOn .waiting rfl fun _ => hleft

theorem advances_downloadNext (s : ModelManager β) (e : ModelEntry) (rest : List ModelEntry)
    (attempt : ℕ) :
    Advances e rest attempt (s.missingModels.map ModelEntry.target) .describing
      (s.downloadNext rest).phase := by
  cases rest with
  | nil => exact .resolves rfl
  | cons e' rest' => exact .nextModel rfl

/-- A step that leaves the models directory alone. -/
theorem downloadStep_of_fields {s t : ModelManager β} {l : Label β} {e : ModelEntry}
    {rest : List ModelEntry} {attempt : ℕ} {stage : Stage β}
    (hverifications : t.verifications = s.verifications)
    (hmissing : t.missingModels = s.missingModels) (hmodels : t.disk.models = s.disk.models)
    (hnoted : s.fetchEnds l = if stage.ended = 0 then some e else none)
    (hadvances : Advances e rest attempt (s.missingModels.map ModelEntry.target) stage t.phase) :
    DownloadStep s t l e rest attempt stage :=
  ⟨hverifications, hmissing, fun _ _ => by rw [hmodels], hnoted, hadvances⟩

/-- An attempt that fails, after a write of the checksums or without one. -/
theorem downloadStep_attemptFailed {s s' : ModelManager β} {l : Label β} {e : ModelEntry}
    {rest : List ModelEntry} {attempt : ℕ} {stage : Stage β}
    (hverifications : s'.verifications = s.verifications)
    (hmissing : s'.missingModels = s.missingModels) (hmodels : s'.disk.models = s.disk.models)
    (hnoted : s.fetchEnds l = if stage.ended = 0 then some e else none) :
    DownloadStep s (s'.attemptFailed e rest attempt) l e rest attempt stage := by
  have hfields : (s'.attemptFailed e rest attempt).verifications = s'.verifications ∧
      (s'.attemptFailed e rest attempt).missingModels = s'.missingModels ∧
      (s'.attemptFailed e rest attempt).disk = s'.disk := by
    unfold attemptFailed
    split
    · exact ⟨rfl, rfl, rfl⟩
    · exact ⟨rfl, rfl, rfl⟩
  obtain ⟨hv, hm, hd⟩ := hfields
  exact downloadStep_of_fields (hv.trans hverifications) (hm.trans hmissing)
    ((congrArg Disk.models hd).trans hmodels) hnoted (advances_attemptFailed s' e rest attempt _ _)

theorem downloadStep_downloadNext {s s' : ModelManager β} {l : Label β} {e : ModelEntry}
    {rest : List ModelEntry} {attempt : ℕ} (hverifications : s'.verifications = s.verifications)
    (hmissing : s'.missingModels = s.missingModels) (hmodels : s'.disk.models = s.disk.models)
    (hnoted : s.fetchEnds l = none) :
    DownloadStep s (s'.downloadNext rest) l e rest attempt .describing := by
  have hadvances := advances_downloadNext s' e rest attempt
  rw [hmissing] at hadvances
  cases rest with
  | nil => exact downloadStep_of_fields hverifications hmissing hmodels hnoted hadvances
  | cons e' rest' => exact downloadStep_of_fields hverifications hmissing hmodels hnoted hadvances

variable [DecidableEq β] {sha256 : β → Text} {bytesAt : Text → Stamp → β}

/-- **Step lemma.** -/
theorem downloadStep_spec {s t : ModelManager β} {l : Label β} {e : ModelEntry}
    {rest : List ModelEntry} {attempt : ℕ} {stage : Stage β}
    (hphase : s.phase = .downloading e rest attempt stage)
    (h : s.downloadStep sha256 bytesAt e rest attempt stage l = some t) :
    DownloadStep s t l e rest attempt stage := by
  unfold downloadStep at h
  split at h
  -- `fetched`
  · split at h
    · cases h
    · obtain rfl := Option.some.inj h
      exact downloadStep_of_fields rfl rfl rfl (by simp [fetchEnds, hphase, Stage.ended])
        (.goesOn (.checking _) rfl nofun)
  -- `checked`
  · split at h
    · obtain rfl := Option.some.inj h
      exact downloadStep_of_fields rfl rfl rfl rfl (.goesOn (.placing _) rfl nofun)
    · obtain rfl := Option.some.inj h
      exact downloadStep_attemptFailed rfl rfl rfl rfl
  -- `renamed`
  · split at h
    · obtain rfl := Option.some.inj h
      refine ⟨rfl, rfl, ?_, rfl, .goesOn .recording rfl nofun⟩
      exact fun target htarget => Function.update_of_ne htarget ..
    · cases h
  -- `recorded`
  · split at h
    · cases h
    · split at h
      · obtain rfl := Option.some.inj h
        exact downloadStep_of_fields rfl rfl (Disk.models_saveChecksums ..) rfl
          (.goesOn .describing rfl nofun)
      · obtain rfl := Option.some.inj h
        exact downloadStep_attemptFailed rfl rfl (Disk.models_saveChecksums ..) rfl
  -- `described`
  · split at h
    · split at h
      · obtain rfl := Option.some.inj h
        exact downloadStep_downloadNext rfl rfl (Disk.models_saveChecksums ..) rfl
      · obtain rfl := Option.some.inj h
        exact downloadStep_attemptFailed rfl rfl (Disk.models_saveChecksums ..) rfl
    · obtain rfl := Option.some.inj h
      exact downloadStep_attemptFailed rfl rfl rfl rfl
  -- `retry`
  · obtain rfl := Option.some.inj h
    exact downloadStep_of_fields rfl rfl rfl rfl .retries
  · cases h
  -- `attemptThrows`
  · obtain rfl := Option.some.inj h
    refine downloadStep_attemptFailed rfl rfl rfl ?_
    unfold fetchEnds
    rw [hphase]
    cases stage with
    | fetching => rfl
    | _ => rfl
  · cases h

/-! ## Whole calls -/

/-- How the fetches so far and the phase agree. -/
def TurnOk (fetches missing : List ModelEntry) : Phase β → Prop
  | .verifying => missing = [] ∧ fetches = []
  | .downloading e rest attempt stage =>
      ∃ before served, missing = served ++ e :: rest ∧ InTurn before served ∧
        fetches = before ++ List.replicate (attempt - 1 + stage.ended) e ∧
        1 ≤ attempt ∧ attempt ≤ 3 ∧ (stage = .waiting → attempt ≠ 3)
  | .resolved _ => InTurn fetches missing
  | .rejected => ∃ served, served <+: missing ∧ InTurn fetches served

/-- What holds of a call, its fetches so far and the disk it found. -/
structure Orderly (m : Manifest) (initial : Disk β) (fetches : List ModelEntry)
    (s : ModelManager β) : Prop where
  entries : s.verifications.map Prod.fst = m.models
  missing : s.missingModels = [] ∧ (∀ targets, s.phase ≠ .resolved targets) ∨
    s.Checked ∧ s.missingModels = invalid s.verifications
  frame : ∀ target, target ∉ s.missingModels.map ModelEntry.target →
    s.disk.models target = initial.models target
  turn : TurnOk fetches s.missingModels s.phase

variable {m : Manifest} {initial : Disk β} {fetches : List ModelEntry} {s t : ModelManager β}

omit [DecidableEq β] in
theorem orderly_endsCheck {l : Label β} (hs : s.Orderly m initial fetches)
    (h : s.EndsCheck t l) : t.Orderly m initial fetches := by
  obtain ⟨-, ⟨i, e, key, outcome, hi, hverifications⟩, hmodels, hmissing, hphase⟩ := h
  obtain ⟨hnone, hunresolved⟩ := hs.missing.resolve_right
    fun h => h.1 _ (List.mem_of_getElem? hi) key rfl
  refine ⟨?_, .inl ⟨hmissing.trans hnone, hphase ▸ hunresolved⟩, ?_, ?_⟩
  · rw [hverifications, map_fst_set hi]
    exact hs.entries
  · rw [hmissing, hmodels]
    exact hs.frame
  · rw [hmissing, hphase]
    exact hs.turn

theorem orderly_verified (hs : s.Orderly m initial fetches)
    (h : s.step sha256 bytesAt .verified = some t) : t.Orderly m initial fetches := by
  obtain ⟨hphase, hcase⟩ := verified_cases h
  have hturn := hs.turn
  rw [hphase] at hturn
  obtain ⟨hnone, rfl⟩ := hturn
  rcases hcase with ⟨-, rfl⟩ | ⟨hends, rfl⟩
  · exact ⟨hs.entries, .inl ⟨hnone, nofun⟩, hs.frame, [], List.nil_prefix, .none⟩
  · have hframe : ∀ target, s.disk.models target = initial.models target := by
      intro target
      refine hs.frame target ?_
      rw [hnone]
      exact List.not_mem_nil
    have hchecked : s.Checked := by
      intro v hv key hkey
      rcases hends v hv with hdone | hdone
      · cases hkey.symm.trans hdone
      · cases hkey.symm.trans hdone
    cases hinvalid : invalid s.verifications with
    | nil =>
        exact ⟨hs.entries, .inr ⟨hchecked, hinvalid.symm⟩, fun target _ => hframe target, .none⟩
    | cons e rest =>
        refine ⟨hs.entries, .inr ⟨hchecked, hinvalid.symm⟩, fun target _ => hframe target, ?_⟩
        exact ⟨[], [], rfl, .none, rfl, le_rfl, by decide, nofun⟩

omit [DecidableEq β] in
/-- The fetches of the model under way when the step is done, whichever it is. -/
theorem turnOk_downloadStep {l : Label β} {e : ModelEntry} {rest : List ModelEntry} {attempt : ℕ}
    {stage : Stage β} (hs : TurnOk fetches s.missingModels (.downloading e rest attempt stage))
    (h : DownloadStep s t l e rest attempt stage) :
    TurnOk (fetches ++ (s.fetchEnds l).toList) s.missingModels t.phase := by
  obtain ⟨before, served, hmissing, hserved, rfl, hfirst, hlast, hwaits⟩ := hs
  have hall : before ++ List.replicate (attempt - 1 + stage.ended) e ++ (s.fetchEnds l).toList =
      before ++ List.replicate attempt e := by
    have hattempt : attempt - 1 + 1 = attempt := by omega
    rw [List.append_assoc, h.noted]
    cases stage with
    | fetching =>
        conv_rhs => rw [← hattempt, List.replicate_succ']
        rfl
    | _ =>
        simp only [Stage.ended, hattempt]
        exact congrArg (before ++ ·) (List.append_nil _)
  rw [hall]
  have hnext := hserved.next e hfirst hlast
  have hprefix : served ++ [e] <+: s.missingModels := by
    refine ⟨rest, ?_⟩
    rw [hmissing, List.append_assoc, List.singleton_append]
  have hadvances := h.advances
  generalize t.phase = phase at hadvances ⊢
  cases hadvances with
  | goesOn next hended hnextWaits =>
      refine ⟨before, served, hmissing, hserved, ?_, hfirst, hlast, hnextWaits⟩
      rw [hended, Nat.sub_add_cancel hfirst]
  | rejects hthree => exact ⟨_, hprefix, hnext⟩
  | retries =>
      have hne := hwaits rfl
      exact ⟨before, served, hmissing, hserved, rfl, by omega, by omega, nofun⟩
  | nextModel hrest =>
      refine ⟨_, served ++ [e], ?_, hnext, (List.append_nil _).symm, le_rfl, by decide, nofun⟩
      rw [hmissing, hrest, List.append_assoc, List.singleton_append]
  | resolves hrest =>
      rw [hmissing, hrest]
      exact hnext

/-- **Step lemma.** -/
theorem orderly_step {l : Label β} (hs : s.Orderly m initial fetches)
    (h : s.step sha256 bytesAt l = some t) :
    t.Orderly m initial (fetches ++ (s.fetchEnds l).toList) := by
  rcases step_cases h with hcheck | rfl | ⟨e, rest, attempt, stage, hphase, hdownload⟩
  · have hsilent : s.fetchEnds l = none := by
      obtain ⟨⟨i, write, rfl⟩ | ⟨i, rfl⟩, -⟩ := hcheck
      · rfl
      · rfl
    rw [hsilent, Option.toList_none, List.append_nil]
    exact orderly_endsCheck hs hcheck
  · have hsilent : s.fetchEnds (.verified : Label β) = none := rfl
    rw [hsilent, Option.toList_none, List.append_nil]
    exact orderly_verified hs h
  · have hstep := downloadStep_spec hphase hdownload
    have hturn := hs.turn
    rw [hphase] at hturn
    obtain ⟨before, served, hmissing, -⟩ := id hturn
    refine ⟨?_, ?_, ?_, ?_⟩
    · rw [hstep.verifications]
      exact hs.entries
    · -- There are models to download, so they are those whose check came out false.
      have hlisted := hs.missing.resolve_left fun h => by
        rw [h.1] at hmissing
        exact List.append_ne_nil_of_right_ne_nil _ (List.cons_ne_nil _ _) hmissing.symm
      unfold Checked
      rw [hstep.missingModels, hstep.verifications]
      exact .inr hlisted
    · intro target htarget
      rw [hstep.missingModels] at htarget
      rw [hstep.frame target ?_, hs.frame target htarget]
      rintro rfl
      refine htarget (List.mem_map_of_mem ?_)
      rw [hmissing]
      exact List.mem_append_right _ (List.mem_cons_self ..)
    · rw [hstep.missingModels]
      exact turnOk_downloadStep hturn hstep

omit [DecidableEq β] in
theorem orderly_start (manifestHash : Text → Text) (m : Manifest) (initial : Disk β)
    (statThrows : Text → Bool) :
    (start manifestHash m initial statThrows).Orderly m initial [] where
  entries := by
    show (m.models.map _).map Prod.fst = m.models
    rw [List.map_map]
    exact List.map_id _
  missing := .inl ⟨rfl, nofun⟩
  frame _ _ := rfl
  turn := ⟨rfl, rfl⟩

omit [DecidableEq β] in
/-- The models that have had a fetch are the first ones. -/
theorem exists_served (hs : TurnOk fetches s.missingModels s.phase) :
    ∃ served, served <+: s.missingModels ∧ InTurn fetches served ∧
      ∀ targets, s.phase = .resolved targets → served = s.missingModels := by
  cases hphase : s.phase with
  | verifying =>
      rw [hphase] at hs
      obtain ⟨-, rfl⟩ := hs
      exact ⟨[], List.nil_prefix, .none, nofun⟩
  | downloading e rest attempt stage =>
      rw [hphase] at hs
      obtain ⟨before, served, hmissing, hserved, rfl, hfirst, hlast, -⟩ := hs
      have hended : stage.ended ≤ 1 := by
        cases stage with
        | fetching => exact Nat.zero_le 1
        | _ => exact le_rfl
      by_cases hnone : attempt - 1 + stage.ended = 0
      · refine ⟨served, ?_, ?_, nofun⟩
        · rw [hmissing]
          exact List.prefix_append ..
        · rw [hnone, List.replicate_zero, List.append_nil]
          exact hserved
      · refine ⟨served ++ [e], ⟨rest, ?_⟩, hserved.next e (by omega) (by omega), nofun⟩
        rw [hmissing, List.append_assoc, List.singleton_append]
  | resolved targets =>
      rw [hphase] at hs
      exact ⟨s.missingModels, List.prefix_refl _, hs, fun _ _ => rfl⟩
  | rejected =>
      rw [hphase] at hs
      obtain ⟨served, hprefix, hserved⟩ := hs
      exact ⟨served, hprefix, hserved, nofun⟩

/-- A model is invalid when its check came out false. -/
theorem mem_invalid_iff {verifications : List (ModelEntry × Verification)} {e : ModelEntry} :
    e ∈ invalid verifications ↔ (e, .done false) ∈ verifications := by
  constructor
  · intro he
    obtain ⟨v, hv, rfl⟩ := List.mem_map.mp he
    obtain ⟨hv, hfalse⟩ := List.mem_filter.mp hv
    rw [← of_decide_eq_true hfalse]
    exact hv
  · intro he
    exact List.mem_map.mpr ⟨_, List.mem_filter.mpr ⟨he, by simp⟩, rfl⟩

/-- **Downloads in turn.**  In every run the fetches are those of the first of the models whose
check came out false, in the order of the manifest, one to three for each model and those of one
model done before those of the next begin; when the call resolves, all models whose check came
out false have had their turn.  No other file of the models directory is written. -/
theorem fetches_inTurn {manifestHash : Text → Text} {statThrows : Text → Bool}
    {labels : List (Label β)} {u : ModelManager β}
    (hrun : execute (step sha256 bytesAt) (start manifestHash m initial statThrows) labels =
      some u) :
    u.missingModels.Sublist m.models ∧
      (∀ e ∈ u.missingModels, (e, .done false) ∈ u.verifications) ∧
      (∃ served, served <+: u.missingModels ∧
        InTurn (noted (step sha256 bytesAt) fetchEnds (start manifestHash m initial statThrows)
          labels) served ∧
        ∀ targets, u.phase = .resolved targets → served = u.missingModels ∧
          ∀ e, (e, .done false) ∈ u.verifications → e ∈ u.missingModels) ∧
      ∀ target, target ∉ u.missingModels.map ModelEntry.target →
        u.disk.models target = initial.models target := by
  have hu : u.Orderly m initial
      (noted (step sha256 bytesAt) fetchEnds (start manifestHash m initial statThrows) labels) := by
    refine execute_history (fun past s => s.Orderly m initial
      (noted (step sha256 bytesAt) fetchEnds (start manifestHash m initial statThrows) past))
      (orderly_start manifestHash m initial statThrows) ?_ hrun
    intro past l s t hpast hs hstep
    have hlast : noted (step sha256 bytesAt) fetchEnds s [l] = (s.fetchEnds l).toList := by
      rw [noted_cons hstep, noted_nil, List.append_nil]
    rw [noted_append hpast, hlast]
    exact orderly_step hs hstep
  have hinvalid : (invalid u.verifications).Sublist m.models := by
    rw [← hu.entries]
    exact List.filter_sublist.map Prod.fst
  refine ⟨?_, ?_, ?_, hu.frame⟩
  · rcases hu.missing with ⟨hnone, -⟩ | ⟨-, hmissing⟩
    · rw [hnone]
      exact List.nil_sublist _
    · rw [hmissing]
      exact hinvalid
  · intro e he
    rcases hu.missing with ⟨hnone, -⟩ | ⟨-, hmissing⟩
    · rw [hnone] at he
      cases he
    · exact mem_invalid_iff.mp (hmissing ▸ he)
  · obtain ⟨served, hprefix, hserved, hall⟩ := exists_served hu.turn
    refine ⟨served, hprefix, hserved, fun targets hresolved => ⟨hall targets hresolved, ?_⟩⟩
    intro e he
    obtain ⟨-, hmissing⟩ := hu.missing.resolve_left fun h => h.2 targets hresolved
    rw [hmissing]
    exact mem_invalid_iff.mpr he

/-- The tokens are fetched twice, the encoder is left alone, and when the call has resolved the
tokens were all that was missing. -/
theorem secondAttempt_inTurn :
    ∃ u : ModelManager ℕ,
      execute (step sizeDigest fun _ stamp => stamp.size)
          (start textDigest twoModels encoderCached fun _ => false) secondAttempt = some u ∧
        (∃ targets, u.phase = .resolved targets) ∧
        (∀ e, e ∈ u.missingModels ↔ (e, .done false) ∈ u.verifications) ∧
        noted (step sizeDigest fun _ stamp => stamp.size) fetchEnds
          (start textDigest twoModels encoderCached fun _ => false) secondAttempt =
            [tokensEntry, tokensEntry] ∧
        ∀ target, target ∉ u.missingModels.map ModelEntry.target →
          u.disk.models target = encoderCached.models target := by
  have hends : ((execute (step sizeDigest fun _ stamp => stamp.size)
      (start textDigest twoModels encoderCached fun _ => false) secondAttempt).any fun u =>
        match u.phase with
        | .resolved _ => true
        | _ => false) = true := by
    decide +kernel
  obtain ⟨u, hu, hphase⟩ := (Option.any_eq_true _ _).mp hends
  have hresolved : ∃ targets, u.phase = .resolved targets := by
    split at hphase
    next targets heq => exact ⟨targets, heq⟩
    · cases hphase
  obtain ⟨targets, htargets⟩ := hresolved
  obtain ⟨-, hinvalid, ⟨served, -, -, hall⟩, hframe⟩ := fetches_inTurn hu
  exact ⟨u, hu, ⟨targets, htargets⟩,
    fun e => ⟨hinvalid e, (hall targets htargets).2 e⟩, by decide +kernel, hframe⟩

end ModelManager

end Models
end AvaListener
