import AvaListener.Models.ModelManager
import Mathlib.Data.Set.Function

/-!
# Only verified bytes reach a target file

The cache that earlier runs have left behind agrees with rehashing, so a check that
comes out true is right however it was made; and a target file is only written by the
rename of a temporary file whose hash has been compared.
-/

namespace AvaListener
namespace Models

open Library

variable {β : Type*} (sha256 : β → Text) (manifestHash : Text → Text)
  (bytesAt : Text → Stamp → β) (used : Set Manifest)

/-! ## The cache -/

/-- The contents that this code gives `checksums.json` while it is run with the
manifests in `used`. -/
inductive WrittenByCode : ChecksumsFile → Prop where
  | missing : WrittenByCode .missing
  | unreadable : WrittenByCode .unreadable
  /-- `verify_model` has computed a hash. -/
  | hashed {file : ChecksumsFile} {m : Manifest} {e : ModelEntry} (stamp : Stamp)
      (h : WrittenByCode file) (hm : m ∈ used) (he : e ∈ m.models) :
      WrittenByCode (.holds (file.load.setCache e.id
        ⟨⟨manifestHash m.json, stamp⟩, sha256 (bytesAt e.target stamp)⟩))
  /-- `download_model` has renamed a verified file. -/
  | recorded {file : ChecksumsFile} (e : ModelEntry) (stamp : Stamp) (h : WrittenByCode file) :
      WrittenByCode (.holds (file.load.setCache e.id ⟨⟨unknownHash, stamp⟩, e.sha256⟩))
  /-- `save_model_metadata`. -/
  | described {file : ChecksumsFile} (e : ModelEntry) (h : WrittenByCode file) :
      WrittenByCode (.holds (file.load.setFile e))

/-- Where a cache entry comes from: a download, or a check of a model of some manifest,
whose target file had the stamp and the bytes that were hashed. -/
def Sound (id : Text) (entry : CacheEntry) : Prop :=
  entry.key.manifestHash = unknownHash ∨
    ∃ m ∈ used, ∃ e ∈ m.models, e.id = id ∧ entry.key.manifestHash = manifestHash m.json ∧
      entry.hash = sha256 (bytesAt e.target entry.key.stamp)

theorem sound_setCache {c : Checksums} {id : Text} {entry : CacheEntry}
    (hc : ∀ id entry, c.cache.get? id = some entry →
      Sound sha256 manifestHash bytesAt used id entry)
    (hentry : Sound sha256 manifestHash bytesAt used id entry) :
    ∀ id' entry', (c.setCache id entry).cache.get? id' = some entry' →
      Sound sha256 manifestHash bytesAt used id' entry' := by
  intro id' entry' hget
  unfold Checksums.setCache at hget
  split at hget
  · exact hc id' entry' hget
  · by_cases hid : id' = id
    · subst hid
      rw [Dict.get?_set_self] at hget
      obtain rfl := Option.some.inj hget
      exact hentry
    · rw [Dict.get?_set_of_ne _ _ hid] at hget
      exact hc id' entry' hget

/-- Every cache entry that this code has written is sound. -/
theorem sound_of_writtenByCode {file : ChecksumsFile}
    (h : WrittenByCode sha256 manifestHash bytesAt used file) :
    ∀ id entry, file.load.cache.get? id = some entry →
      Sound sha256 manifestHash bytesAt used id entry := by
  induction h with
  | missing => nofun
  | unreadable => nofun
  | hashed stamp _ hm he ih =>
      apply sound_setCache sha256 manifestHash bytesAt used ih
      exact .inr ⟨_, hm, _, he, rfl, rfl, rfl⟩
  | recorded e stamp _ ih =>
      apply sound_setCache sha256 manifestHash bytesAt used ih
      exact .inl rfl
  | described e _ ih => exact ih

/-- A file's bytes are those of its stamp. -/
def Disk.Stamped (d : Disk β) : Prop :=
  ∀ target f, d.models target = some f → bytesAt target f.stamp = f.bytes

/-- The model's target file has the manifest's hash. -/
def Disk.HasModel (d : Disk β) (e : ModelEntry) : Prop :=
  ∃ f, d.models e.target = some f ∧ sha256 f.bytes = e.sha256

section Manifests

variable {m : Manifest} {d : Disk β}

theorem eq_of_id_eq {e e' : ModelEntry} (he : e ∈ m.models) (he' : e' ∈ m.models)
    (h : e.id = e'.id) : e = e' :=
  List.inj_on_of_nodup_map m.ids he he' h

theorem eq_of_target_eq {e e' : ModelEntry} (he : e ∈ m.models) (he' : e' ∈ m.models)
    (h : e.target = e'.target) : e = e' :=
  List.inj_on_of_nodup_map m.targets he he' h

/-- **The fast path agrees with rehashing.**  A check answered from the cache is
answered as if the file had been hashed. -/
theorem hash_of_cached (hm : m ∈ used) (hcollision : Set.InjOn (fun m => manifestHash m.json) used)
    (hunknown : manifestHash m.json ≠ unknownHash)
    (hwritten : WrittenByCode sha256 manifestHash bytesAt used d.checksums)
    (hstamped : d.Stamped bytesAt) {e : ModelEntry} (he : e ∈ m.models) {f : ModelFile β}
    (hf : d.models e.target = some f) {cached : CacheEntry}
    (hget : d.checksums.load.cache.get? e.id = some cached)
    (hkey : cached.key = ⟨manifestHash m.json, f.stamp⟩) : cached.hash = sha256 f.bytes := by
  rcases sound_of_writtenByCode sha256 manifestHash bytesAt used hwritten _ _ hget with
    hdownload | ⟨m', hm', e', he', hid, hhash, hcached⟩
  · rw [hkey] at hdownload
    exact absurd hdownload hunknown
  · have hsame : m' = m := by
      apply hcollision hm' hm
      show manifestHash m'.json = manifestHash m.json
      rw [← hhash, hkey]
    subst hsame
    obtain rfl := eq_of_id_eq he' he hid
    rw [hcached, hkey, hstamped _ _ hf]

/-- A model that passes its check at once has its file. -/
theorem hasModel_of_verifyModel (hm : m ∈ used)
    (hcollision : Set.InjOn (fun m => manifestHash m.json) used)
    (hunknown : manifestHash m.json ≠ unknownHash)
    (hwritten : WrittenByCode sha256 manifestHash bytesAt used d.checksums)
    (hstamped : d.Stamped bytesAt) {e : ModelEntry} (he : e ∈ m.models) {statThrows : Bool}
    (h : verifyModel d (manifestHash m.json) statThrows e = .done true) :
    d.HasModel sha256 e := by
  unfold verifyModel at h
  split at h
  · cases h
  next f hf =>
    split at h
    · cases h
    · split at h
      · cases h
      next cached hget =>
        split at h
        next hkey =>
          have hequal : cached.hash = e.sha256 := of_decide_eq_true (Verification.done.inj h)
          refine ⟨f, hf, ?_⟩
          rw [← hash_of_cached sha256 manifestHash bytesAt used hm hcollision hunknown hwritten
            hstamped he hf hget hkey, hequal]
        · cases h

/-- A check that goes on to hash does so for the stamp of the file that is there. -/
theorem stamp_of_hashing {e : ModelEntry} {hash : Text} {statThrows : Bool} {key : CacheKey}
    (h : verifyModel d hash statThrows e = .hashing key) :
    ∃ f, d.models e.target = some f ∧ key = ⟨hash, f.stamp⟩ := by
  unfold verifyModel at h
  split at h
  · cases h
  next f hf =>
    split at h
    · cases h
    · split at h
      · exact ⟨f, hf, (Verification.hashing.inj h).symm⟩
      · split at h
        · cases h
        · exact ⟨f, hf, (Verification.hashing.inj h).symm⟩

end Manifests

/-! ## The invariant -/

section Machine

variable {m : Manifest} {initial : Disk β}

namespace ModelManager

/-- What holds of the disk and of the checks, whatever the phase. -/
structure Base (m : Manifest) (initial : Disk β) (s : ModelManager β) : Prop where
  /-- No unverified bytes at a target path. -/
  targets : ∀ e ∈ m.models,
    s.disk.models e.target = initial.models e.target ∨ s.disk.HasModel sha256 e
  stamped : s.disk.Stamped bytesAt
  written : WrittenByCode sha256 manifestHash bytesAt used s.disk.checksums
  entries : s.verifications.map Prod.fst = m.models
  hashing : ∀ v ∈ s.verifications, ∀ key, v.2 = .hashing key →
    ∃ f, s.disk.models v.1.target = some f ∧ key = ⟨manifestHash m.json, f.stamp⟩
  valid : ∀ v ∈ s.verifications, v.2 = .done true → s.disk.HasModel sha256 v.1

/-- No check is under way. -/
def Checked (s : ModelManager β) : Prop := ∀ v ∈ s.verifications, ∀ key, v.2 ≠ .hashing key

/-- Every model has its file or is still to be downloaded. -/
structure Pending (m : Manifest) (s : ModelManager β) (todo : List ModelEntry) : Prop where
  checked : s.Checked
  listed : ∀ e ∈ todo, e ∈ m.models
  others : ∀ e ∈ m.models, s.disk.HasModel sha256 e ∨ e ∈ todo

def StageOk (s : ModelManager β) (e : ModelEntry) : Stage β → Prop
  | .placing temp => sha256 temp = e.sha256
  | .recording => s.disk.HasModel sha256 e
  | .describing => s.disk.HasModel sha256 e
  | _ => True

def PhaseOk (m : Manifest) (s : ModelManager β) : Prop :=
  match s.phase with
  | .downloading e rest _ stage => s.Pending sha256 m (e :: rest) ∧ s.StageOk sha256 e stage
  | .resolved _ => s.Pending sha256 m []
  | _ => True

/-- Steps that leave the models directory and the checks alone. -/
theorem base_of_fields {s t : ModelManager β}
    (hs : s.Base sha256 manifestHash bytesAt used m initial)
    (hmodels : t.disk.models = s.disk.models) (hverifications : t.verifications = s.verifications)
    (hwritten : WrittenByCode sha256 manifestHash bytesAt used t.disk.checksums) :
    t.Base sha256 manifestHash bytesAt used m initial := by
  have hsame (e : ModelEntry) : t.disk.HasModel sha256 e ↔ s.disk.HasModel sha256 e := by
    unfold Disk.HasModel
    rw [hmodels]
  refine ⟨?_, ?_, hwritten, ?_, ?_, ?_⟩
  · intro e he
    rw [hmodels, hsame]
    exact hs.targets e he
  · intro target f hf
    rw [hmodels] at hf
    exact hs.stamped target f hf
  · rw [hverifications]
    exact hs.entries
  · rw [hverifications, hmodels]
    exact hs.hashing
  · intro v hv hdone
    rw [hverifications] at hv
    exact (hsame v.1).mpr (hs.valid v hv hdone)

theorem pending_of_fields {s t : ModelManager β} {todo : List ModelEntry}
    (hs : s.Pending sha256 m todo) (hmodels : t.disk.models = s.disk.models)
    (hverifications : t.verifications = s.verifications) : t.Pending sha256 m todo := by
  refine ⟨?_, hs.listed, ?_⟩
  · intro v hv
    rw [hverifications] at hv
    exact hs.checked v hv
  · intro e he
    have hother := hs.others e he
    unfold Disk.HasModel at hother ⊢
    rwa [hmodels]

/-- A write of the checksums, however it goes, leaves what this code has written. -/
theorem written_saveChecksums {d : Disk β} {c : Checksums} (write : Write)
    (hd : WrittenByCode sha256 manifestHash bytesAt used d.checksums)
    (hc : WrittenByCode sha256 manifestHash bytesAt used (.holds c)) :
    WrittenByCode sha256 manifestHash bytesAt used (d.saveChecksums c write).checksums := by
  cases write with
  | ok => exact hc
  | untouched => exact hd
  | cutShort => exact .unreadable

/-- A verified file put in place keeps every model that is there. -/
theorem hasModel_rename {d : Disk β} {e e' : ModelEntry} {f : ModelFile β} (he : e ∈ m.models)
    (he' : e' ∈ m.models) (hf : sha256 f.bytes = e.sha256) (h : d.HasModel sha256 e') :
    (d.rename e.target f).HasModel sha256 e' := by
  by_cases htarget : e'.target = e.target
  · obtain rfl := eq_of_target_eq he' he htarget
    exact ⟨f, Function.update_self .., hf⟩
  · obtain ⟨g, hg, hhash⟩ := h
    refine ⟨g, ?_, hhash⟩
    show Function.update d.models e.target (some f) e'.target = some g
    rw [Function.update_of_ne htarget]
    exact hg

theorem stamped_rename {d : Disk β} {target : Text} {temp : β} {stamp : Stamp}
    (hd : d.Stamped bytesAt) (hstamp : bytesAt target stamp = temp) :
    (d.rename target ⟨temp, stamp⟩).Stamped bytesAt := by
  intro other f hf
  have hupdate : Function.update d.models target (some ⟨temp, stamp⟩) other = some f := hf
  by_cases hother : other = target
  · subst hother
    rw [Function.update_self] at hupdate
    obtain rfl := Option.some.inj hupdate
    exact hstamp
  · rw [Function.update_of_ne hother] at hupdate
    exact hd other f hupdate

/-! ## The checks -/

theorem base_start (hm : m ∈ used) (hcollision : Set.InjOn (fun m => manifestHash m.json) used)
    (hunknown : manifestHash m.json ≠ unknownHash)
    (hwritten : WrittenByCode sha256 manifestHash bytesAt used initial.checksums)
    (hstamped : initial.Stamped bytesAt) (statThrows : Text → Bool) :
    (start manifestHash m initial statThrows).Base sha256 manifestHash bytesAt used m initial where
  targets _ _ := .inl rfl
  stamped := hstamped
  written := hwritten
  entries := by
    show (m.models.map _).map Prod.fst = m.models
    rw [List.map_map]
    exact List.map_id _
  hashing := by
    intro v hv key hkey
    obtain ⟨e, he, rfl⟩ := List.mem_map.mp hv
    exact stamp_of_hashing hkey
  valid := by
    intro v hv hdone
    obtain ⟨e, he, rfl⟩ := List.mem_map.mp hv
    exact hasModel_of_verifyModel sha256 manifestHash bytesAt used hm hcollision hunknown
      hwritten hstamped he hdone

/-- The outcome of one check, put in its place. -/
theorem base_setVerification {s : ModelManager β} {i : ℕ} {e : ModelEntry} {key : CacheKey}
    {outcome : Verification} (hs : s.Base sha256 manifestHash bytesAt used m initial)
    (hi : s.verifications[i]? = some (e, .hashing key))
    (hnotHashing : ∀ key, outcome ≠ .hashing key)
    (hvalid : outcome = .done true → s.disk.HasModel sha256 e) :
    { s with verifications := s.verifications.set i (e, outcome) }.Base sha256 manifestHash
      bytesAt used m initial := by
  have hmem : ∀ v ∈ s.verifications.set i (e, outcome),
      v ∈ s.verifications ∨ v = (e, outcome) := fun v hv => List.mem_or_eq_of_mem_set hv
  refine ⟨hs.targets, hs.stamped, hs.written, ?_, ?_, ?_⟩
  · exact (map_fst_set hi outcome).trans hs.entries
  · intro v hv key' hkey'
    rcases hmem v hv with hold | rfl
    · exact hs.hashing v hold key' hkey'
    · exact absurd hkey' (hnotHashing key')
  · intro v hv hdone
    rcases hmem v hv with hold | rfl
    · exact hs.valid v hold hdone
    · exact hvalid hdone

/-- While a check is under way no download is, so its end changes no phase. -/
theorem phaseOk_of_hashing {s t : ModelManager β} {v : ModelEntry × Verification} {key : CacheKey}
    (hs : s.PhaseOk sha256 m) (hv : v ∈ s.verifications) (hkey : v.2 = .hashing key)
    (hphase : t.phase = s.phase) : t.PhaseOk sha256 m := by
  unfold PhaseOk at hs ⊢
  rw [hphase]
  cases hp : s.phase with
  | verifying => trivial
  | rejected => trivial
  | downloading e rest attempt stage =>
      rw [hp] at hs
      exact absurd hkey (hs.1.checked v hv key)
  | resolved targets =>
      rw [hp] at hs
      exact absurd hkey (hs.checked v hv key)

/-! ## One step -/

/-- The invariant of the machine. -/
def Inv (m : Manifest) (initial : Disk β) (s : ModelManager β) : Prop :=
  s.Base sha256 manifestHash bytesAt used m initial ∧ s.PhaseOk sha256 m

/-- The loop over the missing models goes on, or all models are there. -/
theorem phaseOk_downloadNext {s : ModelManager β} {todo : List ModelEntry}
    (hs : s.Pending sha256 m todo) : (s.downloadNext todo).PhaseOk sha256 m := by
  cases todo with
  | nil => exact pending_of_fields sha256 hs rfl rfl
  | cons e rest => exact ⟨pending_of_fields sha256 hs rfl rfl, trivial⟩

theorem phaseOk_attemptFailed {s : ModelManager β} {e : ModelEntry} {rest : List ModelEntry}
    (attempt : ℕ) (hs : s.Pending sha256 m (e :: rest)) :
    (s.attemptFailed e rest attempt).PhaseOk sha256 m := by
  unfold attemptFailed
  split
  · trivial
  · exact ⟨pending_of_fields sha256 hs rfl rfl, trivial⟩

theorem base_downloadNext {s : ModelManager β} (todo : List ModelEntry)
    (hs : s.Base sha256 manifestHash bytesAt used m initial) :
    (s.downloadNext todo).Base sha256 manifestHash bytesAt used m initial := by
  cases todo with
  | nil => exact base_of_fields sha256 manifestHash bytesAt used hs rfl rfl hs.written
  | cons e rest => exact base_of_fields sha256 manifestHash bytesAt used hs rfl rfl hs.written

theorem base_attemptFailed {s : ModelManager β} (e : ModelEntry) (rest : List ModelEntry)
    (attempt : ℕ) (hs : s.Base sha256 manifestHash bytesAt used m initial) :
    (s.attemptFailed e rest attempt).Base sha256 manifestHash bytesAt used m initial := by
  unfold attemptFailed
  split
  · exact base_of_fields sha256 manifestHash bytesAt used hs rfl rfl hs.written
  · exact base_of_fields sha256 manifestHash bytesAt used hs rfl rfl hs.written

/-- All checks are done: what is not valid is downloaded. -/
theorem pending_invalid {s : ModelManager β}
    (hs : s.Base sha256 manifestHash bytesAt used m initial)
    (hall : ∀ v ∈ s.verifications, v.2 = .done true ∨ v.2 = .done false) :
    s.Pending sha256 m (invalid s.verifications) := by
  refine ⟨?_, ?_, ?_⟩
  · intro v hv key hkey
    rcases hall v hv with hdone | hdone
    · rw [hkey] at hdone
      cases hdone
    · rw [hkey] at hdone
      cases hdone
  · intro e he
    obtain ⟨v, hv, rfl⟩ := List.mem_map.mp he
    rw [← hs.entries]
    exact List.mem_map_of_mem (List.mem_filter.mp hv).1
  · intro e he
    rw [← hs.entries] at he
    obtain ⟨v, hv, rfl⟩ := List.mem_map.mp he
    rcases hall v hv with hdone | hdone
    · exact .inl (hs.valid v hv hdone)
    · exact .inr (List.mem_map_of_mem (List.mem_filter.mpr ⟨hv, decide_eq_true hdone⟩))

/-- An attempt that fails leaves the disk as it is. -/
theorem inv_attemptFailed {s : ModelManager β} {e : ModelEntry} {rest : List ModelEntry}
    (attempt : ℕ) (hbase : s.Base sha256 manifestHash bytesAt used m initial)
    (hpending : s.Pending sha256 m (e :: rest)) :
    (s.attemptFailed e rest attempt).Inv sha256 manifestHash bytesAt used m initial :=
  ⟨base_attemptFailed sha256 manifestHash bytesAt used e rest attempt hbase,
    phaseOk_attemptFailed sha256 attempt hpending⟩

/-- The download goes on to another stage. -/
theorem inv_goOn {s : ModelManager β} {e : ModelEntry} {rest : List ModelEntry} (attempt : ℕ)
    (stage : Stage β) (hbase : s.Base sha256 manifestHash bytesAt used m initial)
    (hpending : s.Pending sha256 m (e :: rest)) (hstage : s.StageOk sha256 e stage) :
    { s with phase := .downloading e rest attempt stage }.Inv sha256 manifestHash bytesAt used m
      initial := by
  refine ⟨base_of_fields sha256 manifestHash bytesAt used hbase rfl rfl hbase.written,
    pending_of_fields sha256 hpending rfl rfl, ?_⟩
  cases stage with
  | placing temp => exact hstage
  | recording => exact hstage
  | describing => exact hstage
  | _ => trivial

/-- A write of the checksums keeps the models and what is still to be done. -/
theorem saved_saveChecksums {s : ModelManager β} {c : Checksums} (write : Write)
    {todo : List ModelEntry} {e : ModelEntry}
    (hbase : s.Base sha256 manifestHash bytesAt used m initial)
    (hpending : s.Pending sha256 m todo) (he : s.disk.HasModel sha256 e)
    (hc : WrittenByCode sha256 manifestHash bytesAt used (.holds c)) :
    { s with disk := s.disk.saveChecksums c write }.Base sha256 manifestHash bytesAt used m
        initial ∧
      { s with disk := s.disk.saveChecksums c write }.Pending sha256 m todo ∧
      (s.disk.saveChecksums c write).HasModel sha256 e := by
  have hmodels := Disk.models_saveChecksums s.disk c write
  refine ⟨?_, pending_of_fields sha256 hpending hmodels rfl, ?_⟩
  · exact base_of_fields sha256 manifestHash bytesAt used hbase hmodels rfl
      (written_saveChecksums sha256 manifestHash bytesAt used write hbase.written hc)
  · unfold Disk.HasModel
    rw [hmodels]
    exact he

/-- A model that has its file need not be downloaded any more. -/
theorem pending_tail {s : ModelManager β} {e : ModelEntry} {rest : List ModelEntry}
    (hs : s.Pending sha256 m (e :: rest)) (he : s.disk.HasModel sha256 e) :
    s.Pending sha256 m rest := by
  refine ⟨hs.checked, fun e' he' => hs.listed e' (List.mem_cons_of_mem _ he'), ?_⟩
  intro e' he'
  rcases hs.others e' he' with hhas | hleft
  · exact .inl hhas
  · rcases List.mem_cons.mp hleft with rfl | hleft
    · exact .inl he
    · exact .inr hleft

/-- The rename puts verified bytes at the target path. -/
theorem inv_renamed {s : ModelManager β} {e : ModelEntry} {rest : List ModelEntry} {attempt : ℕ}
    {temp : β} {stamp : Stamp} (hbase : s.Base sha256 manifestHash bytesAt used m initial)
    (hpending : s.Pending sha256 m (e :: rest)) (htemp : sha256 temp = e.sha256)
    (hstamp : bytesAt e.target stamp = temp) :
    { s with
      disk := s.disk.rename e.target ⟨temp, stamp⟩
      phase := .downloading e rest attempt .recording }.Inv sha256 manifestHash bytesAt used m
        initial := by
  have he : e ∈ m.models := hpending.listed e (List.mem_cons_self ..)
  have hkeep {e' : ModelEntry} (he' : e' ∈ m.models) (h : s.disk.HasModel sha256 e') :
      (s.disk.rename e.target ⟨temp, stamp⟩).HasModel sha256 e' :=
    hasModel_rename sha256 he he' htemp h
  have hself : (s.disk.rename e.target ⟨temp, stamp⟩).HasModel sha256 e :=
    ⟨⟨temp, stamp⟩, Function.update_self .., htemp⟩
  have hentry : ∀ v ∈ s.verifications, v.1 ∈ m.models := by
    intro v hv
    rw [← hbase.entries]
    exact List.mem_map_of_mem hv
  refine ⟨⟨?_, ?_, hbase.written, hbase.entries, ?_, ?_⟩, ⟨hpending.checked, hpending.listed, ?_⟩,
    hself⟩
  · intro e' he'
    by_cases htarget : e'.target = e.target
    · obtain rfl := eq_of_target_eq he' he htarget
      exact .inr hself
    · rcases hbase.targets e' he' with hinitial | hhas
      · refine .inl ?_
        show Function.update s.disk.models e.target _ e'.target = _
        rw [Function.update_of_ne htarget]
        exact hinitial
      · exact .inr (hkeep he' hhas)
  · exact stamped_rename bytesAt hbase.stamped hstamp
  · intro v hv key hkey
    exact absurd hkey (hpending.checked v hv key)
  · intro v hv hdone
    exact hkeep (hentry v hv) (hbase.valid v hv hdone)
  · intro e' he'
    exact (hpending.others e' he').imp_left (hkeep he')

section Steps

variable [DecidableEq β]

theorem inv_verified {s t : ModelManager β} (hs : s.Inv sha256 manifestHash bytesAt used m initial)
    (h : s.step sha256 bytesAt .verified = some t) :
    t.Inv sha256 manifestHash bytesAt used m initial := by
  obtain ⟨hbase, hphaseOk⟩ := hs
  simp only [step] at h
  split at h
  · split at h
    · obtain rfl := Option.some.inj h
      exact ⟨base_of_fields sha256 manifestHash bytesAt used hbase rfl rfl hbase.written, trivial⟩
    · split at h
      next hall =>
        obtain rfl := Option.some.inj h
        have hdone : ∀ v ∈ s.verifications, v.2 = .done true ∨ v.2 = .done false := fun v hv =>
          of_decide_eq_true (List.all_eq_true.mp hall v hv)
        have hpending := pending_invalid sha256 manifestHash bytesAt used hbase hdone
        refine ⟨base_downloadNext sha256 manifestHash bytesAt used _ ?_,
          phaseOk_downloadNext sha256 (pending_of_fields sha256 hpending rfl rfl)⟩
        exact base_of_fields sha256 manifestHash bytesAt used hbase rfl rfl hbase.written
      · cases h
  · cases h

theorem inv_hashed {s t : ModelManager β} {i : ℕ} {write : Write} (hm : m ∈ used)
    (hs : s.Inv sha256 manifestHash bytesAt used m initial)
    (h : s.step sha256 bytesAt (.hashed i write) = some t) :
    t.Inv sha256 manifestHash bytesAt used m initial := by
  obtain ⟨hbase, hphaseOk⟩ := hs
  simp only [step] at h
  split at h
  next e key hi =>
    split at h
    · cases h
    next f hf =>
      obtain rfl := Option.some.inj h
      have hv : (e, Verification.hashing key) ∈ s.verifications := List.mem_of_getElem? hi
      obtain ⟨g, hg, rfl⟩ := hbase.hashing _ hv key rfl
      obtain rfl : f = g := Option.some.inj (hf.symm.trans hg)
      have he : e ∈ m.models := by
        rw [← hbase.entries]
        exact List.mem_map_of_mem hv
      -- The entry written is the one of the stamp that was looked up.
      have hentry : WrittenByCode sha256 manifestHash bytesAt used
          (.holds (s.disk.checksums.load.setCache e.id
            ⟨⟨manifestHash m.json, f.stamp⟩, sha256 (bytesAt e.target f.stamp)⟩)) :=
        .hashed f.stamp hbase.written hm he
      rw [hbase.stamped _ _ hf] at hentry
      have hwritten := written_saveChecksums sha256 manifestHash bytesAt used write hbase.written
        hentry
      refine ⟨base_of_fields sha256 manifestHash bytesAt used
        (base_setVerification sha256 manifestHash bytesAt used hbase hi ?_ ?_)
        (Disk.models_saveChecksums ..) rfl hwritten,
        phaseOk_of_hashing sha256 hphaseOk hv rfl rfl⟩
      · intro key
        split
        · nofun
        · nofun
      · intro hdone
        split at hdone
        · exact ⟨f, hf, of_decide_eq_true (Verification.done.inj hdone)⟩
        · cases hdone
  · cases h

theorem inv_hashThrows {s t : ModelManager β} {i : ℕ}
    (hs : s.Inv sha256 manifestHash bytesAt used m initial)
    (h : s.step sha256 bytesAt (.hashThrows i) = some t) :
    t.Inv sha256 manifestHash bytesAt used m initial := by
  obtain ⟨hbase, hphaseOk⟩ := hs
  simp only [step] at h
  split at h
  next e key hi =>
    obtain rfl := Option.some.inj h
    exact ⟨base_setVerification sha256 manifestHash bytesAt used hbase hi nofun nofun,
      phaseOk_of_hashing sha256 hphaseOk (List.mem_of_getElem? hi) rfl rfl⟩
  · cases h

theorem inv_downloadStep {s t : ModelManager β} {e : ModelEntry} {rest : List ModelEntry}
    {attempt : ℕ} {stage : Stage β} {l : Label β}
    (hbase : s.Base sha256 manifestHash bytesAt used m initial)
    (hpending : s.Pending sha256 m (e :: rest)) (hstage : s.StageOk sha256 e stage)
    (h : s.downloadStep sha256 bytesAt e rest attempt stage l = some t) :
    t.Inv sha256 manifestHash bytesAt used m initial := by
  unfold downloadStep at h
  split at h
  -- `fetched`
  · split at h
    · cases h
    · obtain rfl := Option.some.inj h
      exact inv_goOn sha256 manifestHash bytesAt used attempt (.checking _) hbase hpending trivial
  -- `checked`
  · split at h
    next hequal =>
      obtain rfl := Option.some.inj h
      exact inv_goOn sha256 manifestHash bytesAt used attempt (.placing _) hbase hpending hequal
    · obtain rfl := Option.some.inj h
      exact inv_attemptFailed sha256 manifestHash bytesAt used attempt hbase hpending
  -- `renamed`
  · split at h
    next hstamp =>
      obtain rfl := Option.some.inj h
      exact inv_renamed sha256 manifestHash bytesAt used hbase hpending hstage hstamp
    · cases h
  -- `recorded`
  · split at h
    · cases h
    next f hf =>
      obtain ⟨hsaved, hleft, hhas⟩ := saved_saveChecksums sha256 manifestHash bytesAt used _ hbase
        hpending hstage (.recorded e f.stamp hbase.written)
      split at h
      · obtain rfl := Option.some.inj h
        exact inv_goOn sha256 manifestHash bytesAt used attempt .describing hsaved hleft hhas
      · obtain rfl := Option.some.inj h
        exact inv_attemptFailed sha256 manifestHash bytesAt used attempt hsaved hleft
  -- `described`
  · split at h
    · obtain ⟨hsaved, hleft, hhas⟩ := saved_saveChecksums sha256 manifestHash bytesAt used _ hbase
        hpending hstage (.described e hbase.written)
      split at h
      · obtain rfl := Option.some.inj h
        exact ⟨base_downloadNext sha256 manifestHash bytesAt used rest hsaved,
          phaseOk_downloadNext sha256 (pending_tail sha256 hleft hhas)⟩
      · obtain rfl := Option.some.inj h
        exact inv_attemptFailed sha256 manifestHash bytesAt used attempt hsaved hleft
    · obtain rfl := Option.some.inj h
      exact inv_attemptFailed sha256 manifestHash bytesAt used attempt hbase hpending
  -- `retry`
  · obtain rfl := Option.some.inj h
    exact inv_goOn sha256 manifestHash bytesAt used (attempt + 1) .fetching hbase hpending trivial
  · cases h
  -- `attemptThrows`
  · obtain rfl := Option.some.inj h
    exact inv_attemptFailed sha256 manifestHash bytesAt used attempt hbase hpending
  · cases h

theorem inv_step {s t : ModelManager β} {l : Label β} (hm : m ∈ used)
    (hs : s.Inv sha256 manifestHash bytesAt used m initial)
    (h : s.step sha256 bytesAt l = some t) :
    t.Inv sha256 manifestHash bytesAt used m initial := by
  cases l with
  | hashed i write => exact inv_hashed sha256 manifestHash bytesAt used hm hs h
  | hashThrows i => exact inv_hashThrows sha256 manifestHash bytesAt used hs h
  | verified => exact inv_verified sha256 manifestHash bytesAt used hs h
  | _ =>
      -- Every other label is a step of the download under way.
      simp only [step] at h
      split at h
      next e rest attempt stage hphase =>
        obtain ⟨hbase, hphaseOk⟩ := hs
        unfold PhaseOk at hphaseOk
        rw [hphase] at hphaseOk
        exact inv_downloadStep sha256 manifestHash bytesAt used hbase hphaseOk.1 hphaseOk.2 h
      · cases h

/-- **Only verified bytes.**  In every state of every run each target file is as it was
before or has the manifest's hash, and once `verifyOrDownload` has resolved every one
has the manifest's hash. -/
theorem verifyOrDownload_verified {labels : List (Label β)} {u : ModelManager β}
    {statThrows : Text → Bool} (hm : m ∈ used)
    -- What the code relies on from SHA-256: digests of 64 digits that do not collide.
    (hdigits : ∀ json, (manifestHash json).length = 64)
    (hcollision : Set.InjOn (fun m : Manifest => manifestHash m.json) used)
    (hwritten : WrittenByCode sha256 manifestHash bytesAt used initial.checksums)
    (hstamped : initial.Stamped bytesAt)
    (hrun : execute (step sha256 bytesAt) (start manifestHash m initial statThrows) labels =
      some u) :
    (∀ e ∈ m.models, u.disk.models e.target = initial.models e.target ∨
        u.disk.HasModel sha256 e) ∧
      ∀ targets, u.phase = .resolved targets → ∀ e ∈ m.models, u.disk.HasModel sha256 e := by
  have hunknown : manifestHash m.json ≠ unknownHash := by
    intro hsame
    have hlength := hdigits m.json
    rw [hsame] at hlength
    exact absurd hlength (by decide)
  have hstart : (start manifestHash m initial statThrows).Inv sha256 manifestHash bytesAt used m
      initial :=
    ⟨base_start sha256 manifestHash bytesAt used hm hcollision hunknown hwritten hstamped
      statThrows, trivial⟩
  have hinv : u.Inv sha256 manifestHash bytesAt used m initial := by
    refine execute_invariant (step sha256 bytesAt)
      (fun s => s.Inv sha256 manifestHash bytesAt used m initial) hstart ?_ hrun
    intro a l b ha _ hstep
    exact inv_step sha256 manifestHash bytesAt used hm ha hstep
  obtain ⟨hbase, hphaseOk⟩ := hinv
  refine ⟨hbase.targets, ?_⟩
  intro targets hresolved e he
  unfold PhaseOk at hphaseOk
  rw [hresolved] at hphaseOk
  rcases hphaseOk.others e he with hhas | hleft
  · exact hhas
  · cases hleft

end Steps

/-! ## One model cached, one downloaded at the second attempt -/

/-- A digest of 64 digits for files that are told apart by their size. -/
def sizeDigest (size : ℕ) : Text := List.replicate 64 (Char.ofNat (97 + size))

def encoderEntry : ModelEntry :=
  ⟨"encoder".toList, sizeDigest 2, some "encoder.onnx".toList,
    some "https://models/encoder.onnx".toList, none⟩

def tokensEntry : ModelEntry :=
  ⟨"tokens.txt".toList, sizeDigest 3, none, some "https://models/tokens.txt".toList, none⟩

def twoModels : Manifest :=
  ⟨"manifest".toList, [encoderEntry, tokensEntry], by decide, by decide⟩

/-- The digest of the manifest's text. -/
def textDigest (_ : Text) : Text := List.replicate 64 '0'

/-- The encoder has been checked before, the tokens are missing. -/
def encoderCached : Disk ℕ where
  models := Function.update (fun _ => none) "encoder.onnx".toList (some ⟨2, 2, 1000⟩)
  checksums := .holds (Checksums.empty.setCache "encoder".toList
    ⟨⟨textDigest twoModels.json, 2, 1000⟩, sizeDigest 2⟩)

/-- The first download of the tokens is corrupt. -/
def secondAttempt : List (Label ℕ) :=
  [.verified, .fetched 7, .checked, .retry, .fetched 3, .checked, .renamed ⟨3, 2000⟩,
    .recorded .ok, .described true .ok]

theorem secondAttempt_verified :
    ∃ u : ModelManager ℕ,
      execute (step sizeDigest fun _ stamp => stamp.size)
          (start textDigest twoModels encoderCached fun _ => false) secondAttempt = some u ∧
        u.disk.HasModel sizeDigest encoderEntry ∧ u.disk.HasModel sizeDigest tokensEntry := by
  have hrun : (execute (step sizeDigest fun _ stamp => stamp.size)
      (start textDigest twoModels encoderCached fun _ => false) secondAttempt).isSome = true := by
    decide +kernel
  obtain ⟨u, hu⟩ := Option.isSome_iff_exists.mp hrun
  have hwritten : WrittenByCode sizeDigest textDigest (fun _ stamp => stamp.size) {twoModels}
      encoderCached.checksums :=
    .hashed (m := twoModels) (e := encoderEntry) ⟨2, 1000⟩ .missing rfl (List.mem_cons_self ..)
  have hstamped : encoderCached.Stamped fun _ stamp => stamp.size :=
    stamped_rename (d := ⟨fun _ => none, .missing⟩) _ nofun rfl
  have hresolved : (execute (step sizeDigest fun _ stamp => stamp.size)
      (start textDigest twoModels encoderCached fun _ => false) secondAttempt).map
        (fun u => match u.phase with
          | .resolved targets => targets
          | _ => []) = some ["tokens.txt".toList] := by decide +kernel
  rw [hu, Option.map_some, Option.some.injEq] at hresolved
  split at hresolved
  next targets hphase =>
    obtain ⟨-, hall⟩ := verifyOrDownload_verified sizeDigest textDigest _ {twoModels} rfl
      (fun _ => List.length_replicate) (Set.injOn_singleton _ _) hwritten hstamped hu
    exact ⟨u, hu, hall targets hphase _ (List.mem_cons_self ..),
      hall targets hphase _ (List.mem_cons_of_mem _ (List.mem_cons_self ..))⟩
  · cases hresolved

end ModelManager

end Machine

end Models
end AvaListener
