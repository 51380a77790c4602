import AvaListener.Models.ModelManager

/-!
# Verifications that share `checksums.json`

The `verify_model` calls that `verifyOrDownload` and `verify_models` start together, from
the first `await` of each to the `Promise.all`.  The hash computations end in any order and
with any result; what a call does after its own runs to completion: it loads
`checksums.json` anew, sets its own cache entry and saves the file.

A manifest is only asked for distinct ids here; several models may share a target file.

The file is loaded anew after each `await`, so no call loses another's update.  What can be
lost is an entry of its own: the cache is a JavaScript object, and that of a model named
`__proto__` becomes its prototype unless the file holds such an entry already.
-/

namespace AvaListener
namespace Models

open Library

variable {β : Type*}

/-- The calls, the disk, and every cache entry computed so far. -/
structure ConcurrentChecks (β : Type*) where
  disk : Disk β
  verifications : List (ModelEntry × Verification)
  /-- Not in the program: id and entry of each hash that came, oldest first. -/
  computed : List (Text × CacheEntry)

/-- How a hash computation ends. -/
inductive HashEnd where
  | hashed (i : ℕ) (hash : Text) (write : Write)
  | hashThrows (i : ℕ)
  deriving DecidableEq

namespace ConcurrentChecks

/-- `Promise.all(manifest.models.map(…))`, up to the first `await` of each call. -/
def start (manifestHash : Text) (models : List ModelEntry) (d : Disk β)
    (statThrows : Text → Bool) : ConcurrentChecks β where
  disk := d
  verifications := models.map fun e => (e, verifyModel d manifestHash (statThrows e.target) e)
  computed := []

/-- `verify_model` after its `await`. -/
def resume (s : ConcurrentChecks β) : HashEnd → Option (ConcurrentChecks β)
  | .hashed i hash write =>
      match s.verifications[i]? with
      | some (e, .hashing key) =>
          let latestLoaded := s.disk.checksums.load
          let outcome :=
            if write = .ok then Verification.done (hash = e.sha256) else .threw
          some {
            disk := s.disk.saveChecksums (latestLoaded.setCache e.id ⟨key, hash⟩) write
            verifications := s.verifications.set i (e, outcome)
            computed := s.computed ++ [(e.id, ⟨key, hash⟩)] }
      | _ => none
  | .hashThrows i =>
      match s.verifications[i]? with
      | some (e, .hashing _) => some { s with verifications := s.verifications.set i (e, .threw) }
      | _ => none

/-- Every call has resolved. -/
def AllResolved (s : ConcurrentChecks β) : Prop :=
  ∀ v ∈ s.verifications, ∃ valid, v.2 = .done valid

instance (s : ConcurrentChecks β) : Decidable s.AllResolved :=
  inferInstanceAs (Decidable (∀ v ∈ s.verifications, ∃ valid, v.2 = .done valid))

/-- Some call has rejected. -/
def Rejected (s : ConcurrentChecks β) : Prop :=
  ∃ v ∈ s.verifications, v.2 = .threw

theorem not_rejected_of_allResolved {s : ConcurrentChecks β} (h : s.AllResolved) :
    ¬ s.Rejected := by
  rintro ⟨v, hv, hthrew⟩
  obtain ⟨valid, hdone⟩ := h v hv
  rw [hdone] at hthrew
  cases hthrew

/-! ## What one completion does -/

/-- Both completions: the call was at its `await`, and is over afterwards. -/
theorem resume_cases {s t : ConcurrentChecks β} {l : HashEnd} (h : s.resume l = some t) :
    ∃ i e key, s.verifications[i]? = some (e, .hashing key) ∧
      ((∃ hash, t.disk.checksums = .holds (s.disk.checksums.load.setCache e.id ⟨key, hash⟩) ∧
          t.verifications = s.verifications.set i (e, .done (hash = e.sha256)) ∧
          t.computed = s.computed ++ [(e.id, ⟨key, hash⟩)]) ∨
        t.verifications = s.verifications.set i (e, .threw)) := by
  cases l with
  | hashed i hash write =>
      simp only [resume] at h
      split at h
      · rename_i e key hi
        obtain rfl := Option.some.inj h
        refine ⟨i, e, key, hi, ?_⟩
        cases write with
        | ok => exact .inl ⟨hash, rfl, rfl, rfl⟩
        | untouched => exact .inr rfl
        | cutShort => exact .inr rfl
      · cases h
  | hashThrows i =>
      simp only [resume] at h
      split at h
      · rename_i e key hi
        obtain rfl := Option.some.inj h
        exact ⟨i, e, key, hi, .inr rfl⟩
      · cases h

/-- A call that has thrown stays so. -/
theorem rejected_resume {s t : ConcurrentChecks β} {l : HashEnd} (h : s.resume l = some t)
    (hs : s.Rejected) : t.Rejected := by
  obtain ⟨v, hv, hthrew⟩ := hs
  obtain ⟨j, hj⟩ := List.mem_iff_getElem?.mp hv
  obtain ⟨i, e, key, hi, hcase⟩ := resume_cases h
  have hne : i ≠ j := by
    rintro rfl
    obtain rfl := Option.some.inj (hi.symm.trans hj)
    cases hthrew
  have hstill : ∀ w, (s.verifications.set i w)[j]? = some v := fun w => by
    rw [List.getElem?_set_ne hne, hj]
  refine ⟨v, List.mem_iff_getElem?.mpr ⟨j, ?_⟩, hthrew⟩
  rcases hcase with ⟨hash, -, ht, -⟩ | ht
  · rw [ht, hstill]
  · rw [ht, hstill]

/-! ## No update is lost -/

/-- The file holds what was computed, and else what it held before. -/
structure KeepsUpdates (before : Checksums) (s : ConcurrentChecks β) : Prop where
  held : ∀ u ∈ s.computed, s.disk.checksums.load.cache.get? u.1 = some u.2
  others : ∀ id, id ∉ s.computed.map Prod.fst →
    s.disk.checksums.load.cache.get? id = before.cache.get? id
  files : s.disk.checksums.load.files = before.files

/-- An entry under this id can be set: only that of `__proto__` has to be there already. -/
def Storable (before : Checksums) (id : Text) : Prop :=
  id = protoKey → before.cache.get? id ≠ none

/-- The file holds what was computed and can be stored, and else what it held before. -/
structure KeepsStorable (before : Checksums) (s : ConcurrentChecks β) : Prop where
  held : ∀ u ∈ s.computed, Storable before u.1 →
    s.disk.checksums.load.cache.get? u.1 = some u.2
  lost : ∀ id, ¬ Storable before id → s.disk.checksums.load.cache.get? id = none
  others : ∀ id, id ∉ s.computed.map Prod.fst →
    s.disk.checksums.load.cache.get? id = before.cache.get? id
  files : s.disk.checksums.load.files = before.files

theorem not_storable_iff {before : Checksums} {id : Text} :
    ¬ Storable before id ↔ id = protoKey ∧ before.cache.get? protoKey = none := by
  unfold Storable
  constructor
  · intro h
    obtain ⟨rfl, hnone⟩ := Classical.not_imp.mp h
    exact ⟨rfl, not_not.mp hnone⟩
  · rintro ⟨rfl, hnone⟩ h
    exact h rfl hnone

/-- All updates are kept exactly when all of them can be stored. -/
theorem KeepsStorable.keepsUpdates_iff {before : Checksums} {s : ConcurrentChecks β}
    (h : s.KeepsStorable before) :
    s.KeepsUpdates before ↔ ∀ u ∈ s.computed, Storable before u.1 := by
  constructor
  · intro hkeeps u hu
    by_contra hnot
    have hnone := h.lost u.1 hnot
    rw [hkeeps.held u hu] at hnone
    cases hnone
  · intro hall
    exact ⟨fun u hu => h.held u hu (hall u hu), h.others, h.files⟩

/-- What can be stored at the beginning still can. -/
theorem KeepsStorable.storable {before : Checksums} {s : ConcurrentChecks β}
    (h : s.KeepsStorable before) {id : Text} (hid : Storable before id) :
    Storable s.disk.checksums.load id := by
  intro hproto
  by_cases hmem : id ∈ s.computed.map Prod.fst
  · obtain ⟨u, hu, rfl⟩ := List.mem_map.mp hmem
    rw [h.held u hu hid]
    nofun
  · rw [h.others id hmem]
    exact hid hproto

/-- What holds between the calls and the entries they have computed. -/
structure Tracks (first : List (ModelEntry × Verification)) (s : ConcurrentChecks β) : Prop where
  ids : (s.verifications.map fun v => v.1.id).Nodup
  /-- The calls still at their `await` have computed nothing. -/
  pending : ∀ e key, (e, .hashing key) ∈ s.verifications →
    (e, .hashing key) ∈ first ∧ e.id ∉ s.computed.map Prod.fst
  /-- The others have, unless they never came to it. -/
  hashed : ∀ e key, (e, .hashing key) ∈ first →
    (e, .hashing key) ∈ s.verifications ∨ ∃ hash, (e.id, ⟨key, hash⟩) ∈ s.computed
  known : ∀ u ∈ s.computed, ∃ e, (e, .hashing u.2.key) ∈ first ∧ e.id = u.1

theorem tracks_start {manifestHash : Text} {models : List ModelEntry} {d : Disk β}
    {statThrows : Text → Bool} (hids : (models.map ModelEntry.id).Nodup) :
    Tracks (start manifestHash models d statThrows).verifications
      (start manifestHash models d statThrows) where
  ids := by
    rw [start, List.map_map]
    exact hids
  pending := fun e key he => ⟨he, List.not_mem_nil⟩
  hashed := fun e key he => .inl he
  known := fun _ hu => absurd hu List.not_mem_nil

theorem keepsStorable_start (manifestHash : Text) (models : List ModelEntry) (d : Disk β)
    (statThrows : Text → Bool) :
    KeepsStorable d.checksums.load (start manifestHash models d statThrows) where
  held := fun _ hu => absurd hu List.not_mem_nil
  lost := by
    intro id hnot
    obtain ⟨rfl, hnone⟩ := not_storable_iff.mp hnot
    exact hnone
  others := fun _ _ => rfl
  files := rfl

/-- The other calls at their `await`, which are those with another id. -/
theorem mem_set_done {calls : List (ModelEntry × Verification)} {i : ℕ} {e e' : ModelEntry}
    {key key' : CacheKey} {valid : Bool} (hids : (calls.map fun v => v.1.id).Nodup)
    (hi : calls[i]? = some (e, .hashing key)) :
    (e', .hashing key') ∈ calls.set i (e, .done valid) ↔
      (e', .hashing key') ∈ calls ∧ e'.id ≠ e.id := by
  have hlt := (List.getElem?_eq_some_iff.mp hi).1
  constructor
  · intro h
    obtain ⟨j, hj⟩ := List.mem_iff_getElem?.mp h
    have hij : i ≠ j := by
      rintro rfl
      rw [List.getElem?_set_self hlt] at hj
      cases hj
    rw [List.getElem?_set_ne hij] at hj
    refine ⟨List.mem_of_getElem? hj, fun hid => hij ?_⟩
    have hsame : (calls.map fun v => v.1.id)[i]? = (calls.map fun v => v.1.id)[j]? := by
      rw [List.getElem?_map, List.getElem?_map, hi, hj]
      exact congrArg some hid.symm
    refine (List.getElem?_inj ?_ hids).mp hsame
    rwa [List.length_map]
  · rintro ⟨h, hne⟩
    obtain ⟨j, hj⟩ := List.mem_iff_getElem?.mp h
    have hij : i ≠ j := by
      rintro rfl
      cases hi.symm.trans hj
      exact hne rfl
    exact List.mem_iff_getElem?.mpr ⟨j, by rw [List.getElem?_set_ne hij, hj]⟩

/-- The step on which everything rests: the file loaded after the `await` holds the updates
of all the calls that were faster. -/
theorem keepsStorable_hashed {first : List (ModelEntry × Verification)} {before : Checksums}
    {s t : ConcurrentChecks β} {e : ModelEntry} {key : CacheKey} {hash : Text}
    (hs : Tracks first s) (hkeeps : s.KeepsStorable before)
    (he : (e, .hashing key) ∈ s.verifications)
    (hdisk : t.disk.checksums = .holds (s.disk.checksums.load.setCache e.id ⟨key, hash⟩))
    (hcomputed : t.computed = s.computed ++ [(e.id, ⟨key, hash⟩)]) :
    t.KeepsStorable before := by
  have hnew := (hs.pending e key he).2
  have hload : t.disk.checksums.load =
      s.disk.checksums.load.setCache e.id ⟨key, hash⟩ := by
    rw [hdisk]
    rfl
  refine ⟨?_, ?_, ?_, ?_⟩
  · intro u hu hstorable
    rw [hcomputed, List.mem_append, List.mem_singleton] at hu
    rw [hload]
    rcases hu with hu | rfl
    · -- An entry written before is another model's: this call had computed nothing.
      have hne : u.1 ≠ e.id := by
        rintro heq
        exact hnew (heq ▸ List.mem_map_of_mem hu)
      rw [Checksums.get?_setCache_of_ne _ _ hne, hkeeps.held u hu hstorable]
    · exact Checksums.get?_setCache_self _ _ (hkeeps.storable hstorable)
  · intro id hnot
    have hnone := hkeeps.lost id hnot
    obtain ⟨rfl, -⟩ := not_storable_iff.mp hnot
    rw [hload]
    by_cases hid : protoKey = e.id
    · rw [← hid]
      exact Checksums.get?_setCache_protoKey _ hnone
    · rw [Checksums.get?_setCache_of_ne _ _ hid, hnone]
  · intro id hid
    rw [hcomputed, List.map_append, List.mem_append, not_or] at hid
    have hne : id ≠ e.id := fun heq => hid.2 (List.mem_singleton.mpr heq)
    rw [hload, Checksums.get?_setCache_of_ne _ _ hne, hkeeps.others id hid.1]
  · rw [hload, Checksums.files_setCache]
    exact hkeeps.files

theorem tracks_hashed {first : List (ModelEntry × Verification)} {s t : ConcurrentChecks β}
    {i : ℕ} {e : ModelEntry} {key : CacheKey} {hash : Text} {valid : Bool}
    (hs : Tracks first s) (hi : s.verifications[i]? = some (e, .hashing key))
    (ht : t.verifications = s.verifications.set i (e, .done valid))
    (hcomputed : t.computed = s.computed ++ [(e.id, ⟨key, hash⟩)]) : Tracks first t := by
  have he : (e, .hashing key) ∈ s.verifications := List.mem_of_getElem? hi
  refine ⟨?_, ?_, ?_, ?_⟩
  · have hids := congrArg (List.map ModelEntry.id) (map_fst_set hi (.done valid))
    rw [List.map_map, List.map_map] at hids
    rw [ht]
    exact hids ▸ hs.ids
  · intro e' key' he'
    rw [ht, mem_set_done hs.ids hi] at he'
    obtain ⟨hold, hne⟩ := he'
    refine ⟨(hs.pending e' key' hold).1, ?_⟩
    rw [hcomputed, List.map_append, List.mem_append, not_or]
    exact ⟨(hs.pending e' key' hold).2, fun h => hne (List.mem_singleton.mp h)⟩
  · intro e' key' hfirst
    rw [hcomputed, ht, mem_set_done hs.ids hi]
    rcases hs.hashed e' key' hfirst with hold | ⟨hash', hin⟩
    · by_cases hid : e'.id = e.id
      · -- The ids are distinct, so this is the call that has just completed.
        cases List.inj_on_of_nodup_map hs.ids hold he hid
        exact .inr ⟨hash, List.mem_append_right _ (List.mem_singleton_self _)⟩
      · exact .inl ⟨hold, hid⟩
    · exact .inr ⟨hash', List.mem_append_left _ hin⟩
  · intro u hu
    rw [hcomputed, List.mem_append, List.mem_singleton] at hu
    rcases hu with hu | rfl
    · exact hs.known u hu
    · exact ⟨e, (hs.pending e key he).1, rfl⟩

/-! ## Runs -/

/-- **Step lemma.**  As long as nothing has thrown, the calls are tracked and the file has
every update that can be stored. -/
theorem resume_keepsStorable {first : List (ModelEntry × Verification)} {before : Checksums}
    {s t : ConcurrentChecks β} {l : HashEnd}
    (hs : s.Rejected ∨ Tracks first s ∧ s.KeepsStorable before) (h : s.resume l = some t) :
    t.Rejected ∨ Tracks first t ∧ t.KeepsStorable before := by
  rcases hs with hrejected | ⟨htracks, hkeeps⟩
  · exact .inl (rejected_resume h hrejected)
  obtain ⟨i, e, key, hi, ⟨hash, hdisk, ht, hcomputed⟩ | ht⟩ := resume_cases h
  · exact .inr ⟨tracks_hashed htracks hi ht hcomputed,
      keepsStorable_hashed htracks hkeeps (List.mem_of_getElem? hi) hdisk hcomputed⟩
  · refine .inl ⟨(e, .threw), ?_, rfl⟩
    rw [ht]
    exact List.mem_set (List.getElem?_eq_some_iff.mp hi).1 _

/-- A hash is computed for a model named `__proto__`, of which the file has no entry. -/
def HashesProto (manifestHash : Text) (models : List ModelEntry) (d : Disk β)
    (statThrows : Text → Bool) : Prop :=
  d.checksums.load.cache.get? protoKey = none ∧ ∃ e ∈ models, e.id = protoKey ∧
    ∃ key, verifyModel d manifestHash (statThrows e.target) e = .hashing key

/-- **When no verification's update is lost.**  Once all calls have resolved, the file holds
the entry of every model whose hash was computed and all else is as it was, exactly unless
one of these models is named `__proto__` without having an entry before.  The hashes computed
are those of the models that came to the hash computation, each under its own cache key. -/
theorem keepsUpdates_iff_of_allResolved (manifestHash : Text) (models : List ModelEntry)
    (d : Disk β) (statThrows : Text → Bool) (ends : List HashEnd) (s : ConcurrentChecks β)
    (hids : (models.map ModelEntry.id).Nodup)
    (hrun : execute resume (start manifestHash models d statThrows) ends = some s)
    (hresolved : s.AllResolved) :
    (s.KeepsUpdates d.checksums.load ↔ ¬ HashesProto manifestHash models d statThrows) ∧
      (∀ e ∈ models, ∀ key,
        verifyModel d manifestHash (statThrows e.target) e = .hashing key →
          ∃ hash, (e.id, ⟨key, hash⟩) ∈ s.computed) ∧
      ∀ u ∈ s.computed, ∃ e ∈ models, e.id = u.1 ∧
        verifyModel d manifestHash (statThrows e.target) e = .hashing u.2.key := by
  have hinv := execute_invariant resume
    (fun s => s.Rejected ∨ Tracks (start manifestHash models d statThrows).verifications s ∧
      s.KeepsStorable d.checksums.load)
    (.inr ⟨tracks_start hids, keepsStorable_start manifestHash models d statThrows⟩)
    (fun _ _ _ ha _ hstep => resume_keepsStorable ha hstep) hrun
  obtain hrejected | ⟨htracks, hkeeps⟩ := hinv
  · exact absurd hrejected (not_rejected_of_allResolved hresolved)
  have hcomputed : ∀ e ∈ models, ∀ key,
      verifyModel d manifestHash (statThrows e.target) e = .hashing key →
        ∃ hash, (e.id, ⟨key, hash⟩) ∈ s.computed := by
    intro e he key hkey
    have hfirst : (e, Verification.hashing key) ∈
        (start manifestHash models d statThrows).verifications :=
      List.mem_map.mpr ⟨e, he, by rw [hkey]⟩
    rcases htracks.hashed e key hfirst with hstill | hdone
    · obtain ⟨valid, hdone⟩ := hresolved _ hstill
      cases hdone
    · exact hdone
  have hknown : ∀ u ∈ s.computed, ∃ e ∈ models, e.id = u.1 ∧
      verifyModel d manifestHash (statThrows e.target) e = .hashing u.2.key := by
    intro u hu
    obtain ⟨e, hfirst, hid⟩ := htracks.known u hu
    obtain ⟨e', he', heq⟩ := List.mem_map.mp hfirst
    obtain ⟨rfl, hkey⟩ := Prod.mk.inj heq
    exact ⟨e', he', hid, hkey⟩
  refine ⟨?_, hcomputed, hknown⟩
  rw [hkeeps.keepsUpdates_iff]
  constructor
  · rintro hall ⟨hnone, e, he, hid, key, hkey⟩
    obtain ⟨hash, hmem⟩ := hcomputed e he key hkey
    exact hall _ hmem hid (hid ▸ hnone)
  · intro hnot u hu hproto hnone
    obtain ⟨e, he, hid, hkey⟩ := hknown u hu
    exact hnot ⟨hproto ▸ hnone, e, he, hid.trans hproto, _, hkey⟩

/-- Three models, of which two share their file. -/
def sharedFile : List ModelEntry :=
  [⟨"encoder".toList, "e2".toList, some "shared.onnx".toList, none, none⟩,
    ⟨"decoder".toList, "d7".toList, some "shared.onnx".toList, none, none⟩,
    ⟨"tokens.txt".toList, "t3".toList, none, none, none⟩]

/-- All files are there; the checksums know a model of an older manifest. -/
def olderChecksums : Disk ℕ where
  models := fun target =>
    if target = "shared.onnx".toList then some ⟨2, 2, 1000⟩ else some ⟨3, 3, 1000⟩
  checksums := .holds (Checksums.empty.setCache "vad.onnx".toList
    ⟨⟨unknownHash, 9, 500⟩, "v9".toList⟩)

theorem reverseOrder_checksums :
    ∃ s : ConcurrentChecks ℕ,
      execute resume (start "m".toList sharedFile olderChecksums fun _ => false)
          [.hashed 2 "t3".toList .ok, .hashed 1 "e2".toList .ok, .hashed 0 "e2".toList .ok] =
        some s ∧ s.KeepsUpdates olderChecksums.checksums.load := by
  have hall : ((execute resume (start "m".toList sharedFile olderChecksums fun _ => false)
      [.hashed 2 "t3".toList .ok, .hashed 1 "e2".toList .ok, .hashed 0 "e2".toList .ok]).any
        fun s => decide s.AllResolved) = true := by decide +kernel
  obtain ⟨s, hrun, hresolved⟩ := (Option.any_eq_true _ _).mp hall
  refine ⟨s, hrun, (keepsUpdates_iff_of_allResolved _ sharedFile _ _ _ s (by decide) hrun
    (of_decide_eq_true hresolved)).1.mpr ?_⟩
  rintro ⟨-, e, he, hid, -⟩
  revert e
  decide +kernel

/-- A model with that name, whose file is there. -/
def protoModel : ModelEntry :=
  ⟨protoKey, "p1".toList, some "proto.onnx".toList, none, none⟩

def protoFile : Disk ℕ where
  models := fun target => if target = "proto.onnx".toList then some ⟨1, 1, 1000⟩ else none
  checksums := .missing

/-- Its hash is computed, its call resolves, and `checksums.json` has no entry for it. -/
theorem protoModel_loses_update :
    ∃ s : ConcurrentChecks ℕ,
      execute resume (start "m".toList [protoModel] protoFile fun _ => false)
          [.hashed 0 "p1".toList .ok] = some s ∧
        s.AllResolved ∧ s.computed.map Prod.fst = [protoKey] ∧
        s.disk.checksums.load.cache.get? protoKey = none ∧
        ¬ s.KeepsUpdates protoFile.checksums.load := by
  have hall : ((execute resume (start "m".toList [protoModel] protoFile fun _ => false)
      [.hashed 0 "p1".toList .ok]).any fun s => decide (s.AllResolved ∧
        s.computed.map Prod.fst = [protoKey] ∧
        s.disk.checksums.load.cache.get? protoKey = none)) = true := by decide +kernel
  obtain ⟨s, hrun, hparts⟩ := (Option.any_eq_true _ _).mp hall
  obtain ⟨hresolved, hcomputed, hnone⟩ := of_decide_eq_true hparts
  refine ⟨s, hrun, hresolved, hcomputed, hnone, ?_⟩
  intro hkeeps
  have hmem : protoKey ∈ s.computed.map Prod.fst := by
    rw [hcomputed]
    exact List.mem_singleton_self _
  obtain ⟨u, hu, hid⟩ := List.mem_map.mp hmem
  have hheld := hkeeps.held u hu
  rw [hid, hnone] at hheld
  cases hheld

/-! ## The checks of `verifyOrDownload` -/

/-- The calls of a `verifyOrDownload`. -/
def ofModelManager (s : ModelManager β) (computed : List (Text × CacheEntry)) :
    ConcurrentChecks β := ⟨s.disk, s.verifications, computed⟩

theorem start_eq_ofModelManager (manifestHash : Text → Text) (m : Manifest) (d : Disk β)
    (statThrows : Text → Bool) :
    start (manifestHash m.json) m.models d statThrows =
      ofModelManager (ModelManager.start manifestHash m d statThrows) [] := rfl

/-- A completion of the model manager's machine is one here. -/
theorem exists_resume_of_step [DecidableEq β] {sha256 : β → Text}
    {bytesAt : Text → Stamp → β} {s t : ModelManager β} {l : Label β}
    (hl : (∃ i write, l = .hashed i write) ∨ ∃ i, l = .hashThrows i)
    (h : s.step sha256 bytesAt l = some t) (computed : List (Text × CacheEntry)) :
    ∃ hashEnd computed', (ofModelManager s computed).resume hashEnd =
      some (ofModelManager t computed') := by
  rcases hl with ⟨i, write, rfl⟩ | ⟨i, rfl⟩
  · simp only [ModelManager.step] at h
    split at h
    · rename_i e key hi
      split at h
      · cases h
      · rename_i f hf
        obtain rfl := Option.some.inj h
        refine ⟨.hashed i (sha256 f.bytes) write,
          computed ++ [(e.id, ⟨key, sha256 f.bytes⟩)], ?_⟩
        simp only [resume, ofModelManager, hi]
    · cases h
  · simp only [ModelManager.step] at h
    split at h
    · rename_i e key hi
      obtain rfl := Option.some.inj h
      refine ⟨.hashThrows i, computed, ?_⟩
      simp only [resume, ofModelManager, hi]
    · cases h

end ConcurrentChecks

end Models
end AvaListener
