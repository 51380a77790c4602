import AvaListener.Config.MergeRule

/-!
# A loaded profile repeats no key

`json.load` returns objects without repeated keys, and nothing that `load_profile` does
to them, migrating, resolving and merging, introduces one.
-/

namespace AvaListener
namespace Config

open Library

/-- What `json.load` returns. -/
def DistinctFiles (files : ProfileFiles) : Prop :=
  ∀ path value, files.get? path = some (some value) → value.DistinctKeys

/-- Assigning to one key, new or old, repeats none. -/
theorem distinctKeys_setEntry {items : List (Text × PyValue)}
    (h : (PyValue.dict items).DistinctKeys) (key : Text) {value : PyValue}
    (hvalue : value.DistinctKeys) : (PyValue.dict (setEntry items key value)).DistinctKeys := by
  refine .dict (setEntry_nodup (nodup_of_distinctKeys h) key value) ?_
  intro e he
  rcases mem_setEntry he with rfl | ⟨hold, -⟩
  · exact hvalue
  · cases h with
    | dict nodup members => exact members e hold

theorem distinctKeys_set {profile : Profile} (h : profile.toValue.DistinctKeys) (key : Text)
    {value : PyValue} (hvalue : value.DistinctKeys) :
    (Profile.toValue (profile.set key value)).DistinctKeys :=
  distinctKeys_setEntry h key hvalue

theorem distinctKeys_empty : Profile.toValue Dict.empty |>.DistinctKeys :=
  .dict List.nodup_nil nofun

/-- A profile that is built entry by entry. -/
theorem distinctKeys_setAll {profile : Profile} (h : profile.toValue.DistinctKeys)
    {pairs : List (Text × PyValue)} (hpairs : ∀ e ∈ pairs, e.2.DistinctKeys) :
    (Profile.toValue (profile.setAll pairs)).DistinctKeys := by
  induction pairs generalizing profile with
  | nil => exact h
  | cons e rest ih =>
      obtain ⟨he, hrest⟩ := List.forall_mem_cons.mp hpairs
      exact ih (distinctKeys_set h e.1 he) hrest

theorem distinctKeys_asProfile {value : PyValue} {profile : Profile} (h : value.DistinctKeys)
    (hprofile : asProfile value = .ok profile) : profile.toValue.DistinctKeys := by
  obtain ⟨items, hitems, rfl⟩ := map_eq_ok_iff.mp hprofile
  cases h with
  | dict nodup members =>
      obtain rfl := Except.ok.inj hitems
      exact distinctKeys_setAll distinctKeys_empty members
  | _ => cases hitems

/-! ## Migrating -/

/-- One phrase: it gets a weight if it has none. -/
theorem distinctKeys_addWeight {phrase migrated : PyValue} (h : phrase.DistinctKeys)
    (hmigrated : addWeight phrase = .ok migrated) : migrated.DistinctKeys := by
  obtain ⟨weighted, -, hrest⟩ := bind_eq_ok_iff.mp hmigrated
  cases weighted with
  | true =>
      obtain rfl := Except.ok.inj hrest
      exact h
  | false =>
      cases phrase with
      | dict items =>
          obtain rfl := Except.ok.inj hrest
          exact distinctKeys_setEntry h _ (.float _)
      | _ => cases hrest

/-- The phrases of a profile, whatever they are: those that cannot be iterated raise. -/
theorem distinctKeys_addWeights {wakePhrases migrated : PyValue} (h : wakePhrases.DistinctKeys)
    (hmigrated : addWeights wakePhrases = .ok migrated) : migrated.DistinctKeys := by
  obtain ⟨elements, helements, hrest⟩ := bind_eq_ok_iff.mp hmigrated
  obtain ⟨phrases, hphrases, hresult⟩ := bind_eq_ok_iff.mp hrest
  cases h with
  | list members =>
      obtain rfl := Except.ok.inj helements
      obtain rfl := Except.ok.inj hresult
      refine .list fun phrase hphrase => ?_
      obtain ⟨source, hsource, hweight⟩ := exists_source_of_mapM hphrases hphrase
      exact distinctKeys_addWeight (members source hsource) hweight
  | str s =>
      obtain rfl := Except.ok.inj hresult
      exact .str s
  | dict nodup members =>
      obtain rfl := Except.ok.inj hresult
      exact .dict nodup members
  | _ => cases helements

theorem distinctKeys_migrateV1ToV2 {profile migrated : Profile} (h : profile.toValue.DistinctKeys)
    (hmigrated : migrateV1ToV2 profile = .ok migrated) : migrated.toValue.DistinctKeys := by
  unfold migrateV1ToV2 at hmigrated
  cases hphrases : profile.get? wakePhrasesKey with
  | none =>
      rw [hphrases] at hmigrated
      obtain rfl := Except.ok.inj hmigrated
      exact distinctKeys_set h _ (.int 2)
  | some wakePhrases =>
      rw [hphrases] at hmigrated
      obtain ⟨weighted, hweighted, rfl⟩ := map_eq_ok_iff.mp hmigrated
      have hmem := DistinctKeys_of_mem h (Dict.get?_eq_some_iff.mp hphrases)
      exact distinctKeys_set (distinctKeys_set h _ (distinctKeys_addWeights hmem hweighted)) _
        (.int 2)

/-- A file's content of either version. -/
theorem distinctKeys_applyMigrations {value : PyValue} {profile : Profile} (h : value.DistinctKeys)
    (hprofile : applyMigrations value = .ok profile) : profile.toValue.DistinctKeys := by
  obtain ⟨parsed, hparsed, hrest⟩ := bind_eq_ok_iff.mp hprofile
  obtain ⟨number, -, hresult⟩ := bind_eq_ok_iff.mp hrest
  have hp := distinctKeys_asProfile h (mapError_eq_ok_iff.mp hparsed)
  split at hresult
  · cases hresult
  · split at hresult
    · split at hresult
      · exact distinctKeys_migrateV1ToV2 hp (mapError_eq_ok_iff.mp hresult)
      · cases hresult
    · obtain rfl := Except.ok.inj hresult
      exact hp

/-! ## Resolving -/

variable {os : OsPath} {files : ProfileFiles}

/-- A file that can be read and migrated. -/
theorem distinctKeys_of_file (hfiles : DistinctFiles files) {path : Text} {profile : Profile}
    (h : readJson files path >>= applyMigrations = .ok profile) :
    profile.toValue.DistinctKeys := by
  obtain ⟨value, hvalue, hprofile⟩ := bind_eq_ok_iff.mp h
  refine distinctKeys_applyMigrations ?_ hprofile
  unfold readJson at hvalue
  split at hvalue
  next content hcontent =>
    obtain rfl := Except.ok.inj hvalue
    exact hfiles path _ hcontent
  · cases hvalue

/-- Every profile of the chain comes from a file. -/
theorem distinctKeys_resolveLoop (hfiles : DistinctFiles files) {fuel : ℕ} {current : Profile}
    {currentDir : Text} {visited : List Text} {chain resolved : List Profile}
    (hchain : ∀ p ∈ chain, p.toValue.DistinctKeys)
    (h : resolveLoop os files fuel current currentDir visited chain = .ok resolved) :
    ∀ p ∈ resolved, p.toValue.DistinctKeys := by
  induction fuel generalizing current currentDir visited chain with
  | zero => cases h
  | succ fuel ih =>
      rw [resolveLoop] at h
      split at h
      · obtain rfl := Except.ok.inj h
        exact hchain
      · dsimp only at h
        split at h
        · cases h
        · split at h
          · cases h
          · obtain ⟨value, hvalue, hrest⟩ := bind_eq_ok_iff.mp h
            obtain ⟨parent, hparent, hloop⟩ := bind_eq_ok_iff.mp hrest
            have hfile := distinctKeys_of_file hfiles (bind_eq_ok_iff.mpr ⟨value, hvalue, hparent⟩)
            exact ih (List.forall_mem_cons.mpr ⟨hfile, hchain⟩) hloop
      · cases h

/-! ## Merging -/

mutual

theorem distinctKeys_mergeValue (key : Text) (old : Option PyValue)
    (hold : ∀ value ∈ old, value.DistinctKeys) :
    ∀ value : PyValue, value.DistinctKeys → (mergeValue key old value).DistinctKeys
  | .dict items, h => by
      by_cases hkey : key = wakePhrasesKey
      · rw [mergeValue_of_replaces (.inl hkey)]
        exact h
      · by_cases hobject : ∃ oldItems, old = some (.dict oldItems)
        · obtain ⟨oldItems, rfl⟩ := hobject
          rw [mergeValue, if_neg hkey]
          exact distinctKeys_mergeItems oldItems (hold _ rfl) items h
        · rw [mergeValue_of_no_object]
          · exact h
          · intro value hvalue
            cases value with
            | dict oldItems => exact absurd ⟨oldItems, hvalue⟩ hobject
            | _ => rfl
  | .none, h | .bool _, h | .int _, h | .float _, h | .str _, h | .list _, h => by
      rw [mergeValue]
      · exact h
      · nofun

/-- The entries of the child are assigned to those of the parent one by one. -/
theorem distinctKeys_mergeItems (oldItems : List (Text × PyValue))
    (hold : (PyValue.dict oldItems).DistinctKeys) :
    ∀ items : List (Text × PyValue), (PyValue.dict items).DistinctKeys →
      (PyValue.dict (mergeItems oldItems items)).DistinctKeys
  | [], _ => hold
  | (key, value) :: rest, h => by
      rw [mergeItems]
      have hnodup := nodup_of_distinctKeys h
      have hmembers : ∀ e ∈ (key, value) :: rest, e.2.DistinctKeys := by
        cases h with
        | dict _ members => exact members
      have hvalue : (mergeValue key (PyValue.item? oldItems key) value).DistinctKeys :=
        distinctKeys_mergeValue key _ (fun v hv => DistinctKeys_item hold hv) value
          (hmembers (key, value) (List.mem_cons_self ..))
      exact distinctKeys_mergeItems _ (distinctKeys_setEntry hold key hvalue) rest
        (.dict (List.nodup_cons.mp hnodup).2 fun e he => hmembers e (List.mem_cons_of_mem _ he))

end

/-- The merge of a chain, from the first profile to the last. -/
theorem distinctKeys_mergeProfiles {chain : List Profile}
    (h : ∀ p ∈ chain, p.toValue.DistinctKeys) : (mergeProfiles chain).toValue.DistinctKeys := by
  induction chain using List.reverseRecOn with
  | nil => exact distinctKeys_empty
  | append_singleton chain child ih =>
      have hchild := h child (by simp)
      by_cases hnil : chain = []
      · subst hnil
        exact hchild
      · rw [mergeProfiles_append hnil]
        exact distinctKeys_mergeItems _ (ih fun p hp => h p (by simp [hp])) _ hchild

theorem distinctKeys_debugOverlay : debugOverlayProfile.toValue.DistinctKeys := by
  refine .dict debugOverlayProfile.nodup ?_
  intro e he
  simp only [debugOverlayProfile, List.mem_cons, List.not_mem_nil, or_false] at he
  rcases he with rfl | rfl
  · exact .dict (by decide) (by simpa using .bool true)
  · exact .dict (by decide) (by simpa using .bool true)

/-- **Loading keeps keys distinct.** -/
theorem distinctKeys_loadProfile (hfiles : DistinctFiles files) {path : Text}
    {debugOverlay : Bool} {profile : Profile}
    (h : loadProfile os files path debugOverlay = .ok profile) :
    profile.toValue.DistinctKeys := by
  obtain ⟨chain, hchain, rfl⟩ := map_eq_ok_iff.mp h
  obtain ⟨value, hvalue, hrest⟩ := bind_eq_ok_iff.mp hchain
  obtain ⟨root, hroot, hresolve⟩ := bind_eq_ok_iff.mp hrest
  have hrootKeys := distinctKeys_of_file hfiles (bind_eq_ok_iff.mpr ⟨value, hvalue, hroot⟩)
  have hall : ∀ p ∈ chain, p.toValue.DistinctKeys :=
    distinctKeys_resolveLoop hfiles (by simpa using hrootKeys) hresolve
  refine distinctKeys_mergeProfiles ?_
  intro p hp
  split at hp
  · rcases List.mem_append.mp hp with hp | hp
    · exact hall p hp
    · obtain rfl := List.mem_singleton.mp hp
      exact distinctKeys_debugOverlay
  · exact hall p hp

end Config
end AvaListener
