import AvaListener.Config.MergeRule
import AvaListener.Config.ProfileValidator

/-!
# Profiles migrated on disk

Loading migrates each file of the chain in memory and leaves the file as it is.  Writing
the migrated profiles back, some of them or all, changes nothing that can be seen: what was
migrated is left alone by the next migration, so every load and every validation ends as
before, in a profile or in the same error.
-/

namespace AvaListener
namespace Config

open Library

/-- What a file holds once it has been migrated.  One that cannot be is left as it is. -/
def migratedContent (value : PyValue) : PyValue :=
  match applyMigrations value with
  | .ok profile => profile.toValue
  | .error _ => value

/-- The files, the chosen ones migrated. -/
def ProfileFiles.migrated (files : ProfileFiles) (chosen : Text → Bool) : ProfileFiles :=
  files.mapValues fun path content =>
    if chosen path then content.map migratedContent else content

/-! ## Migrating twice -/

theorem asProfile_toValue (profile : Profile) : asProfile profile.toValue = .ok profile :=
  congrArg Except.ok (Dict.setAll_empty_entries profile)

/-- A profile of the current version, or of no version that could be compared. -/
def UpToDate (profile : Profile) : Prop :=
  ∃ number, ((profile.get? profileVersionKey).getD (.int 1)).number = .ok number ∧
    number.gt 2 = false ∧ number.lt 2 = false

theorem applyMigrations_of_upToDate {profile : Profile} (h : UpToDate profile) :
    applyMigrations profile.toValue = .ok profile := by
  obtain ⟨number, hnumber, hgt, hlt⟩ := h
  simp only [applyMigrations, asProfile_toValue, lift, hnumber, hgt, hlt, Except.mapError, ok_bind,
    Bool.false_eq_true, if_false]
  rfl

theorem upToDate_migrateV1ToV2 {profile migrated : Profile}
    (h : migrateV1ToV2 profile = .ok migrated) : UpToDate migrated := by
  have hversion : migrated.get? profileVersionKey = some (.int 2) := by
    rw [migrateV1ToV2] at h
    split at h
    · obtain ⟨phrases, -, rfl⟩ := map_eq_ok_iff.mp h
      exact Dict.get?_set_self ..
    · cases h
      exact Dict.get?_set_self ..
  exact ⟨.finite 2, by rw [hversion]; rfl, by decide, by decide⟩

/-- **A migration leaves nothing to migrate.** -/
theorem upToDate_applyMigrations {value : PyValue} {profile : Profile}
    (h : applyMigrations value = .ok profile) : UpToDate profile := by
  obtain ⟨read, -, h⟩ := bind_eq_ok_iff.mp h
  obtain ⟨number, hnumber, h⟩ := bind_eq_ok_iff.mp h
  split at h
  · cases h
  next hgt =>
    split at h
    · split at h
      · exact upToDate_migrateV1ToV2 (mapError_eq_ok_iff.mp h)
      · cases h
    next hlt =>
      obtain rfl := Except.ok.inj h
      exact ⟨number, mapError_eq_ok_iff.mp hnumber, by simpa using hgt, by simpa using hlt⟩

theorem applyMigrations_migratedContent (value : PyValue) :
    applyMigrations (migratedContent value) = applyMigrations value := by
  rw [migratedContent]
  split
  next profile hprofile =>
    rw [hprofile, applyMigrations_of_upToDate (upToDate_applyMigrations hprofile)]
  · rfl

/-! ## The files -/

variable (files : ProfileFiles) (chosen : Text → Bool)

/-- The same files are there, and the same ones can be read. -/
theorem get?_migrated (path : Text) :
    (files.migrated chosen).get? path =
      (files.get? path).map fun content =>
        if chosen path then content.map migratedContent else content :=
  Dict.get?_mapValues ..

/-- A file that can be read migrates as before. -/
theorem readJson_migrated (path : Text) :
    (∃ e, readJson files path = .error e ∧ readJson (files.migrated chosen) path = .error e) ∨
      ∃ value value', readJson files path = .ok value ∧
        readJson (files.migrated chosen) path = .ok value' ∧
          applyMigrations value' = applyMigrations value := by
  have hget := get?_migrated files chosen path
  cases hfile : files.get? path with
  | none =>
      rw [hfile, Option.map_none] at hget
      exact .inl ⟨_, by rw [readJson, hfile], by rw [readJson, hget]⟩
  | some content =>
      rw [hfile, Option.map_some] at hget
      cases content with
      | none =>
          rw [Option.map_none, ite_self] at hget
          exact .inl ⟨_, by rw [readJson, hfile], by rw [readJson, hget]⟩
      | some value =>
          refine .inr ⟨value, if chosen path then migratedContent value else value, ?_, ?_, ?_⟩
          · rw [readJson, hfile]
          · rw [readJson, hget]
            cases chosen path <;> rfl
          · cases chosen path with
            | true => exact applyMigrations_migratedContent value
            | false => rfl

theorem migrations_migrated (path : Text) :
    (readJson (files.migrated chosen) path >>= applyMigrations) =
      (readJson files path >>= applyMigrations) := by
  rcases readJson_migrated files chosen path with ⟨e, h, h'⟩ | ⟨value, value', h, h', heq⟩
  · rw [h, h']
  · rw [h, h', ok_bind, ok_bind, heq]

/-- **The walk along `extends`** sees no difference. -/
theorem resolveLoop_migrated (os : OsPath) (fuel : ℕ) (current : Profile) (currentDir : Text)
    (visited : List Text) (chain : List Profile) :
    resolveLoop os (files.migrated chosen) fuel current currentDir visited chain =
      resolveLoop os files fuel current currentDir visited chain := by
  induction fuel generalizing current currentDir visited chain with
  | zero => rfl
  | succ fuel ih =>
      rw [resolveLoop, resolveLoop]
      split
      · rfl
      next parentRelPath _ =>
        generalize os.abspath (os.join currentDir parentRelPath) = path
        have hget := get?_migrated files chosen path
        have hparent := migrations_migrated files chosen path
        simp only [ih]
        cases hfile : files.get? path with
        | none => rw [hget, hfile, Option.map_none]
        | some content =>
            rw [hget, hfile, Option.map_some]
            simp only [← bind_assoc, hparent]
      · rfl

theorem resolveInheritance_migrated (os : OsPath) (profile : Profile) (baseDir : Text)
    (visited : List Text) :
    resolveInheritance os (files.migrated chosen) profile baseDir visited =
      resolveInheritance os files profile baseDir visited := by
  have hlength : (files.migrated chosen).entries.length = files.entries.length := by
    rw [ProfileFiles.migrated, Dict.entries_mapValues, List.length_map]
  rw [resolveInheritance, resolveInheritance, hlength, resolveLoop_migrated]

theorem loadProfile_migrated (os : OsPath) (path : Text) (debugOverlay : Bool) :
    loadProfile os (files.migrated chosen) path debugOverlay =
      loadProfile os files path debugOverlay := by
  have hchain : loadChain os (files.migrated chosen) path = loadChain os files path := by
    simp only [loadChain, ← bind_assoc, migrations_migrated, resolveInheritance_migrated]
  rw [loadProfile, loadProfile, hchain]

theorem validateProfile_migrated (os : OsPath) (path : Text) :
    validateProfile os (files.migrated chosen) path = validateProfile os files path := by
  rw [validateProfile, validateProfile]
  rcases readJson_migrated files chosen (os.abspath path) with
    ⟨e, h, h'⟩ | ⟨value, value', h, h', heq⟩
  · rw [h, h']
  · simp only [h, h', heq, resolveInheritance_migrated]

/-- **Migrating files on disk cannot be noticed**, whichever files are chosen: every path
loads and validates as before. -/
theorem migrated_unnoticed (os : OsPath) (path : Text) (debugOverlay : Bool) :
    loadProfile os (files.migrated chosen) path debugOverlay =
        loadProfile os files path debugOverlay ∧
      validateProfile os (files.migrated chosen) path = validateProfile os files path :=
  ⟨loadProfile_migrated files chosen os path debugOverlay,
    validateProfile_migrated files chosen os path⟩

end Config
end AvaListener
