import AvaListener.Config.ProfileLoader
import AvaListener.Matcher.PhraseObjects

/-!
# Validating a profile

`runtime/config/profile_validator.py`: the file is read and its chain resolved as by
the loader; then the phrases of all profiles of the chain, from the root ancestor to
the child and before any merging, are checked for repeated ids and low thresholds.

Exceptions that the validator does not catch leave it as exceptions.
-/

namespace AvaListener
namespace Config

open Library Matcher

inductive ValidationError where
  /-- "Failed to parse JSON: ..." -/
  | unparsable (e : ProfileError)
  /-- the text of the `UnsupportedProfileVersionError` -/
  | version (e : ProfileError)
  /-- the text of the `CircularProfileError` or `MissingParentProfileError`, and for
  another exception "Inheritance error: ..." -/
  | inheritance (e : ProfileError)
  /-- "Duplicate phraseId detected: ..." -/
  | duplicatePhraseId (phraseId : PyValue)

inductive ValidationWarning where
  /-- "Very low threshold (...) for phrase '...'" -/
  | veryLowThreshold (threshold phraseId : PyValue)
  /-- "Unknown field '...' in profile" -/
  | unknownField (key : Text)

structure ValidationResult where
  valid : Bool
  warnings : List ValidationWarning
  errors : List ValidationError

/-- The result of a validation that stops at an error. -/
def ValidationResult.failed (e : ValidationError) : ValidationResult :=
  ⟨false, [], [e]⟩

/-- The local variables of the loop over the phrases. -/
structure PhraseCheck where
  seenPhraseIds : List PyKey := []
  warnings : List ValidationWarning := []
  errors : List ValidationError := []

/-- `phrase.get("phraseId", phrase.get("phrase", ""))`. -/
def checkedId (items : List (Text × PyValue)) : PyValue :=
  (PyValue.item? items phraseIdKey).getD ((PyValue.item? items phraseKey).getD (.str []))

/-- The key that an id has in `seen_phrase_ids`. -/
def checkedKey (phrase : PyValue) : Except PyError PyKey := do
  (checkedId (← phrase.items)).hash

/-- The body of the loop. -/
def checkPhrase (c : PhraseCheck) (phrase : PyValue) : Except PyError PhraseCheck := do
  let items ← phrase.items
  let phraseId := checkedId items
  let key ← phraseId.hash
  let threshold := (PyValue.item? items thresholdKey).getD (.float (.finite 0.5))
  let number ← threshold.number
  return {
    seenPhraseIds := key :: c.seenPhraseIds
    errors := if key ∈ c.seenPhraseIds then c.errors ++ [.duplicatePhraseId phraseId] else c.errors
    warnings :=
      if number.lt 0.4 then c.warnings ++ [.veryLowThreshold threshold phraseId] else c.warnings }

/-- The phrases of one profile of the chain. -/
def checkProfile (c : PhraseCheck) (profile : Profile) : Except PyError PhraseCheck := do
  (← profile.wakePhrases.iterate).foldlM checkPhrase c

/-- The top-level fields that are expected. -/
def knownFields : List Text :=
  ["extends", "profileVersion", "name", "description", "wakePhrases", "vad", "asr", "audio",
    "confidence", "transcription"].map String.toList

/-- The result for a chain whose phrases have been checked. -/
def ValidationResult.ofCheck (rootProfile : Profile) (check : PhraseCheck) : ValidationResult where
  valid := check.errors.isEmpty
  warnings := check.warnings ++ (rootProfile.keys.filter (· ∉ knownFields)).map .unknownField
  errors := check.errors

/-- `validate_profile`. -/
def validateProfile (os : OsPath) (files : ProfileFiles) (path : Text) :
    Except PyError ValidationResult :=
  let absPath := os.abspath path
  match readJson files absPath with
  | .error e => .ok (.failed (.unparsable e))
  | .ok value =>
      match applyMigrations value with
      | .error (.raised e) => .error e
      | .error e => .ok (.failed (.version e))
      | .ok rootProfile =>
          match resolveInheritance os files rootProfile (os.dirname absPath) [absPath] with
          | .error e => .ok (.failed (.inheritance e))
          | .ok chain => (chain.foldlM checkProfile {}).map (.ofCheck rootProfile)

/-! ## What the loop finds -/

/-- Only repeated ids are reported, and exactly when there are any. -/
structure PhraseCheck.Consistent (c : PhraseCheck) : Prop where
  errors_nil_iff : c.errors = [] ↔ c.seenPhraseIds.Nodup
  duplicate : ∀ e ∈ c.errors, ∃ phraseId, e = .duplicatePhraseId phraseId

theorem checkPhrase_spec {c c' : PhraseCheck} {phrase : PyValue} (hc : c.Consistent)
    (h : checkPhrase c phrase = .ok c') :
    c'.Consistent ∧ ∃ key, checkedKey phrase = .ok key ∧
      c'.seenPhraseIds = key :: c.seenPhraseIds := by
  obtain ⟨items, hitems, h⟩ := bind_eq_ok_iff.mp h
  obtain ⟨key, hkey, h⟩ := bind_eq_ok_iff.mp h
  obtain ⟨number, -, h⟩ := bind_eq_ok_iff.mp h
  cases h
  refine ⟨⟨?_, ?_⟩, key, bind_eq_ok_iff.mpr ⟨items, hitems, hkey⟩, rfl⟩
  · by_cases hseen : key ∈ c.seenPhraseIds
    · simp [hseen]
    · simp [hseen, hc.errors_nil_iff]
  · intro e he
    by_cases hseen : key ∈ c.seenPhraseIds
    · simp only [hseen, if_true, List.mem_append, List.mem_singleton] at he
      rcases he with hold | rfl
      · exact hc.duplicate e hold
      · exact ⟨_, rfl⟩
    · simp only [hseen, if_false] at he
      exact hc.duplicate e he

theorem checkPhrases_spec {c c' : PhraseCheck} {phrases : List PyValue} (hc : c.Consistent)
    (h : phrases.foldlM checkPhrase c = .ok c') :
    c'.Consistent ∧ ∃ keys, phrases.mapM checkedKey = .ok keys ∧
      c'.seenPhraseIds = keys.reverse ++ c.seenPhraseIds := by
  induction phrases generalizing c with
  | nil =>
      cases h
      exact ⟨hc, [], rfl, rfl⟩
  | cons phrase rest ih =>
      rw [List.foldlM_cons] at h
      obtain ⟨next, hnext, h⟩ := bind_eq_ok_iff.mp h
      obtain ⟨hconsistent, key, hkey, hseen⟩ := checkPhrase_spec hc hnext
      obtain ⟨hfinal, keys, hkeys, hfinalSeen⟩ := ih hconsistent h
      refine ⟨hfinal, key :: keys, ?_, ?_⟩
      · exact mapM_eq_ok_iff.mpr (.cons hkey (mapM_eq_ok_iff.mp hkeys))
      · rw [hfinalSeen, hseen, List.reverse_cons, List.append_assoc]
        rfl

/-- The loop over the chain is the loop over all its phrases. -/
theorem foldlM_checkProfile_eq_ok_iff {c c' : PhraseCheck} {chain : List Profile} :
    chain.foldlM checkProfile c = .ok c' ↔
      ∃ lists, chain.mapM (fun profile => profile.wakePhrases.iterate) = .ok lists ∧
        lists.flatten.foldlM checkPhrase c = .ok c' := by
  induction chain generalizing c with
  | nil => exact ⟨fun h => ⟨[], rfl, h⟩, fun ⟨lists, hlists, h⟩ => by cases hlists; exact h⟩
  | cons profile rest ih =>
      rw [List.foldlM_cons, bind_eq_ok_iff]
      constructor
      · rintro ⟨next, hnext, h⟩
        obtain ⟨phrases, hphrases, hnext⟩ := bind_eq_ok_iff.mp hnext
        obtain ⟨lists, hlists, hrest⟩ := ih.mp h
        refine ⟨phrases :: lists, ?_, ?_⟩
        · exact mapM_eq_ok_iff.mpr (.cons hphrases (mapM_eq_ok_iff.mp hlists))
        · rw [List.flatten_cons, List.foldlM_append]
          exact bind_eq_ok_iff.mpr ⟨next, hnext, hrest⟩
      · rintro ⟨lists, hlists, h⟩
        -- The lists read off a chain are those of its first profile and of the rest.
        obtain ⟨phrases, tail, hphrases, htail, rfl⟩ :=
          List.forall₂_cons_left_iff.mp (mapM_eq_ok_iff.mp hlists)
        rw [List.flatten_cons, List.foldlM_append] at h
        obtain ⟨next, hnext, hrest⟩ := bind_eq_ok_iff.mp h
        exact ⟨next, bind_eq_ok_iff.mpr ⟨phrases, hphrases, hnext⟩,
          ih.mpr ⟨tail, mapM_eq_ok_iff.mpr htail, hrest⟩⟩

/-- The effective list is one of the lists of the chain, or empty. -/
theorem wakePhrases_mergeProfiles {chain : List Profile} {lists : List (List PyValue)}
    (h : chain.mapM (fun profile => profile.wakePhrases.iterate) = .ok lists) :
    ∃ phrases, (mergeProfiles chain).wakePhrases.iterate = .ok phrases ∧
      phrases.Sublist lists.flatten := by
  rw [Profile.wakePhrases, get?_wakePhrases_mergeProfiles]
  cases hfind : chain.reverse.findSome? (·.get? wakePhrasesKey) with
  | none => exact ⟨[], rfl, List.nil_sublist _⟩
  | some wakePhrases =>
      obtain ⟨profile, hmem, hget⟩ := List.exists_of_findSome?_eq_some hfind
      obtain ⟨phrases, hphrases, hiterate⟩ := exists_mem_of_mapM h (List.mem_reverse.mp hmem)
      rw [Profile.wakePhrases, hget] at hiterate
      exact ⟨phrases, hiterate, List.sublist_flatten_of_mem hphrases⟩

/-! ## The validator along a resolved chain -/

variable {os : OsPath} {files : ProfileFiles} {path : Text}

/-- When the loader resolves the chain, so does the validator. -/
theorem validateProfile_of_loadChain {chain : List Profile}
    (h : loadChain os files path = .ok chain) :
    ∃ rootProfile, validateProfile os files path =
      (chain.foldlM checkProfile {}).map (.ofCheck rootProfile) := by
  obtain ⟨value, hvalue, h⟩ := bind_eq_ok_iff.mp h
  obtain ⟨rootProfile, hroot, hchain⟩ := bind_eq_ok_iff.mp h
  refine ⟨rootProfile, ?_⟩
  unfold validateProfile
  simp only [hvalue, hroot, hchain]

/-- A result that is valid comes from a resolved chain. -/
theorem exists_loadChain_of_valid {res : ValidationResult}
    (h : validateProfile os files path = .ok res) (hvalid : res.valid = true) :
    ∃ chain, loadChain os files path = .ok chain := by
  have hfailed : ∀ e, Except.ok (ε := PyError) (.failed e) ≠ .ok res := by
    rintro e heq
    cases heq
    cases hvalid
  simp only [validateProfile] at h
  simp only [loadChain]
  cases hvalue : readJson files (os.abspath path) with
  | error e =>
      rw [hvalue] at h
      exact absurd h (hfailed _)
  | ok value =>
      simp only [hvalue] at h
      cases hroot : applyMigrations value with
      | error e =>
          simp only [hroot] at h
          cases e with
          | raised e => cases h
          | _ => exact absurd h (hfailed _)
      | ok rootProfile =>
          simp only [hroot] at h
          cases hchain : resolveInheritance os files rootProfile (os.dirname (os.abspath path))
              [os.abspath path] with
          | error e =>
              simp only [hchain] at h
              exact absurd h (hfailed _)
          | ok chain => exact ⟨chain, by simp only [ok_bind, hroot, hchain]⟩

/-- **What a valid result says**: the loader resolves the chain, and over all its
levels no two phrases have the same id. -/
theorem ids_nodup_of_valid {res : ValidationResult} (h : validateProfile os files path = .ok res)
    (hvalid : res.valid = true) :
    ∃ chain lists keys, loadChain os files path = .ok chain ∧
      chain.mapM (fun profile => profile.wakePhrases.iterate) = .ok lists ∧
      lists.flatten.mapM checkedKey = .ok keys ∧ keys.Nodup := by
  obtain ⟨chain, hchain⟩ := exists_loadChain_of_valid h hvalid
  obtain ⟨rootProfile, hresult⟩ := validateProfile_of_loadChain hchain
  obtain ⟨check, hcheck, rfl⟩ := map_eq_ok_iff.mp (hresult.symm.trans h)
  obtain ⟨lists, hlists, hphrases⟩ := foldlM_checkProfile_eq_ok_iff.mp hcheck
  have hstart : PhraseCheck.Consistent {} := ⟨by simp, by simp⟩
  obtain ⟨hconsistent, keys, hkeys, hseen⟩ := checkPhrases_spec hstart hphrases
  have hnil : check.errors = [] := List.isEmpty_iff.mp hvalid
  have hnodup := hconsistent.errors_nil_iff.mp hnil
  rw [hseen, List.append_nil, List.nodup_reverse] at hnodup
  exact ⟨chain, lists, keys, hchain, hlists, hkeys, hnodup⟩

end Config
end AvaListener
