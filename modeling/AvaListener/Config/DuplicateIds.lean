import AvaListener.Config.ProfileValidator

/-!
# Repeated ids along a chain

The validator compares the ids of all profiles of a chain, while merging replaces the
list of a parent by that of its child.  So a child that redefines the phrases of its
parent under their ids is rejected although its effective list repeats nothing
(`reportsDuplicate_iff`).
-/

namespace AvaListener
namespace Config

open Library Matcher

/-- The textual id of a phrase object. -/
def phraseIdOf : PyValue → Option Text
  | .dict items =>
      match PyValue.item? items phraseIdKey with
      | some (.str phraseId) => some phraseId
      | _ => none
  | _ => none

/-- The ids of a profile's list, in order. -/
def Profile.phraseIds (profile : Profile) : List Text :=
  match profile.wakePhrases with
  | .list phrases => phrases.filterMap phraseIdOf
  | _ => []

/-- An object with a textual id whose threshold, if it has one, is a number. -/
def WellFormedPhrase (phrase : PyValue) : Prop :=
  ∃ items phraseId, phrase = .dict items ∧
    PyValue.item? items phraseIdKey = some (.str phraseId) ∧
    ∀ threshold, PyValue.item? items thresholdKey = some threshold →
      ∃ x, threshold.number = .ok x

/-- A profile whose `wakePhrases`, if it has any, are a list of such objects. -/
def WellFormedProfile (profile : Profile) : Prop :=
  ∃ phrases, profile.wakePhrases = .list phrases ∧ ∀ phrase ∈ phrases, WellFormedPhrase phrase

/-- The validator reports a duplicate exactly when the effective list has one. -/
def ReportsEffectiveDuplicates (os : OsPath) (files : ProfileFiles) (path : Text)
    (chain : List Profile) : Prop :=
  ∃ res, validateProfile os files path = .ok res ∧
    ((∃ phraseId, .duplicatePhraseId phraseId ∈ res.errors) ↔
      ¬(mergeProfiles chain).phraseIds.Nodup)

/-! ## Well-formed phrases -/

theorem checkPhrase_of_wellFormed {phrase : PyValue} (h : WellFormedPhrase phrase)
    (c : PhraseCheck) : ∃ c', checkPhrase c phrase = .ok c' := by
  obtain ⟨items, phraseId, rfl, hid, hthreshold⟩ := h
  have hnumber : ∃ x, ((PyValue.item? items thresholdKey).getD (.float (.finite 0.5))).number =
      .ok x := by
    cases hitem : PyValue.item? items thresholdKey with
    | none => exact ⟨_, rfl⟩
    | some threshold => exact hthreshold threshold hitem
  obtain ⟨x, hx⟩ := hnumber
  simp only [checkPhrase, PyValue.items, ok_bind, checkedId, hid, Option.getD_some, PyValue.hash, hx]
  exact ⟨_, rfl⟩

/-- The loop gets through a list of well-formed phrases. -/
theorem checkPhrases_of_wellFormed {phrases : List PyValue}
    (h : ∀ phrase ∈ phrases, WellFormedPhrase phrase) (c : PhraseCheck) :
    ∃ c', phrases.foldlM checkPhrase c = .ok c' := by
  induction phrases generalizing c with
  | nil => exact ⟨c, rfl⟩
  | cons phrase rest ih =>
      obtain ⟨hphrase, hrest⟩ := List.forall_mem_cons.mp h
      obtain ⟨next, hnext⟩ := checkPhrase_of_wellFormed hphrase c
      obtain ⟨c', hc'⟩ := ih hrest next
      refine ⟨c', ?_⟩
      rw [List.foldlM_cons, hnext, ok_bind, hc']

theorem mapM_checkedKey {phrases : List PyValue}
    (h : ∀ phrase ∈ phrases, WellFormedPhrase phrase) :
    phrases.mapM checkedKey = .ok ((phrases.filterMap phraseIdOf).map .str) := by
  induction phrases with
  | nil => rfl
  | cons phrase rest ih =>
      obtain ⟨⟨items, phraseId, rfl, hid, -⟩, hrest⟩ := List.forall_mem_cons.mp h
      have hkey : checkedKey (.dict items) = .ok (.str phraseId) := by
        rw [checkedKey, PyValue.items, ok_bind, checkedId, hid]
        rfl
      have hsome : phraseIdOf (.dict items) = some phraseId := by
        rw [phraseIdOf, hid]
      rw [List.filterMap_cons_some hsome, List.map_cons]
      exact mapM_eq_ok_iff.mpr (.cons hkey (mapM_eq_ok_iff.mp (ih hrest)))

/-- The lists of a well-formed chain and the ids in them. -/
theorem exists_lists_of_wellFormed {chain : List Profile}
    (h : ∀ profile ∈ chain, WellFormedProfile profile) :
    ∃ lists, chain.mapM (fun profile => profile.wakePhrases.iterate) = .ok lists ∧
      (∀ phrase ∈ lists.flatten, WellFormedPhrase phrase) ∧
      lists.flatten.filterMap phraseIdOf = chain.flatMap Profile.phraseIds := by
  induction chain with
  | nil => exact ⟨[], rfl, nofun, rfl⟩
  | cons profile rest ih =>
      obtain ⟨⟨phrases, hlist, hphrases⟩, hrest⟩ := List.forall_mem_cons.mp h
      obtain ⟨lists, hlists, hall, hids⟩ := ih hrest
      have hiterate : profile.wakePhrases.iterate = .ok phrases := by
        rw [hlist]
        rfl
      refine ⟨phrases :: lists, ?_, ?_, ?_⟩
      · exact mapM_eq_ok_iff.mpr (.cons hiterate (mapM_eq_ok_iff.mp hlists))
      · rw [List.flatten_cons]
        exact List.forall_mem_append.mpr ⟨hphrases, hall⟩
      · rw [List.flatten_cons, List.filterMap_append, hids, List.flatMap_cons, Profile.phraseIds,
          hlist]

/-- The ids of the merged list are those of one level, or there are none. -/
theorem phraseIds_mergeProfiles (chain : List Profile) :
    (mergeProfiles chain).phraseIds.Sublist (chain.flatMap Profile.phraseIds) := by
  -- Merging keeps the list of the last profile that has one.
  cases hfind : chain.reverse.findSome? (·.get? wakePhrasesKey) with
  | none =>
      have hnil : (mergeProfiles chain).phraseIds = [] := by
        rw [Profile.phraseIds, Profile.wakePhrases, get?_wakePhrases_mergeProfiles, hfind]
        rfl
      rw [hnil]
      exact List.nil_sublist _
  | some wakePhrases =>
      obtain ⟨profile, hmem, hget⟩ := List.exists_of_findSome?_eq_some hfind
      have heq : (mergeProfiles chain).phraseIds = profile.phraseIds := by
        rw [Profile.phraseIds, Profile.phraseIds, Profile.wakePhrases, Profile.wakePhrases,
          get?_wakePhrases_mergeProfiles, hfind, hget]
      rw [heq, List.flatMap_def]
      exact List.sublist_flatten_of_mem (List.mem_map_of_mem (List.mem_reverse.mp hmem))

/-! ## What is reported -/

/-- The validator reports a duplicate exactly when two phrases of the chain have the
same id. -/
theorem reportsDuplicate_iff_chain {os : OsPath} {files : ProfileFiles} {path : Text}
    {chain : List Profile} (hchain : loadChain os files path = .ok chain)
    (hwf : ∀ profile ∈ chain, WellFormedProfile profile) :
    ∃ res, validateProfile os files path = .ok res ∧
      ((∃ phraseId, .duplicatePhraseId phraseId ∈ res.errors) ↔
        ¬(chain.flatMap Profile.phraseIds).Nodup) := by
  obtain ⟨rootProfile, hresult⟩ := validateProfile_of_loadChain hchain
  obtain ⟨lists, hlists, hphrases, hids⟩ := exists_lists_of_wellFormed hwf
  obtain ⟨check, hcheck⟩ := checkPhrases_of_wellFormed hphrases {}
  refine ⟨.ofCheck rootProfile check, ?_, ?_⟩
  · rw [hresult, foldlM_checkProfile_eq_ok_iff.mpr ⟨lists, hlists, hcheck⟩]
    rfl
  · have hstart : PhraseCheck.Consistent {} := ⟨by simp, by simp⟩
    obtain ⟨hconsistent, keys, hkeys, hseen⟩ := checkPhrases_spec hstart hcheck
    rw [mapM_checkedKey hphrases, hids] at hkeys
    cases hkeys
    have hnodup : check.errors = [] ↔ (chain.flatMap Profile.phraseIds).Nodup := by
      rw [hconsistent.errors_nil_iff, hseen, List.append_nil, List.nodup_reverse]
      exact List.nodup_map_iff fun _ _ h => PyKey.str.inj h
    rw [← hnodup]
    constructor
    · rintro ⟨phraseId, hmem⟩ hnil
      rw [ValidationResult.ofCheck, hnil] at hmem
      cases hmem
    · intro hne
      obtain ⟨e, he⟩ := List.exists_mem_of_ne_nil _ hne
      obtain ⟨phraseId, rfl⟩ := hconsistent.duplicate e he
      exact ⟨phraseId, he⟩

/-- **When the validator's duplicates are those of the effective list.** -/
theorem reportsDuplicate_iff {os : OsPath} {files : ProfileFiles} {path : Text}
    {chain : List Profile} (hchain : loadChain os files path = .ok chain)
    (hwf : ∀ profile ∈ chain, WellFormedProfile profile) :
    ReportsEffectiveDuplicates os files path chain ↔
      (chain.flatMap Profile.phraseIds).Nodup ∨ ¬(mergeProfiles chain).phraseIds.Nodup := by
  have heffective := phraseIds_mergeProfiles chain
  obtain ⟨res, hres, hreports⟩ := reportsDuplicate_iff_chain hchain hwf
  constructor
  · rintro ⟨res', hres', hmatches⟩
    cases hres.symm.trans hres'
    rw [hreports] at hmatches
    -- A repetition over the chain is reported, so it must be one of the effective list.
    by_cases hall : (chain.flatMap Profile.phraseIds).Nodup
    · exact Or.inl hall
    · exact Or.inr (hmatches.mp hall)
  · intro hcond
    refine ⟨res, hres, hreports.trans ⟨fun hall => hcond.resolve_left hall, ?_⟩⟩
    exact fun hdup hall => hdup (hall.sublist heffective)

/-! ## Two profiles -/

/-- A phrase of a given id. -/
def phraseObject (phraseId : String) : PyValue :=
  .dict [(phraseIdKey, .str phraseId.toList), (phraseKey, .str "hey ava".toList),
    (thresholdKey, .int 1)]

/-- A profile of version 2 with one phrase. -/
def baseProfile : Profile :=
  Dict.empty.setAll [(profileVersionKey, .int 2), (wakePhrasesKey, .list [phraseObject "core"])]

/-- A profile that extends it with a phrase of its own. -/
def childProfile (phraseId : String) : Profile :=
  Dict.empty.setAll [(profileVersionKey, .int 2), (extendsKey, .str "base.json".toList),
    (wakePhrasesKey, .list [phraseObject phraseId])]

def twoFiles (phraseId : String) : ProfileFiles :=
  Dict.empty.setAll [("/base.json".toList, some (.dict baseProfile.entries)),
    ("/child.json".toList, some (.dict (childProfile phraseId).entries))]

theorem loadChain_twoFiles (phraseId : String) :
    loadChain .normal (twoFiles phraseId) "/child.json".toList =
      .ok [baseProfile, childProfile phraseId] :=
  rfl

theorem wellFormed_twoFiles (phraseId : String) :
    ∀ profile ∈ [baseProfile, childProfile phraseId], WellFormedProfile profile := by
  have hphrase : ∀ s, ∀ phrase ∈ [phraseObject s], WellFormedPhrase phrase := by
    intro s phrase hmem
    obtain rfl := List.mem_singleton.mp hmem
    refine ⟨_, s.toList, rfl, rfl, ?_⟩
    rintro threshold heq
    cases heq
    exact ⟨_, rfl⟩
  intro profile hmem
  simp only [List.mem_cons, List.not_mem_nil, or_false] at hmem
  rcases hmem with rfl | rfl
  · exact ⟨_, rfl, hphrase "core"⟩
  · exact ⟨_, rfl, hphrase phraseId⟩

/-- A child with an id of its own is judged by its effective list. -/
theorem newId_reportsEffectiveDuplicates :
    ReportsEffectiveDuplicates .normal (twoFiles "extra") "/child.json".toList
      [baseProfile, childProfile "extra"] :=
  (reportsDuplicate_iff (loadChain_twoFiles "extra") (wellFormed_twoFiles "extra")).mpr
    (Or.inl (by decide))

/-- A child that redefines its parent's phrase is rejected. -/
theorem redefined_id_rejected :
    ¬ReportsEffectiveDuplicates .normal (twoFiles "core") "/child.json".toList
      [baseProfile, childProfile "core"] := by
  rintro ⟨res, hres, hmatches⟩
  obtain ⟨res', hres', hreports⟩ :=
    reportsDuplicate_iff_chain (loadChain_twoFiles "core") (wellFormed_twoFiles "core")
  cases hres.symm.trans hres'
  have heffective : (mergeProfiles [baseProfile, childProfile "core"]).phraseIds.Nodup := by decide
  have htwice : ¬([baseProfile, childProfile "core"].flatMap Profile.phraseIds).Nodup := by decide
  exact hmatches.mp (hreports.mpr htwice) heffective

end Config
end AvaListener
