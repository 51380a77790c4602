import AvaListener.Config.ProfileValidator
import AvaListener.Kernel.LoadProfile

/-!
# Loading a profile that was validated

`validate_profile` resolves the chain as the loader does and compares the ids, but it
does not look at what `PhraseConfig.from_dict` requires of a phrase.  A profile that
it reports valid therefore loads, with one entry for each phrase, exactly when the
phrases of its effective list are well formed.
-/

namespace AvaListener
namespace Kernel

open Library Config Matcher

variable (env : LoadEnv)

/-- A profile that is reported valid loads, and the registry then holds one entry for
each element of the effective list, in order. -/
def ValidatorSound (s : ProfileStores) (path : Text) : Prop :=
  ∀ res, validateProfile env.os env.files path = .ok res → res.valid = true →
    ∃ s' profile elements, s.loadProfile env path false = (.ok (), s') ∧
      Config.loadProfile env.os env.files path false = .ok profile ∧
      profile.wakePhrases.iterate = .ok elements ∧
      List.Forall₂ (fun data p => LoadedPhrase.fromDict env.lib env.numbers data = .ok p)
        elements s'.registry.values

/-- Every element of the effective list is an object with the keys, types and ranges
that `from_dict` requires. -/
def EffectivePhrasesWellFormed (path : Text) : Prop :=
  ∀ profile elements, Config.loadProfile env.os env.files path false = .ok profile →
    profile.wakePhrases.iterate = .ok elements →
    ∀ data ∈ elements, ∃ items, data = .dict items ∧ WellFormedObject env.lib env.numbers items

variable {env}

/-- The validator and the registry compare ids by the same keys. -/
theorem keyedPhrases_of_checkedKey {elements : List PyValue} {phrases : List LoadedPhrase}
    {keys : List PyKey}
    (hphrases : List.Forall₂
      (fun data p => LoadedPhrase.fromDict env.lib env.numbers data = .ok p) elements phrases)
    (hkeys : elements.mapM checkedKey = .ok keys) :
    (∀ p ∈ phrases, p.phraseId.hashable = true) ∧ (keyedPhrases phrases).map Prod.fst = keys := by
  induction hphrases generalizing keys with
  | nil =>
      cases hkeys
      exact ⟨nofun, rfl⟩
  | @cons data p elements phrases hp _ ih =>
      obtain ⟨key, rest, hkey, hrest, rfl⟩ :=
        List.forall₂_cons_left_iff.mp (mapM_eq_ok_iff.mp hkeys)
      obtain ⟨items, rfl, -⟩ := LoadedPhrase.fromDict_ok_iff.mp ⟨p, hp⟩
      have hhash : p.phraseId.hash = .ok key := by
        have hid := LoadedPhrase.fromDict_phraseId hp
        rwa [checkedKey, PyValue.items, ok_bind, checkedId, hid] at hkey
      obtain ⟨hhashable, hmap⟩ := ih (mapM_eq_ok_iff.mpr hrest)
      refine ⟨List.forall_mem_cons.mpr ⟨PyValue.hashable_iff.mpr ⟨key, hhash⟩, hhashable⟩, ?_⟩
      rw [keyedPhrases, hhash, List.map_cons, hmap]

/-- **When the validator is sound for the loader.** -/
theorem validator_sound_iff (env : LoadEnv) (s : ProfileStores) (path : Text) :
    ValidatorSound env s path ↔
      ∀ res, validateProfile env.os env.files path = .ok res → res.valid = true →
        EffectivePhrasesWellFormed env path := by
  constructor
  · intro hsound res hres hvalid profile elements hprofile helements data hdata
    obtain ⟨s', profile', elements', -, hprofile', helements', hall⟩ := hsound res hres hvalid
    cases hprofile.symm.trans hprofile'
    cases helements.symm.trans helements'
    obtain ⟨p, -, hp⟩ := exists_mem_of_mapM (mapM_eq_ok_iff.mpr hall) hdata
    exact LoadedPhrase.fromDict_ok_iff.mp ⟨p, hp⟩
  · intro hwf res hres hvalid
    obtain ⟨chain, lists, keys, hchain, hlists, hkeys, hnodup⟩ := ids_nodup_of_valid hres hvalid
    have hprofile : Config.loadProfile env.os env.files path false = .ok (mergeProfiles chain) := by
      rw [Config.loadProfile, hchain]
      rfl
    obtain ⟨elements, helements, hsub⟩ := wakePhrases_mergeProfiles hlists
    obtain ⟨effectiveKeys, heffective, hkeysSub⟩ := mapM_ok_of_sublist hkeys hsub
    have hobjects := hwf res hres hvalid _ elements hprofile helements
    obtain ⟨phrases, hphrases⟩ := exists_mapM_eq_ok_iff.mpr fun data hdata =>
      LoadedPhrase.fromDict_ok_iff.mpr (hobjects data hdata)
    have hnew : env.newPhrases (mergeProfiles chain) = .ok phrases := by
      rw [LoadEnv.newPhrases, helements]
      exact mapError_eq_ok_iff.mpr hphrases
    have hall := mapM_eq_ok_iff.mp hphrases
    obtain ⟨hhashable, hmap⟩ := keyedPhrases_of_checkedKey hall heffective
    have hvalues : (Dict.empty.setAll (keyedPhrases phrases)).values = phrases := by
      rw [Dict.values_setAll_empty_iff.mpr (hmap ▸ hnodup.sublist hkeysSub),
        keyedPhrases_snd hhashable]
    refine ⟨_, mergeProfiles chain, elements, loadProfile_of_hashable hprofile hnew hhashable,
      hprofile, helements, ?_⟩
    rw [hvalues]
    exact hall

/-- The validator accepts the profile with the threshold above one, and the loader
rejects it. -/
theorem overconfident_valid_not_loaded :
    ¬ValidatorSound (.single "/p.json".toList overconfidentProfile) .empty "/p.json".toList := by
  intro hsound
  obtain ⟨s', -, -, hload, -⟩ := hsound _ rfl rfl
  have herror := congrArg Prod.fst hload
  cases herror

end Kernel
end AvaListener
