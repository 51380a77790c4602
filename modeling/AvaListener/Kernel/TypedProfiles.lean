import AvaListener.Kernel.LoadProfile
import AvaListener.Matcher.Variants

/-!
# Profiles of typed entries

The engine runs on descriptors built from typed entries (`PhraseConfig`,
`MatcherState`), while `load_profile` reads the untyped objects of a file
(`LoadedPhrase`, `ProfileStores`).  On objects that spell a typed entry out the
two are the same program: `loadProfile_typed`.
-/

namespace AvaListener
namespace Matcher

open Library

/-- The object of an entry, with all its keys. -/
def PhraseEntry.toObject (entry : PhraseEntry) : PyValue :=
  .dict
    [(phraseIdKey, .str entry.phraseId), (phraseKey, .str entry.phrase),
      (variantsKey, .list (entry.variants.map .str)),
      (thresholdKey, .float (.finite entry.threshold)), (cooldownMsKey, .int entry.cooldownMs),
      (enabledKey, .bool entry.enabled), (weightKey, .float (.finite entry.weight))]

def PhraseConfig.toLoaded (cfg : PhraseConfig) : LoadedPhrase where
  phraseId := .str cfg.phraseId
  phrase := cfg.phrase
  variants := cfg.variants
  threshold := cfg.threshold
  cooldownMs := cfg.cooldownMs
  enabled := cfg.enabled
  weight := .finite cfg.weight
  phraseId_truthy := by simpa [PyValue.truthy] using cfg.phraseId_ne_nil
  phrase_ne_nil := cfg.phrase_ne_nil
  threshold_pos := cfg.threshold_pos
  threshold_le_one := cfg.threshold_le_one
  cooldownMs_nonneg := cfg.cooldownMs_nonneg

def PhraseError.toObjectError : PhraseError → PhraseObjectError
  | .emptyPhraseId => .emptyPhraseId
  | .emptyPhrase => .emptyPhrase
  | .thresholdRange got => .thresholdRange (.finite got)
  | .negativeCooldown got => .negativeCooldown got

/-! ## One phrase -/

theorem mapM_text_str (texts : List Text) :
    (texts.map PyValue.str).mapM PyValue.text = .ok texts := by
  induction texts with
  | nil => rfl
  | cons t rest ih =>
      rw [List.map_cons, List.mapM_cons, ih]
      rfl

/-- What `from_dict` reads from a spelled-out entry. -/
theorem ofObject_toObject (lib : TextLib) (numbers : PyNumbers) (entry : PhraseEntry) :
    PhraseArgs.ofObject lib numbers entry.toObject = .ok
      { phraseId := .str entry.phraseId
        phrase := normVariant lib entry.phrase
        variants := cleanVariants lib entry.variants
        threshold := .finite entry.threshold
        cooldownMs := entry.cooldownMs
        enabled := entry.enabled
        weight := .finite entry.weight } := by
  have hvariants : objectVariants lib
      [(phraseIdKey, .str entry.phraseId), (phraseKey, .str entry.phrase),
        (variantsKey, .list (entry.variants.map .str)),
        (thresholdKey, .float (.finite entry.threshold)), (cooldownMsKey, .int entry.cooldownMs),
        (enabledKey, .bool entry.enabled), (weightKey, .float (.finite entry.weight))] =
      .ok (cleanVariants lib entry.variants) :=
    bind_eq_ok_iff.mpr ⟨entry.variants.map .str, rfl,
      bind_eq_ok_iff.mpr ⟨entry.variants, mapM_text_str entry.variants, rfl⟩⟩
  rw [PhraseArgs.ofObject, PhraseEntry.toObject, PyValue.items, ok_bind, hvariants, ok_bind]
  rfl

/-- **One phrase.**  `from_dict` accepts the object of an entry exactly when it
accepts the entry, and builds the same descriptor or raises the same error. -/
theorem fromDict_toObject (lib : TextLib) (numbers : PyNumbers) (entry : PhraseEntry) :
    LoadedPhrase.fromDict lib numbers entry.toObject =
      ((PhraseConfig.fromDict lib entry).map PhraseConfig.toLoaded).mapError
        PhraseError.toObjectError := by
  rw [LoadedPhrase.fromDict, ofObject_toObject]
  show LoadedPhrase.make _ = _
  unfold LoadedPhrase.make PhraseConfig.fromDict PhraseConfig.make
  by_cases hid : entry.phraseId = []
  · simp [hid, PyValue.truthy, Except.map, Except.mapError, PhraseError.toObjectError]
  · by_cases hphrase : normVariant lib entry.phrase = []
    · simp [hid, hphrase, PyValue.truthy, Except.map, Except.mapError, PhraseError.toObjectError]
    · by_cases hrange : 0 < entry.threshold ∧ entry.threshold ≤ 1
      · by_cases hcool : 0 ≤ entry.cooldownMs
        · simp [hid, hphrase, hrange, hcool, PyValue.truthy, Except.map, Except.mapError,
            PhraseConfig.toLoaded]
        · simp [hid, hphrase, hrange, hcool, PyValue.truthy, Except.map, Except.mapError,
            PhraseError.toObjectError]
      · simp [hid, hphrase, hrange, PyValue.truthy, Except.map, Except.mapError,
          PhraseError.toObjectError]

/-! ## The registry and the index -/

def PhraseRegistry.toLoaded (r : PhraseRegistry) : LoadedRegistry :=
  r.phrases.mapEntries str_injective PhraseConfig.toLoaded

def VariantIndex.toLoaded (idx : VariantIndex) : LoadedIndex where
  allVariants := idx.allVariants
  variantToCanon := idx.variantToCanon
  phraseToEntry := idx.phraseToEntry.mapEntries Function.injective_id PhraseConfig.toLoaded

theorem addPhrase_toLoaded (r : PhraseRegistry) (cfg : PhraseConfig) :
    r.toLoaded.addPhrase cfg.toLoaded = .ok (r.addPhrase cfg).toLoaded :=
  congrArg Except.ok (Dict.set_mapEntries str_injective _ r.phrases cfg.phraseId cfg)

theorem addAll_toLoaded (r : PhraseRegistry) (phrases : List PhraseConfig) :
    r.toLoaded.addAll (phrases.map PhraseConfig.toLoaded) =
      ((phrases.foldl PhraseRegistry.addPhrase r).toLoaded, .ok ()) := by
  induction phrases generalizing r with
  | nil => rfl
  | cons cfg rest ih =>
      rw [List.map_cons, LoadedRegistry.addAll, addPhrase_toLoaded]
      exact ih (r.addPhrase cfg)

theorem addVariant_toLoaded (lib : TextLib) (canonical : Text) (idx : VariantIndex) (v : Text) :
    LoadedIndex.addVariant lib canonical idx.toLoaded v =
      (idx.addVariant lib canonical v).toLoaded := by
  unfold LoadedIndex.addVariant VariantIndex.addVariant
  dsimp only
  split
  · rfl
  · rfl

theorem addEntry_toLoaded (lib : TextLib) (idx : VariantIndex) (cfg : PhraseConfig) :
    LoadedIndex.addEntry lib idx.toLoaded cfg.toLoaded = (idx.addEntry lib cfg).toLoaded := by
  have hset : idx.toLoaded.phraseToEntry.set cfg.phrase cfg.toLoaded =
      (idx.phraseToEntry.set cfg.phrase cfg).mapEntries Function.injective_id
        PhraseConfig.toLoaded :=
    Dict.set_mapEntries Function.injective_id _ idx.phraseToEntry cfg.phrase cfg
  calc LoadedIndex.addEntry lib idx.toLoaded cfg.toLoaded
      = cfg.variants.foldl (LoadedIndex.addVariant lib cfg.phrase)
          ⟨idx.allVariants, idx.variantToCanon,
            idx.toLoaded.phraseToEntry.set cfg.phrase cfg.toLoaded⟩ := rfl
    _ = cfg.variants.foldl (LoadedIndex.addVariant lib cfg.phrase)
          (VariantIndex.toLoaded
            { idx with phraseToEntry := idx.phraseToEntry.set cfg.phrase cfg }) := by
        rw [hset]
        rfl
    _ = (idx.addEntry lib cfg).toLoaded :=
        List.foldl_hom VariantIndex.toLoaded (addVariant_toLoaded lib cfg.phrase)

theorem foldl_addEntry_toLoaded (lib : TextLib) (idx : VariantIndex)
    (phrases : List PhraseConfig) :
    (phrases.map PhraseConfig.toLoaded).foldl (LoadedIndex.addEntry lib) idx.toLoaded =
      (phrases.foldl (VariantIndex.addEntry lib) idx).toLoaded := by
  induction phrases generalizing idx with
  | nil => rfl
  | cons cfg rest ih =>
      rw [List.map_cons, List.foldl_cons, addEntry_toLoaded]
      exact ih (idx.addEntry lib cfg)

theorem build_toLoaded (lib : TextLib) (r : PhraseRegistry) :
    LoadedIndex.build lib r.toLoaded = (VariantIndex.build lib r).toLoaded := by
  have hvalues : r.toLoaded.values = r.getAll.map PhraseConfig.toLoaded :=
    Dict.values_mapEntries str_injective PhraseConfig.toLoaded r.phrases
  rw [LoadedIndex.build, hvalues]
  exact foldl_addEntry_toLoaded lib VariantIndex.empty r.getAll

end Matcher

namespace Kernel

open Library Config Matcher

/-- **Typed profiles.**  Where the effective `wakePhrases` spell typed entries out,
`load_profile` does to the stores what loading the entries does to registry and
index: it registers them all, or raises and leaves both stores as they were. -/
theorem loadProfile_typed (env : LoadEnv) (s : ProfileStores) (m : MatcherState) {path : Text}
    {debugOverlay : Bool} {profile : Profile} {wakePhrases : List PhraseEntry}
    (hread : Config.loadProfile env.os env.files path debugOverlay = .ok profile)
    (htyped : profile.wakePhrases = .list (wakePhrases.map PhraseEntry.toObject)) :
    s.loadProfile env path debugOverlay =
      match m.loadPhrases env.lib wakePhrases with
      | .ok m => (.ok (), ⟨profile, m.registry.toLoaded, m.index.toLoaded⟩)
      | .error e => (.error (.phrase e.toObjectError), { s with activeProfile := profile }) := by
  have hphrases : env.newPhrases profile =
      (((wakePhrases.mapM (PhraseConfig.fromDict env.lib)).map
        (List.map PhraseConfig.toLoaded)).mapError PhraseError.toObjectError).mapError
          LoadError.phrase := by
    rw [LoadEnv.newPhrases, htyped]
    exact congrArg (Except.mapError LoadError.phrase)
      (mapM_map_of_corresponds (fromDict_toObject env.lib env.numbers) wakePhrases)
  unfold ProfileStores.loadProfile MatcherState.loadPhrases
  rw [hread]
  dsimp only
  rw [hphrases]
  cases wakePhrases.mapM (PhraseConfig.fromDict env.lib) with
  | error e => rfl
  | ok newPhrases =>
      have hall : LoadedRegistry.addAll Dict.empty (newPhrases.map PhraseConfig.toLoaded) =
          ((newPhrases.foldl PhraseRegistry.addPhrase m.registry.clear).toLoaded, .ok ()) :=
        addAll_toLoaded m.registry.clear newPhrases
      simp only [Except.map, Except.mapError, hall]
      rw [build_toLoaded]
      rfl

end Kernel
end AvaListener
