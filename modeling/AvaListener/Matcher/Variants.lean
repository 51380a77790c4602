import AvaListener.Library.Fallible
import AvaListener.Matcher.PhraseRegistry

/-!
# The variant index

`runtime/matcher/variants.py`: three structures rebuilt from the registry after
every profile load.  The registry and the index are separate module-level
stores, so a `MatcherState` holds both and `InSync` says that the index was
rebuilt after the last change of the registry.
-/

namespace AvaListener
namespace Matcher

open Library

/-- `_all_variants`, `_variant_to_canon` and `_phrase_to_entry`.  The entry
dictionary of a phrase carries the fields of its descriptor. -/
structure VariantIndex where
  allVariants : List Text
  variantToCanon : Dict Text Text
  phraseToEntry : Dict Text PhraseConfig
  deriving DecidableEq

namespace VariantIndex

def empty : VariantIndex := ⟨[], Dict.empty, Dict.empty⟩

/-- One variant of an entry: first occurrence is listed, last writer wins the
canonical phrase. -/
def addVariant (lib : TextLib) (canonical : Text) (idx : VariantIndex) (v : Text) :
    VariantIndex :=
  let norm := normVariant lib v
  if norm = [] then idx
  else
    { idx with
      allVariants :=
        if norm ∈ idx.allVariants then idx.allVariants else idx.allVariants ++ [norm]
      variantToCanon := idx.variantToCanon.set norm canonical }

/-- One registered entry, enabled or not. -/
def addEntry (lib : TextLib) (idx : VariantIndex) (cfg : PhraseConfig) : VariantIndex :=
  cfg.variants.foldl (addVariant lib cfg.phrase)
    { idx with phraseToEntry := idx.phraseToEntry.set cfg.phrase cfg }

/-- `_build_index_from_registry`. -/
def build (lib : TextLib) (r : PhraseRegistry) : VariantIndex :=
  r.getAll.foldl (addEntry lib) empty

end VariantIndex

/-- The registry singleton together with the variant index. -/
structure MatcherState where
  registry : PhraseRegistry
  index : VariantIndex
  deriving DecidableEq

namespace MatcherState

def empty : MatcherState := ⟨PhraseRegistry.empty, VariantIndex.empty⟩

/-- `rebuild_index`. -/
def rebuildIndex (lib : TextLib) (m : MatcherState) : MatcherState :=
  { m with index := VariantIndex.build lib m.registry }

/-- The index is up to date. -/
def InSync (lib : TextLib) (m : MatcherState) : Prop :=
  m.index = VariantIndex.build lib m.registry

instance (lib : TextLib) (m : MatcherState) : Decidable (m.InSync lib) :=
  inferInstanceAs (Decidable (_ = _))

def getVariants (m : MatcherState) : List Text :=
  m.index.allVariants

def getCanonical (lib : TextLib) (m : MatcherState) (variant : Text) : Option Text :=
  m.index.variantToCanon.get? (normVariant lib variant)

def getWakewordForPhrase (lib : TextLib) (m : MatcherState) (phrase : Text) :
    Option PhraseConfig :=
  m.index.phraseToEntry.get? (normVariant lib phrase)

def getActivePhrases (m : MatcherState) : List Text :=
  m.registry.getActive.map (·.phrase)

/-- The registry part of `WakeEngine.load_profile`: the new phrases are built
first, then the store is cleared, refilled and the index rebuilt; a phrase that
fails validation leaves both stores as they were. -/
def loadPhrases (lib : TextLib) (m : MatcherState) (wakePhrases : List PhraseEntry) :
    Except PhraseError MatcherState :=
  match wakePhrases.mapM (PhraseConfig.fromDict lib) with
  | .error e => .error e
  | .ok newPhrases =>
      .ok (rebuildIndex lib
        { m with registry := newPhrases.foldl PhraseRegistry.addPhrase m.registry.clear })

@[simp] theorem rebuildIndex_registry (lib : TextLib) (m : MatcherState) :
    (m.rebuildIndex lib).registry = m.registry := rfl

/-- A loaded profile leaves an up-to-date index. -/
theorem loadPhrases_inSync {lib : TextLib} {m m' : MatcherState} {wakePhrases : List PhraseEntry}
    (h : m.loadPhrases lib wakePhrases = .ok m') : m'.InSync lib := by
  unfold loadPhrases at h
  split at h
  · cases h
  · cases h
    rfl

end MatcherState

/-! ## A built index -/

/-- A registered entry of phrase `p` lists the normalised variant. -/
def PhraseRegistry.ListsFor (lib : TextLib) (r : PhraseRegistry) (v p : Text) : Prop :=
  ∃ cfg ∈ r.getAll, cfg.phrase = p ∧ ∃ w ∈ cfg.variants, normVariant lib w = v

namespace VariantIndex

variable (lib : TextLib)

/-- The canonical phrases of an index are those of the variants it lists. -/
structure Matched (lists : Text → Text → Prop) (idx : VariantIndex) : Prop where
  keys : ∀ v, (∃ p, idx.variantToCanon.get? v = some p) ↔ v ∈ idx.allVariants
  phrase : ∀ v p, idx.variantToCanon.get? v = some p → lists v p

theorem Matched.addVariant {lists : Text → Text → Prop} {idx : VariantIndex}
    (h : Matched lists idx) {canonical w : Text}
    (hlists : normVariant lib w ≠ [] → lists (normVariant lib w) canonical) :
    Matched lists (addVariant lib canonical idx w) := by
  by_cases hnorm : normVariant lib w = []
  · simpa [VariantIndex.addVariant, hnorm] using h
  · constructor
    · intro v
      simp only [VariantIndex.addVariant, hnorm, if_false]
      by_cases hv : v = normVariant lib w
      · subst hv
        rw [Dict.get?_set_self]
        refine iff_of_true ⟨canonical, rfl⟩ ?_
        split
        next hold => exact hold
        · simp
      · rw [Dict.get?_set_of_ne _ _ hv, h.keys v]
        split
        · exact Iff.rfl
        · simp [hv]
    · intro v p hget
      simp only [VariantIndex.addVariant, hnorm, if_false] at hget
      by_cases hv : v = normVariant lib w
      · subst hv
        rw [Dict.get?_set_self] at hget
        cases hget
        exact hlists hnorm
      · rw [Dict.get?_set_of_ne _ _ hv] at hget
        exact h.phrase v p hget

/-- Of a built index every canonical phrase is that of an entry with the variant. -/
theorem matched_build (r : PhraseRegistry) : Matched (r.ListsFor lib) (build lib r) := by
  refine List.foldlRecOn _ _ ⟨by simp [empty, Dict.get?], nofun⟩ ?_
  intro idx h cfg hcfg
  refine List.foldlRecOn _ _ ⟨h.keys, h.phrase⟩ ?_
  intro idx h w hw
  exact h.addVariant lib fun _ => ⟨cfg, hcfg, rfl, w, hw, rfl⟩

/-- Every canonical phrase the index can answer with is the phrase of a
registered entry. -/
theorem build_canon_registered (r : PhraseRegistry) {v c : Text}
    (h : (build lib r).variantToCanon.get? v = some c) : ∃ cfg ∈ r.getAll, cfg.phrase = c := by
  obtain ⟨cfg, hmem, hphrase, -⟩ := (matched_build lib r).phrase v c h
  exact ⟨cfg, hmem, hphrase⟩

end VariantIndex

/-- **The variants of an index** are the normalised variants of the registered
entries, enabled or not. -/
theorem VariantIndex.mem_build_allVariants (lib : TextLib) (r : PhraseRegistry) {v : Text} :
    v ∈ (build lib r).allVariants ↔
      v ≠ [] ∧ ∃ cfg ∈ r.getAll, ∃ w ∈ cfg.variants, normVariant lib w = v := by
  have hvariants : ∀ (ws : List Text) (canonical : Text) (idx : VariantIndex),
      v ∈ (ws.foldl (addVariant lib canonical) idx).allVariants ↔
        v ∈ idx.allVariants ∨ v ≠ [] ∧ ∃ w ∈ ws, normVariant lib w = v := by
    intro ws canonical
    induction ws with
    | nil => simp
    | cons w ws ih =>
        intro idx
        have hone : v ∈ (addVariant lib canonical idx w).allVariants ↔
            v ∈ idx.allVariants ∨ v ≠ [] ∧ normVariant lib w = v := by
          by_cases hnorm : normVariant lib w = []
          · simp only [addVariant, hnorm, if_true]
            exact ⟨Or.inl, fun h => h.elim id fun h => absurd h.2.symm h.1⟩
          · by_cases hold : normVariant lib w ∈ idx.allVariants
            · simp only [addVariant, hnorm, if_false, hold, if_true]
              exact ⟨Or.inl, fun h => h.elim id fun h => h.2 ▸ hold⟩
            · simp only [addVariant, hnorm, if_false, hold, List.mem_append, List.mem_singleton]
              refine or_congr_right ⟨?_, fun h => h.2.symm⟩
              rintro rfl
              exact ⟨hnorm, rfl⟩
        rw [List.foldl_cons, ih, hone]
        simp only [List.exists_mem_cons_iff, and_or_left, or_assoc]
  have hentries : ∀ (cfgs : List PhraseConfig) (idx : VariantIndex),
      v ∈ (cfgs.foldl (addEntry lib) idx).allVariants ↔
        v ∈ idx.allVariants ∨
          v ≠ [] ∧ ∃ cfg ∈ cfgs, ∃ w ∈ cfg.variants, normVariant lib w = v := by
    intro cfgs
    induction cfgs with
    | nil => simp
    | cons cfg rest ih =>
        intro idx
        rw [List.foldl_cons, ih, addEntry, hvariants]
        simp only [List.exists_mem_cons_iff, and_or_left, or_assoc]
  rw [build, hentries]
  simp [empty]

/-- A profile is only loaded when every one of its entries passes validation. -/
theorem MatcherState.fromDict_of_loadPhrases {lib : TextLib} {m m' : MatcherState}
    {wakePhrases : List PhraseEntry} (h : m.loadPhrases lib wakePhrases = .ok m')
    {data : PhraseEntry} (hmem : data ∈ wakePhrases) :
    ∃ cfg, PhraseConfig.fromDict lib data = .ok cfg := by
  unfold loadPhrases at h
  split at h
  · cases h
  next newPhrases hnew =>
    obtain ⟨cfg, -, hcfg⟩ := exists_mem_of_mapM hnew hmem
    exact ⟨cfg, hcfg⟩

end Matcher
end AvaListener
