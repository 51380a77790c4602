import AvaListener.Matcher.CanonicalPhrase
import AvaListener.Matcher.IndexCoherence

/-!
# The index after a rebuild

`_build_index_from_registry` fills three structures in one nested loop: the first
occurrence of a variant fixes its place, the last entry that lists it gives its
canonical phrase, and the last entry of a phrase gives its data.

The entries that `PhraseConfig.from_dict` builds carry normalised texts, so the loop
normalises nothing any more, and each structure is a fold of its own.
-/

namespace AvaListener
namespace Matcher

open Library

/-! ## Normal forms -/

/-- What normalising relies on of `str.lower`: lowering twice is lowering once, and
white space has no case. -/
structure NormLaws (lib : TextLib) : Prop where
  lower_lower : ∀ s : Text, lib.lower (lib.lower s) = lib.lower s
  strip_lower : ∀ s : Text, strip (lib.lower s) = lib.lower (strip s)

variable {lib : TextLib}

theorem NormLaws.normVariant_normVariant (laws : NormLaws lib) (v : Text) :
    normVariant lib (normVariant lib v) = normVariant lib v := by
  simp only [normVariant, laws.strip_lower, laws.lower_lower, strip_strip]

theorem AsciiText.lib_normLaws : NormLaws AsciiText.lib where
  lower_lower := AsciiText.lib_casingLaws.lower_lower
  strip_lower := by
    intro s
    have hspace : isSpace ∘ Char.toLower = isSpace := by
      funext c
      cases hc : isSpace c with
      | true => rw [Function.comp_apply, AsciiText.toLower_of_isSpace hc, hc]
      | false => exact AsciiText.isSpace_toLower hc
    show strip (s.map Char.toLower) = (strip s).map Char.toLower
    simp only [strip, List.dropWhile_map, ← List.map_reverse, hspace]

/-! ## Entries from profiles -/

/-- The descriptor comes from `PhraseConfig.from_dict`. -/
def PhraseConfig.FromProfile (lib : TextLib) (cfg : PhraseConfig) : Prop :=
  ∃ data, PhraseConfig.fromDict lib data = .ok cfg

/-- Cleaned variants are normal forms and not empty. -/
theorem mem_cleanVariants {raw : List Text} {v : Text} (h : v ∈ cleanVariants lib raw) :
    v ≠ [] ∧ ∃ w ∈ raw, normVariant lib w = v := by
  unfold cleanVariants at h
  induction raw using List.reverseRecOn with
  | nil => cases h
  | append_singleton raw w ih =>
      rw [List.foldl_append, List.foldl_cons, List.foldl_nil] at h
      have hraw (hold : v ∈ raw.foldl (fun clean v =>
          let norm := normVariant lib v
          if norm ≠ [] ∧ norm ∉ clean then clean ++ [norm] else clean) []) :
          v ≠ [] ∧ ∃ u ∈ raw ++ [w], normVariant lib u = v := by
        obtain ⟨hne, u, hu, heq⟩ := ih hold
        exact ⟨hne, u, List.mem_append_left _ hu, heq⟩
      dsimp only at h
      split at h
      next hnew =>
        rcases List.mem_append.mp h with hold | hlast
        · exact hraw hold
        · obtain rfl := List.mem_singleton.mp hlast
          exact ⟨hnew.1, w, by simp, rfl⟩
      · exact hraw h

theorem nodup_cleanVariants (lib : TextLib) (raw : List Text) : (cleanVariants lib raw).Nodup := by
  unfold cleanVariants
  induction raw using List.reverseRecOn with
  | nil => exact List.nodup_nil
  | append_singleton raw w ih =>
      rw [List.foldl_append, List.foldl_cons, List.foldl_nil]
      dsimp only
      split
      next hnew =>
        rw [← List.concat_eq_append]
        exact ih.concat hnew.2
      · exact ih

theorem PhraseConfig.FromProfile.variants {cfg : PhraseConfig} (h : cfg.FromProfile lib)
    (laws : NormLaws lib) {v : Text} (hv : v ∈ cfg.variants) :
    normVariant lib v = v ∧ v ≠ [] := by
  obtain ⟨data, hdata⟩ := h
  obtain ⟨-, -, hvariants, -⟩ := PhraseConfig.fromDict_eq_ok hdata
  rw [hvariants] at hv
  obtain ⟨hne, w, -, rfl⟩ := mem_cleanVariants hv
  exact ⟨laws.normVariant_normVariant w, hne⟩

theorem PhraseConfig.FromProfile.phrase {cfg : PhraseConfig} (h : cfg.FromProfile lib)
    (laws : NormLaws lib) : normVariant lib cfg.phrase = cfg.phrase := by
  obtain ⟨data, hdata⟩ := h
  obtain ⟨-, hphrase, -⟩ := PhraseConfig.fromDict_eq_ok hdata
  rw [hphrase]
  exact laws.normVariant_normVariant data.phrase

/-! ## The three folds -/

namespace VariantIndex

/-- The pairs of a variant and its canonical phrase, in the order of the loop. -/
def variantPairs (entries : List PhraseConfig) : List (Text × Text) :=
  entries.flatMap fun cfg => cfg.variants.map fun v => (v, cfg.phrase)

/-- The index that a list of entries is to have. -/
structure IndexOf (entries : List PhraseConfig) (idx : VariantIndex) : Prop where
  variants : idx.allVariants = (entries.flatMap (·.variants)).eraseDups
  canonical : idx.variantToCanon = Dict.empty.setAll (variantPairs entries)
  entry : idx.phraseToEntry = Dict.empty.setAll (entries.map fun cfg => (cfg.phrase, cfg))

theorem eraseDups_concat (vs : List Text) (v : Text) :
    (vs ++ [v]).eraseDups = if v ∈ vs then vs.eraseDups else vs.eraseDups ++ [v] := by
  rw [List.eraseDups_append]
  by_cases hmem : v ∈ vs
  · simp [hmem, List.removeAll]
  · simp [hmem, List.removeAll, List.eraseDups_cons]

/-- The inner loop over normalised variants. -/
theorem foldl_addVariant (canonical : Text) {vs : List Text}
    (hnorm : ∀ v ∈ vs, normVariant lib v = v ∧ v ≠ []) {seen : List Text} (idx : VariantIndex)
    (hseen : idx.allVariants = seen.eraseDups) :
    (vs.foldl (addVariant lib canonical) idx).allVariants = (seen ++ vs).eraseDups ∧
      (vs.foldl (addVariant lib canonical) idx).variantToCanon =
        idx.variantToCanon.setAll (vs.map fun v => (v, canonical)) ∧
      (vs.foldl (addVariant lib canonical) idx).phraseToEntry = idx.phraseToEntry := by
  induction vs generalizing seen idx with
  | nil => simpa using hseen
  | cons v vs ih =>
      obtain ⟨⟨hv, hne⟩, hrest⟩ := List.forall_mem_cons.mp hnorm
      have hone : (addVariant lib canonical idx v).allVariants = (seen ++ [v]).eraseDups ∧
          (addVariant lib canonical idx v).variantToCanon = idx.variantToCanon.set v canonical ∧
          (addVariant lib canonical idx v).phraseToEntry = idx.phraseToEntry := by
        simp [addVariant, hv, hne, hseen, eraseDups_concat]
      obtain ⟨hvariants, hcanonical, hentry⟩ := ih hrest _ hone.1
      refine ⟨?_, ?_, hentry.trans hone.2.2⟩
      · rw [List.foldl_cons, hvariants, List.append_assoc, List.singleton_append]
      · rw [List.foldl_cons, hcanonical, hone.2.1]
        rfl

/-- **The outer loop**: each structure is a fold of its own. -/
theorem indexOf_build (laws : NormLaws lib) {r : PhraseRegistry}
    (hentries : ∀ cfg ∈ r.getAll, cfg.FromProfile lib) : IndexOf r.getAll (build lib r) := by
  unfold build
  generalize r.getAll = entries at *
  induction entries using List.reverseRecOn with
  | nil => exact ⟨rfl, rfl, rfl⟩
  | append_singleton entries cfg ih =>
      obtain ⟨hvariants, hcanonical, hentry⟩ := ih fun c hc => hentries c (by simp [hc])
      have hcfg : cfg.FromProfile lib := hentries cfg (by simp)
      rw [List.foldl_append, List.foldl_cons, List.foldl_nil]
      generalize entries.foldl (addEntry lib) empty = idx at *
      obtain ⟨hfoldVariants, hfoldCanonical, hfoldEntry⟩ :=
        foldl_addVariant cfg.phrase (fun v hv => hcfg.variants laws hv)
          { idx with phraseToEntry := idx.phraseToEntry.set cfg.phrase cfg } hvariants
      refine ⟨?_, ?_, ?_⟩
      · rw [addEntry, hfoldVariants, List.flatMap_append, List.flatMap_singleton]
      · have hpairs : variantPairs (entries ++ [cfg]) =
            variantPairs entries ++ cfg.variants.map fun v => (v, cfg.phrase) := by
          simp [variantPairs]
        rw [addEntry, hfoldCanonical, hcanonical, hpairs, Dict.setAll_append]
      · rw [addEntry, hfoldEntry, hentry, List.map_append, Dict.setAll_append]
        rfl

/-! ## Reading the folds -/

theorem nodup_eraseDups (vs : List Text) : vs.eraseDups.Nodup := by
  induction vs using List.reverseRecOn with
  | nil => exact List.nodup_nil
  | append_singleton vs v ih =>
      rw [eraseDups_concat]
      split
      · exact ih
      next hfresh =>
        refine List.nodup_append.mpr ⟨ih, List.nodup_singleton v, ?_⟩
        rintro u hu w hw rfl
        obtain rfl := List.mem_singleton.mp hw
        exact hfresh (List.mem_eraseDups.mp hu)

/-- The last pair of a variant comes from the last entry that lists it. -/
theorem find?_variantPairs (entries : List PhraseConfig) (v : Text) :
    ((variantPairs entries).reverse.find? fun e => e.1 = v).map Prod.snd =
      (entries.reverse.find? fun cfg => v ∈ cfg.variants).map (·.phrase) := by
  induction entries using List.reverseRecOn with
  | nil => rfl
  | append_singleton entries cfg ih =>
      have hpairs : variantPairs (entries ++ [cfg]) =
          variantPairs entries ++ cfg.variants.map fun w => (w, cfg.phrase) := by
        simp [variantPairs]
      rw [hpairs, List.reverse_append, List.reverse_append, List.find?_append,
        List.reverse_singleton, List.singleton_append]
      by_cases hmem : v ∈ cfg.variants
      · obtain ⟨e, hfind⟩ : ∃ e, ((cfg.variants.map fun w => (w, cfg.phrase)).reverse.find?
            fun e => e.1 = v) = some e := by
          refine Option.isSome_iff_exists.mp (List.find?_isSome.mpr ⟨(v, cfg.phrase), ?_, by simp⟩)
          simpa using hmem
        have hphrase : e.2 = cfg.phrase := by
          have he := List.mem_of_find?_eq_some hfind
          rw [List.mem_reverse, List.mem_map] at he
          obtain ⟨w, -, rfl⟩ := he
          rfl
        rw [hfind, List.find?_cons_of_pos (by simpa using hmem)]
        simpa using hphrase
      · have hnone : ((cfg.variants.map fun w => (w, cfg.phrase)).reverse.find?
            fun e => e.1 = v) = none := by
          refine List.find?_eq_none.mpr fun e he => ?_
          rw [List.mem_reverse, List.mem_map] at he
          obtain ⟨w, hw, rfl⟩ := he
          simpa using fun heq : w = v => hmem (heq ▸ hw)
        rw [hnone, List.find?_cons_of_neg (by simpa using hmem)]
        simpa using ih

theorem find?_entries (entries : List PhraseConfig) (phrase : Text) :
    ((entries.map fun cfg => (cfg.phrase, cfg)).reverse.find? fun e => e.1 = phrase).map Prod.snd =
      entries.reverse.find? fun cfg => cfg.phrase = phrase := by
  rw [← List.map_reverse, List.find?_map, Option.map_map]
  exact Option.map_id' ..

end VariantIndex

/-- What the accessors of `variants.py` answer for the registered entries: the
variants once each, in the order of their first occurrence; for a variant the phrase
of the last entry that lists it; for a phrase the last entry with it. -/
structure MatcherState.IndexesEntries (lib : TextLib) (m : MatcherState) : Prop where
  variants_nodup : m.getVariants.Nodup
  variants_order : m.getVariants = (m.registry.getAll.flatMap (·.variants)).eraseDups
  variants_iff : ∀ v, v ∈ m.getVariants ↔ ∃ cfg ∈ m.registry.getAll, v ∈ cfg.variants
  canonical : ∀ v, m.getCanonical lib v =
    (m.registry.getAll.reverse.find? fun cfg => normVariant lib v ∈ cfg.variants).map (·.phrase)
  canonical_none : ∀ v, m.getCanonical lib v = none ↔
    ∀ cfg ∈ m.registry.getAll, normVariant lib v ∉ cfg.variants
  wakeword : ∀ cfg ∈ m.registry.getAll, m.getWakewordForPhrase lib cfg.phrase =
    m.registry.getAll.reverse.find? fun other => other.phrase = cfg.phrase

/-- **A rebuilt index** answers for the registered entries, if these come from
profiles. -/
theorem MatcherState.rebuildIndex_indexesEntries (laws : NormLaws lib) (m : MatcherState)
    (hentries : ∀ cfg ∈ m.registry.getAll, cfg.FromProfile lib) :
    (m.rebuildIndex lib).IndexesEntries lib := by
  obtain ⟨hvariants, hcanonical, hentry⟩ := VariantIndex.indexOf_build laws hentries
  have hcanon : ∀ v, (m.rebuildIndex lib).getCanonical lib v =
      (m.registry.getAll.reverse.find? fun cfg => normVariant lib v ∈ cfg.variants).map
        (·.phrase) := by
    intro v
    show (VariantIndex.build lib m.registry).variantToCanon.get? (normVariant lib v) = _
    rw [hcanonical, Dict.get?_setAll_reverse, VariantIndex.find?_variantPairs]
    exact Option.or_none
  refine ⟨?_, hvariants, ?_, hcanon, ?_, ?_⟩
  · show (VariantIndex.build lib m.registry).allVariants.Nodup
    rw [hvariants]
    exact VariantIndex.nodup_eraseDups _
  · intro v
    show v ∈ (VariantIndex.build lib m.registry).allVariants ↔ _
    rw [hvariants, List.mem_eraseDups, List.mem_flatMap]
    rfl
  · intro v
    rw [hcanon, Option.map_eq_none_iff, List.find?_eq_none]
    simp
  · intro cfg hcfg
    show (VariantIndex.build lib m.registry).phraseToEntry.get? (normVariant lib cfg.phrase) = _
    rw [(hentries cfg hcfg).phrase laws, hentry, Dict.get?_setAll_reverse,
      VariantIndex.find?_entries]
    exact Option.or_none

/-- What a profile load leaves in the registry comes from the profile. -/
theorem MatcherState.fromProfile_of_loadPhrases {m m' : MatcherState}
    {wakePhrases : List PhraseEntry} (h : m.loadPhrases lib wakePhrases = .ok m') :
    ∀ cfg ∈ m'.registry.getAll, cfg.FromProfile lib := by
  unfold loadPhrases at h
  split at h
  · cases h
  next newPhrases hnew =>
    cases h
    have hbuilt : ∀ cfg ∈ newPhrases, cfg.FromProfile lib := by
      intro cfg hcfg
      obtain ⟨data, -, hdata⟩ := exists_source_of_mapM hnew hcfg
      exact ⟨data, hdata⟩
    refine List.foldlRecOn
      (motive := fun r : PhraseRegistry => ∀ cfg ∈ r.getAll, cfg.FromProfile lib)
      newPhrases PhraseRegistry.addPhrase ?_ ?_
    · intro cfg hcfg
      cases hcfg
    · intro r hr phrase hphrase cfg hcfg
      rcases RegistryOp.mem_getAll_set hcfg with rfl | hold
      · exact hbuilt _ hphrase
      · exact hr cfg hold

/-- Two phrases that share a variant, in texts that are not normalised. -/
def sharedVariant : List PhraseEntry :=
  [{ phraseId := "first".toList
     phrase := "Hey Ava".toList
     variants := ["ava".toList, " hey ava ".toList]
     threshold := 0.8 },
    { phraseId := "second".toList
      phrase := "ok ava".toList
      variants := ["Ava".toList]
      threshold := 0.7 }]

theorem sharedVariant_indexesEntries :
    ∃ m, MatcherState.empty.loadPhrases AsciiText.lib sharedVariant = .ok m ∧
      (m.rebuildIndex AsciiText.lib).IndexesEntries AsciiText.lib := by
  cases hload : MatcherState.empty.loadPhrases AsciiText.lib sharedVariant with
  | error e =>
      have hok : (MatcherState.empty.loadPhrases AsciiText.lib sharedVariant).isOk = true := by
        decide +kernel
      rw [hload] at hok
      cases hok
  | ok m =>
      exact ⟨m, rfl, MatcherState.rebuildIndex_indexesEntries AsciiText.lib_normLaws m
        (MatcherState.fromProfile_of_loadPhrases hload)⟩

end Matcher
end AvaListener
