import AvaListener.Matcher.AsciiText
import AvaListener.Matcher.PhraseTable

/-!
# Whether the index follows the registry

The six mutators of `PhraseRegistry` change the registry alone; the variant index is
only rebuilt by `rebuild_index`, which `load_profile` calls.  A freshly rebuilt index
agrees with the registry (`agrees_rebuildIndex`).  From the empty registry on, the
index stays empty, so the two agree as long as no variant is registered
(`agrees_throughout_iff`).
-/

namespace AvaListener
namespace Matcher

open Library

/-- A registered entry, enabled or not, lists the normalised variant. -/
def PhraseRegistry.ListsVariant (lib : TextLib) (r : PhraseRegistry) (v : Text) : Prop :=
  v ≠ [] ∧ ∃ cfg ∈ r.getAll, ∃ w ∈ cfg.variants, normVariant lib w = v

/-- The accessors of `variants.py` say what the registry says. -/
structure MatcherState.Agrees (lib : TextLib) (m : MatcherState) : Prop where
  variants : ∀ v, v ∈ m.getVariants ↔ m.registry.ListsVariant lib v
  canonical : ∀ t, (∃ p, m.getCanonical lib t = some p) ↔
    m.registry.ListsVariant lib (normVariant lib t)
  canonical_phrase : ∀ t p, m.getCanonical lib t = some p →
    m.registry.ListsFor lib (normVariant lib t) p
  active : m.getActivePhrases = (m.registry.getAll.filter (·.enabled)).map (·.phrase)

/-! ## A rebuilt index -/

/-- **After a rebuild the matcher's view agrees with the registry.** -/
theorem MatcherState.agrees_rebuildIndex (lib : TextLib) (m : MatcherState) :
    (m.rebuildIndex lib).Agrees lib where
  variants := fun _ => VariantIndex.mem_build_allVariants lib m.registry
  canonical := fun t => by
    rw [getCanonical, rebuildIndex, (VariantIndex.matched_build lib m.registry).keys]
    exact VariantIndex.mem_build_allVariants lib m.registry
  canonical_phrase := fun _ p => (VariantIndex.matched_build lib m.registry).phrase _ p
  active := rfl

/-! ## The mutators -/

/-- The public operations that change a registry. -/
inductive RegistryOp where
  | addPhrase (phrase : PhraseConfig)
  | removePhrase (phraseId : Text)
  | enablePhrase (phraseId : Text)
  | disablePhrase (phraseId : Text)
  | updatePhrase (phraseId : Text) (updates : PhraseUpdates)
  | clear

namespace RegistryOp

variable (lib : TextLib)

/-- The registry after an operation.  An update that fails its validation raises
before it is stored. -/
def edit (r : PhraseRegistry) : RegistryOp → PhraseRegistry
  | addPhrase phrase => r.addPhrase phrase
  | removePhrase phraseId => r.removePhrase phraseId
  | enablePhrase phraseId => r.enablePhrase phraseId
  | disablePhrase phraseId => r.disablePhrase phraseId
  | updatePhrase phraseId updates =>
      match r.updatePhrase lib phraseId updates with
      | .ok r => r
      | .error _ => r
  | clear => r.clear

/-- An operation on the two stores. -/
def apply (m : MatcherState) (op : RegistryOp) : MatcherState :=
  { m with registry := op.edit lib m.registry }

/-- The stores after a sequence of operations on the empty registry. -/
def run (ops : List RegistryOp) : MatcherState :=
  ops.foldl (apply lib) MatcherState.empty

/-- The descriptor that an operation stores. -/
def stored (r : PhraseRegistry) : RegistryOp → Option PhraseConfig
  | addPhrase phrase => some phrase
  | enablePhrase phraseId => (r.getById phraseId).map ({ · with enabled := true })
  | disablePhrase phraseId => (r.getById phraseId).map ({ · with enabled := false })
  | updatePhrase phraseId updates =>
      (r.getById phraseId).bind fun cfg => (cfg.withUpdates lib updates).toOption
  | _ => none

/-- The descriptor that an operation stores lists a variant that is not blank. -/
def BringsVariant (r : PhraseRegistry) (op : RegistryOp) : Prop :=
  ∃ cfg, op.stored lib r = some cfg ∧ ∃ w ∈ cfg.variants, normVariant lib w ≠ []

theorem mem_getAll_set {phrases : Dict Text PhraseConfig} {key : Text} {cfg other : PhraseConfig}
    (h : other ∈ (PhraseRegistry.mk (phrases.set key cfg)).getAll) :
    other = cfg ∨ other ∈ (PhraseRegistry.mk phrases).getAll := by
  obtain ⟨e, he, rfl⟩ := List.mem_map.mp h
  rcases mem_setEntry he with rfl | ⟨hold, -⟩
  · exact Or.inl rfl
  · exact Or.inr (List.mem_map_of_mem hold)

theorem mem_getAll_set_self (phrases : Dict Text PhraseConfig) (key : Text) (cfg : PhraseConfig) :
    cfg ∈ (PhraseRegistry.mk (phrases.set key cfg)).getAll :=
  List.mem_map_of_mem (f := Prod.snd) (mem_setEntry_self ..)

/-- An operation registers nothing but the descriptor it stores. -/
theorem mem_getAll_edit {r : PhraseRegistry} {op : RegistryOp} {cfg : PhraseConfig}
    (h : cfg ∈ (op.edit lib r).getAll) : op.stored lib r = some cfg ∨ cfg ∈ r.getAll := by
  have hflag : ∀ (phraseId : Text) (enabled : Bool),
      cfg ∈ (r.setEnabled phraseId enabled).getAll →
        (r.getById phraseId).map ({ · with enabled := enabled }) = some cfg ∨ cfg ∈ r.getAll := by
    intro phraseId enabled hmem
    unfold PhraseRegistry.setEnabled at hmem
    unfold PhraseRegistry.getById
    cases hget : r.phrases.get? phraseId with
    | none => exact Or.inr (by simpa only [hget] using hmem)
    | some old =>
        rw [hget] at hmem
        exact (mem_getAll_set hmem).imp (fun heq => congrArg some heq.symm) id
  cases op with
  | addPhrase phrase => exact (mem_getAll_set h).imp (fun heq => congrArg some heq.symm) id
  | removePhrase phraseId =>
      obtain ⟨e, he, rfl⟩ := List.mem_map.mp h
      exact Or.inr (List.mem_map_of_mem (List.mem_of_mem_filter he))
  | enablePhrase phraseId => exact hflag phraseId true h
  | disablePhrase phraseId => exact hflag phraseId false h
  | updatePhrase phraseId updates =>
      rw [edit, PhraseRegistry.updatePhrase] at h
      rw [stored, PhraseRegistry.getById]
      -- Both ways an update changes nothing: an unknown id, and a failed validation.
      cases hget : r.phrases.get? phraseId with
      | none => exact Or.inr (by simpa only [hget] using h)
      | some old =>
          cases hnew : old.withUpdates lib updates with
          | error e => exact Or.inr (by simpa only [hget, hnew, Except.map] using h)
          | ok new =>
              simp only [hget, hnew, Except.map] at h
              refine (mem_getAll_set h).imp ?_ id
              rintro rfl
              simp [hnew, Except.toOption]
  | clear => cases h

/-- What an operation stores is registered. -/
theorem mem_getAll_of_stored {r : PhraseRegistry} {op : RegistryOp} {cfg : PhraseConfig}
    (h : op.stored lib r = some cfg) : cfg ∈ (op.edit lib r).getAll := by
  have hflag : ∀ (phraseId : Text) (enabled : Bool),
      (r.getById phraseId).map ({ · with enabled := enabled }) = some cfg →
        cfg ∈ (r.setEnabled phraseId enabled).getAll := by
    intro phraseId enabled hmap
    obtain ⟨old, hget, rfl⟩ := Option.map_eq_some_iff.mp hmap
    rw [PhraseRegistry.getById] at hget
    rw [PhraseRegistry.setEnabled, hget]
    exact mem_getAll_set_self ..
  cases op with
  | addPhrase phrase =>
      cases h
      exact mem_getAll_set_self ..
  | removePhrase _ => cases h
  | enablePhrase phraseId => exact hflag phraseId true h
  | disablePhrase phraseId => exact hflag phraseId false h
  | updatePhrase phraseId updates =>
      obtain ⟨old, hget, hnew⟩ := Option.bind_eq_some_iff.mp h
      rw [PhraseRegistry.getById] at hget
      rw [edit, PhraseRegistry.updatePhrase, hget]
      cases hupdate : old.withUpdates lib updates with
      | error e =>
          rw [hupdate] at hnew
          cases hnew
      | ok new =>
          rw [hupdate] at hnew
          cases hnew
          simp only [hupdate, Except.map]
          exact mem_getAll_set_self ..
  | clear => cases h

/-- No operation touches the index. -/
theorem run_index (ops : List RegistryOp) : (run lib ops).index = VariantIndex.empty := by
  refine List.foldlRecOn (motive := fun m => m.index = VariantIndex.empty) ops (apply lib) ?_ ?_
  · rfl
  · exact fun _ h _ _ => h

@[simp] theorem run_append_singleton (ops : List RegistryOp) (op : RegistryOp) :
    run lib (ops ++ [op]) = apply lib (run lib ops) op := by
  rw [run, List.foldl_append]
  rfl

/-- An empty index agrees with a registry that lists no variant. -/
theorem agrees_iff_of_empty {m : MatcherState} (h : m.index = VariantIndex.empty) :
    m.Agrees lib ↔ ∀ v, ¬m.registry.ListsVariant lib v := by
  have hvariants : m.getVariants = [] := by
    rw [MatcherState.getVariants, h]
    rfl
  have hcanonical : ∀ t, m.getCanonical lib t = none := by
    intro t
    rw [MatcherState.getCanonical, h]
    rfl
  constructor
  · intro hagrees v hlists
    have hmem := (hagrees.variants v).mpr hlists
    rw [hvariants] at hmem
    cases hmem
  · intro hnone
    exact {
      variants := fun v => by simp [hvariants, hnone v]
      canonical := fun t => by simp [hcanonical, hnone]
      canonical_phrase := fun t p hget => by simp [hcanonical t] at hget
      active := rfl }

/-- **When the matcher's view follows the registry.** -/
theorem agrees_throughout_iff (ops : List RegistryOp) :
    (∀ done, done <+: ops → (run lib done).Agrees lib) ↔
      ∀ done op, done ++ [op] <+: ops → ¬BringsVariant lib (run lib done).registry op := by
  have hlists : ∀ done, (run lib done).Agrees lib ↔
      ∀ v, ¬(run lib done).registry.ListsVariant lib v :=
    fun done => agrees_iff_of_empty lib (run_index lib done)
  constructor
  · rintro hagrees done op hpre ⟨cfg, hstored, w, hw, hne⟩
    have hnone := (hlists (done ++ [op])).mp (hagrees _ hpre)
    refine hnone (normVariant lib w) ⟨hne, cfg, ?_, w, hw, rfl⟩
    rw [run_append_singleton]
    exact mem_getAll_of_stored lib hstored
  · intro hquiet done
    induction done using List.reverseRecOn with
    | nil => exact fun _ => (hlists []).mpr fun v hv => by obtain ⟨-, cfg, hcfg, -⟩ := hv; cases hcfg
    | append_singleton done op ih =>
        intro hpre
        have hbefore := (hlists done).mp (ih ((List.prefix_append done [op]).trans hpre))
        refine (hlists _).mpr ?_
        rintro v ⟨hne, cfg, hcfg, w, hw, rfl⟩
        rw [run_append_singleton] at hcfg
        rcases mem_getAll_edit lib hcfg with hstored | hold
        · exact hquiet done op hpre ⟨cfg, hstored, w, hw, hne⟩
        · exact hbefore _ ⟨hne, cfg, hold, w, hw, rfl⟩

/-- A phrase with one variant. -/
def heyAva : PhraseConfig :=
  ⟨"core".toList, "hey ava".toList, ["hey ava".toList], 1, 2000, true, 1,
    by decide, by decide, by decide, by decide, by decide⟩

/-- A phrase that is added is not among the anchors. -/
theorem added_phrase_not_indexed :
    ¬∀ done, done <+: [addPhrase heyAva] → (run AsciiText.lib done).Agrees AsciiText.lib := by
  intro hagrees
  have hlast := hagrees _ List.prefix_rfl
  have hmem : "hey ava".toList ∈ (run AsciiText.lib [addPhrase heyAva]).getVariants := by
    refine (hlast.variants _).mpr ⟨by decide, heyAva, ?_, "hey ava".toList, ?_, rfl⟩
    · exact List.mem_singleton.mpr rfl
    · exact List.mem_singleton.mpr rfl
  cases hmem

end RegistryOp

end Matcher
end AvaListener
