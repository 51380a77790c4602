import AvaListener.Kernel.TypedProfiles
import AvaListener.Matcher.IndexCoherence
import AvaListener.Matcher.StoredPhrases

/-!
# The operations of the registry on typed phrases

The engine edits a registry of typed phrases (`PhraseRegistry`, `RegistryOp`); the program's
registry takes updates with values of any type (`StoredRegistry`).  Where ids and updates are
typed, the two are the same program: `edit_toStored`.
-/

namespace AvaListener
namespace Matcher

open Library

def PhraseConfig.toStored (cfg : PhraseConfig) : StoredPhrase :=
  cfg.toLoaded.toStored

def PhraseRegistry.toStored (r : PhraseRegistry) : StoredRegistry :=
  r.phrases.mapEntries str_injective PhraseConfig.toStored

def PhraseError.toCheck (e : PhraseError) : PhraseCheckError :=
  e.toObjectError.toCheck

/-- An item of an update, if it is given. -/
def updateItem (key : Text) (v : Option PyValue) : List (PyKey × PyValue) :=
  (v.map fun v => (.str key, v)).toList

/-- The items of an update. -/
def PhraseUpdates.items (updates : PhraseUpdates) : List (PyKey × PyValue) :=
  updateItem thresholdKey (updates.threshold.map fun t => .float (.finite t)) ++
    (updateItem cooldownMsKey (updates.cooldownMs.map .int) ++
      (updateItem enabledKey (updates.enabled.map .bool) ++
        (updateItem weightKey (updates.weight.map fun w => .float (.finite w)) ++
          updateItem variantsKey (updates.variants.map fun vs => .list (vs.map .str)))))

theorem updateItem_sublist (key : Text) (v : Option PyValue) :
    ((updateItem key v).map Prod.fst).Sublist [.str key] := by
  cases v with
  | none => exact List.nil_sublist _
  | some v => exact List.Sublist.refl _

/-- The keys in the order of the items. -/
def updateKeys : List PyKey :=
  [.str thresholdKey, .str cooldownMsKey, .str enabledKey, .str weightKey, .str variantsKey]

theorem updateKeys_nodup : updateKeys.Nodup := by
  decide +kernel

theorem PhraseUpdates.items_nodup (updates : PhraseUpdates) :
    (updates.items.map Prod.fst).Nodup := by
  have hkeys : (updates.items.map Prod.fst).Sublist updateKeys := by
    simp only [items, List.map_append]
    refine (updateItem_sublist thresholdKey _).append ?_
    refine (updateItem_sublist cooldownMsKey _).append ?_
    refine (updateItem_sublist enabledKey _).append ?_
    exact (updateItem_sublist weightKey _).append (updateItem_sublist variantsKey _)
  exact hkeys.nodup updateKeys_nodup

/-- The dictionary of an update. -/
def PhraseUpdates.toDict (updates : PhraseUpdates) : Dict PyKey PyValue :=
  ⟨updates.items, updates.items_nodup⟩

/-! ## One phrase -/

theorem variantsOf_texts (lib : TextLib) (vs : List Text) :
    variantsOf lib (.list (vs.map .str)) = .ok (cleanVariants lib vs) :=
  bind_eq_ok_iff.mpr ⟨vs.map .str, rfl, bind_eq_ok_iff.mpr ⟨vs, mapM_text_str vs, rfl⟩⟩

/-- What the loop of `with_updates` makes of a typed update. -/
theorem ofItems_items (lib : TextLib) (updates : PhraseUpdates) :
    MappedUpdates.ofItems lib updates.items = .ok
      { threshold := updates.threshold.map fun t => .float (.finite t)
        cooldownMs := updates.cooldownMs.map .int
        enabled := updates.enabled.map .bool
        weight := updates.weight.map fun w => .float (.finite w)
        variants := updates.variants.map (cleanVariants lib) } := by
  obtain ⟨threshold, cooldownMs, enabled, weight, variants⟩ := updates
  let t := threshold.map fun t => PyValue.float (.finite t)
  let c := cooldownMs.map PyValue.int
  let e := enabled.map PyValue.bool
  let w := weight.map fun w => PyValue.float (.finite w)
  have hthreshold : (updateItem thresholdKey t).foldlM (MappedUpdates.put lib) .empty =
      .ok ⟨t, none, none, none, none⟩ := by
    cases threshold <;> rfl
  have hcooldown : (updateItem cooldownMsKey c).foldlM (MappedUpdates.put lib)
      ⟨t, none, none, none, none⟩ = .ok ⟨t, c, none, none, none⟩ := by
    cases cooldownMs <;> rfl
  have henabled : (updateItem enabledKey e).foldlM (MappedUpdates.put lib)
      ⟨t, c, none, none, none⟩ = .ok ⟨t, c, e, none, none⟩ := by
    cases enabled <;> rfl
  have hweight : (updateItem weightKey w).foldlM (MappedUpdates.put lib)
      ⟨t, c, e, none, none⟩ = .ok ⟨t, c, e, w, none⟩ := by
    cases weight <;> rfl
  have hvariants : (updateItem variantsKey (variants.map fun vs => .list (vs.map .str))).foldlM
      (MappedUpdates.put lib) ⟨t, c, e, w, none⟩ =
        .ok ⟨t, c, e, w, variants.map (cleanVariants lib)⟩ := by
    cases variants with
    | none => rfl
    | some vs =>
        have hput : MappedUpdates.put lib ⟨t, c, e, w, none⟩
            (.str variantsKey, .list (vs.map .str)) =
              .ok ⟨t, c, e, w, some (cleanVariants lib vs)⟩ :=
          map_eq_ok_iff.mpr ⟨_, variantsOf_texts lib vs, rfl⟩
        rw [Option.map_some, updateItem, Option.map_some, Option.toList_some, List.foldlM_cons,
          hput, ok_bind]
        rfl
  rw [MappedUpdates.ofItems, PhraseUpdates.items, List.foldlM_append, hthreshold, ok_bind,
    List.foldlM_append, hcooldown, ok_bind, List.foldlM_append, henabled, ok_bind,
    List.foldlM_append, hweight, ok_bind, hvariants]

/-- The two constructors check the same. -/
theorem build_typed (phraseId phrase : Text) (variants : List Text) (threshold : ℚ)
    (cooldownMs : ℤ) (enabled : Bool) (weight : ℚ) :
    PhraseFields.build ⟨.str phraseId, phrase, variants, .float (.finite threshold),
        .int cooldownMs, .bool enabled, .float (.finite weight)⟩ =
      ((PhraseConfig.make phraseId phrase variants threshold cooldownMs enabled weight).map
        PhraseConfig.toStored).mapError PhraseError.toCheck := by
  have hraised : ∀ e : PhraseError, ((Except.error e : Except PhraseError PhraseConfig).map
      PhraseConfig.toStored).mapError PhraseError.toCheck = .error e.toCheck := fun _ => rfl
  unfold PhraseConfig.make
  by_cases hid : phraseId = []
  · rw [dif_pos hid, hraised]
    refine PhraseFields.build_of_error ?_
    simp [PhraseFields.postInit, PyValue.truthy, hid, PhraseError.toCheck,
      PhraseError.toObjectError, PhraseObjectError.toCheck]
  by_cases hphrase : phrase = []
  · rw [dif_neg hid, dif_pos hphrase, hraised]
    refine PhraseFields.build_of_error ?_
    simp [PhraseFields.postInit, PyValue.truthy, hid, hphrase, PhraseError.toCheck,
      PhraseError.toObjectError, PhraseObjectError.toCheck]
  have hpost := PhraseFields.postInit_of_numbers (f := ⟨.str phraseId, phrase, variants,
    .float (.finite threshold), .int cooldownMs, .bool enabled, .float (.finite weight)⟩)
    (by simpa [PyValue.truthy] using hid) hphrase rfl rfl
  rw [dif_neg hid, dif_neg hphrase]
  by_cases hrange : 0 < threshold ∧ threshold ≤ 1
  · by_cases hcool : 0 ≤ cooldownMs
    · have hrational : (0 : ℚ) ≤ cooldownMs := by exact_mod_cast hcool
      rw [if_pos hrange, if_pos hrational] at hpost
      rw [PhraseFields.build_of_postInit hpost, dif_pos hrange, dif_pos hcool]
      rfl
    · have hrational : ¬ (0 : ℚ) ≤ cooldownMs := by exact_mod_cast hcool
      rw [if_pos hrange, if_neg hrational] at hpost
      rw [PhraseFields.build_of_error hpost, dif_pos hrange, dif_neg hcool, hraised]
      rfl
  · rw [if_neg hrange] at hpost
    rw [PhraseFields.build_of_error hpost, dif_neg hrange, hraised]
    rfl

/-- **One update.** -/
theorem withUpdates_toStored (lib : TextLib) (cfg : PhraseConfig) (updates : PhraseUpdates) :
    cfg.toStored.withUpdates lib updates.toDict =
      ((cfg.withUpdates lib updates).map PhraseConfig.toStored).mapError PhraseError.toCheck := by
  have hitems : MappedUpdates.ofItems lib updates.toDict.entries = _ := ofItems_items lib updates
  rw [PhraseConfig.withUpdates, ← build_typed, StoredPhrase.withUpdates, hitems]
  refine congrArg PhraseFields.build (PhraseFields.mk.injEq .. |>.mpr ?_)
  exact ⟨rfl, rfl, rfl, Option.getD_map .., Option.getD_map .., Option.getD_map ..,
    Option.getD_map ..⟩

/-! ## One operation -/

/-- The operation on the registry that takes any values. -/
def RegistryOp.onStored (lib : TextLib) (r : StoredRegistry) : RegistryOp → RegistryOutcome
  | addPhrase phrase => r.addPhrase phrase.toStored
  | removePhrase phraseId => r.removePhrase (.str phraseId)
  | enablePhrase phraseId => r.enablePhrase (.str phraseId)
  | disablePhrase phraseId => r.disablePhrase (.str phraseId)
  | updatePhrase phraseId updates => r.updatePhrase lib (.str phraseId) updates.toDict
  | clear => r.clear

theorem set_toStored (r : PhraseRegistry) (phraseId : Text) (cfg : PhraseConfig) :
    Dict.set r.toStored (.str phraseId) cfg.toStored =
      (PhraseRegistry.mk (r.phrases.set phraseId cfg)).toStored :=
  Dict.set_mapEntries str_injective _ r.phrases phraseId cfg

theorem get?_toStored (r : PhraseRegistry) (phraseId : Text) :
    Dict.get? r.toStored (.str phraseId) =
      (r.phrases.get? phraseId).map PhraseConfig.toStored :=
  Dict.get?_mapEntries str_injective _ r.phrases phraseId

/-- What an operation on typed phrases comes to for the registry that takes any values. -/
def typedOutcome (r : PhraseRegistry) : Except PhraseError PhraseRegistry → RegistryOutcome
  | .ok r' => (r'.toStored, .ok .nothing)
  | .error e => (r.toStored, .error e.toCheck)

/-- Rewriting a phrase, where the new one is typed too. -/
theorem rewritePhrase_toStored (r : PhraseRegistry) (phraseId : Text)
    {f : StoredPhrase → Except PhraseCheckError StoredPhrase}
    {g : PhraseConfig → Except PhraseError PhraseConfig}
    (hfg : ∀ cfg, f cfg.toStored =
      ((g cfg).map PhraseConfig.toStored).mapError PhraseError.toCheck) :
    r.toStored.rewritePhrase (.str phraseId) f =
      typedOutcome r (match r.phrases.get? phraseId with
        | some cfg => (g cfg).map fun cfg => ⟨r.phrases.set phraseId cfg⟩
        | none => .ok r) := by
  unfold StoredRegistry.rewritePhrase
  rw [PyValue.hash]
  dsimp only
  rw [get?_toStored]
  cases r.phrases.get? phraseId with
  | none => rfl
  | some cfg =>
      rw [Option.map_some]
      dsimp only
      rw [hfg]
      cases g cfg with
      | error e => rfl
      | ok cfg =>
          exact congrArg (fun s : StoredRegistry => (s, Except.ok RegistryAnswer.nothing))
            (set_toStored r phraseId cfg)

/-- A typed update raises where the program's does, and stores the same otherwise. -/
theorem updatePhrase_toStored (lib : TextLib) (r : PhraseRegistry) (phraseId : Text)
    (updates : PhraseUpdates) :
    r.toStored.updatePhrase lib (.str phraseId) updates.toDict =
      typedOutcome r (r.updatePhrase lib phraseId updates) :=
  rewritePhrase_toStored r phraseId fun cfg => withUpdates_toStored lib cfg updates

theorem setEnabled_toStored (r : PhraseRegistry) (phraseId : Text) (enabled : Bool) :
    r.toStored.rewritePhrase (.str phraseId) (StoredRegistry.withEnabled enabled) =
      typedOutcome r (.ok (r.setEnabled phraseId enabled)) := by
  have hwith : ∀ cfg : PhraseConfig, StoredRegistry.withEnabled enabled cfg.toStored =
      (((.ok { cfg with enabled := enabled } : Except PhraseError PhraseConfig)).map
        PhraseConfig.toStored).mapError PhraseError.toCheck := fun cfg =>
    PhraseFields.build_of_postInit
      ({ cfg with enabled := enabled } : PhraseConfig).toStored.checked
  rw [rewritePhrase_toStored r phraseId hwith, PhraseRegistry.setEnabled]
  cases r.phrases.get? phraseId with
  | none => rfl
  | some cfg => rfl

theorem removePhrase_toStored (r : PhraseRegistry) (phraseId : Text) :
    r.toStored.removePhrase (.str phraseId) = typedOutcome r (.ok (r.removePhrase phraseId)) := by
  have herase : Dict.erase r.toStored (.str phraseId) = (r.removePhrase phraseId).toStored :=
    Dict.erase_mapEntries str_injective _ r.phrases phraseId
  unfold StoredRegistry.removePhrase
  split
  next hempty =>
    have hsame : Dict.erase r.toStored (.str phraseId) = r.toStored := by
      generalize r.toStored = s at hempty
      obtain ⟨entries, hnodup⟩ := s
      obtain rfl := List.isEmpty_iff.mp hempty
      rfl
    rw [typedOutcome, ← herase, hsame]
  · exact congrArg (fun s : StoredRegistry => (s, Except.ok RegistryAnswer.nothing)) herase

/-- **The typed registry is the program's**: a typed operation does to it what the program's
does. -/
theorem edit_toStored (lib : TextLib) (r : PhraseRegistry) (op : RegistryOp) :
    (op.onStored lib r.toStored).1 = (op.edit lib r).toStored := by
  cases op with
  | addPhrase phrase => exact set_toStored r phrase.phraseId phrase
  | removePhrase phraseId => exact congrArg Prod.fst (removePhrase_toStored r phraseId)
  | enablePhrase phraseId => exact congrArg Prod.fst (setEnabled_toStored r phraseId true)
  | disablePhrase phraseId => exact congrArg Prod.fst (setEnabled_toStored r phraseId false)
  | updatePhrase phraseId updates =>
      rw [RegistryOp.onStored, updatePhrase_toStored, RegistryOp.edit]
      cases r.updatePhrase lib phraseId updates with
      | error e => rfl
      | ok r => rfl
  | clear => rfl

end Matcher
end AvaListener
