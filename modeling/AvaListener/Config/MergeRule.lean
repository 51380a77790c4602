import Mathlib.Data.List.DropRight
import AvaListener.Config.ProfileLoader

/-!
# What a merged chain of profiles has at each key

`merge_profiles` folds `_deep_merge` over a chain from the root ancestor to the
child.  Read key by key, the fold runs over the values that the profiles bind to
that key: the last one counts, and where it is an object, all objects right before
it are merged in turn.  `MergedByRule` says this to every depth.

In particular the value of a nearer descendant wins at every leaf.
-/

namespace AvaListener
namespace Config

open Library

/-! ## The rule -/

/-- The values that the profiles of a chain bind to a key, in the order of the
chain. -/
def bindings (chain : List Profile) (key : Text) : List PyValue :=
  chain.filterMap (·.get? key)

def Profile.toValue (profile : Profile) : PyValue :=
  .dict profile.entries

/-- An object as a profile of its own. -/
def objectOf : PyValue → Option Profile
  | .dict items => if h : (items.map Prod.fst).Nodup then some ⟨items, h⟩ else none
  | _ => none

/-- The objects at the end of a list of values, as many as there are in a row. -/
def objectBlock (values : List PyValue) : List Profile :=
  (values.rtakeWhile PyValue.isDict).filterMap objectOf

/-- The merged chain has, at every key, nothing if no profile binds it; the last
binding, if that is no object or the key holds the wake phrases; and otherwise the
merged block of objects at the end of the bindings, which follows the rule too. -/
inductive MergedByRule : List Profile → Prop
  | intro {chain : List Profile}
      (absent : ∀ key, (mergeProfiles chain).get? key = none ↔ ∀ p ∈ chain, p.get? key = none)
      (last : ∀ key, ∀ value ∈ (bindings chain key).getLast?,
        key = wakePhrasesKey ∨ value.isDict = false →
          (mergeProfiles chain).get? key = some value)
      (objects : ∀ key, ∀ value ∈ (bindings chain key).getLast?,
        key ≠ wakePhrasesKey → value.isDict = true →
          objectBlock (bindings chain key) ≠ [] ∧
          (mergeProfiles chain).get? key =
            some (mergeProfiles (objectBlock (bindings chain key))).toValue)
      (inside : ∀ key, ∀ value ∈ (bindings chain key).getLast?,
        key ≠ wakePhrasesKey → value.isDict = true →
          MergedByRule (objectBlock (bindings chain key))) :
      MergedByRule chain

/-! ## The fold, key by key -/

theorem bindings_append (chain : List Profile) (child : Profile) (key : Text) :
    bindings (chain ++ [child]) key = bindings chain key ++ (child.get? key).toList := by
  cases h : child.get? key <;> simp [bindings, h]

theorem mergeProfiles_append {chain : List Profile} (h : chain ≠ []) (child : Profile) :
    mergeProfiles (chain ++ [child]) = deepMerge (mergeProfiles chain) child := by
  cases chain with
  | nil => exact absurd rfl h
  | cons root rest => simp [mergeProfiles]

/-- The values of one key merged in turn. -/
def mergeBindings (key : Text) (values : List PyValue) : Option PyValue :=
  values.foldl (fun old value => some (mergeValue key old value)) none

theorem mergeBindings_append (key : Text) (values : List PyValue) (value : PyValue) :
    mergeBindings key (values ++ [value]) =
      some (mergeValue key (mergeBindings key values) value) := by
  simp [mergeBindings]

theorem mergeValue_none (key : Text) (value : PyValue) : mergeValue key none value = value := by
  cases value with
  | dict items => simp [mergeValue]
  | _ => rfl

/-- **The fold at one key.** -/
theorem get?_mergeProfiles (chain : List Profile) (key : Text) :
    (mergeProfiles chain).get? key = mergeBindings key (bindings chain key) := by
  induction chain using List.reverseRecOn with
  | nil => rfl
  | append_singleton chain child ih =>
      rw [bindings_append]
      by_cases hnil : chain = []
      · subst hnil
        cases h : child.get? key with
        | none => simpa [mergeProfiles, mergeBindings, bindings] using h
        | some value => simpa [mergeProfiles, mergeBindings, bindings, mergeValue_none] using h
      · rw [mergeProfiles_append hnil, get?_deepMerge, ih]
        cases child.get? key with
        | none => simp
        | some value =>
            rw [Option.toList_some, mergeBindings_append]
            rfl

theorem mergeBindings_eq_none_iff {key : Text} {values : List PyValue} :
    mergeBindings key values = none ↔ values = [] := by
  rcases List.eq_nil_or_concat values with rfl | ⟨front, value, rfl⟩
  · simp [mergeBindings]
  · simp [mergeBindings]

/-- A value that replaces whatever was there. -/
theorem mergeValue_of_replaces {key : Text} {value : PyValue}
    (h : key = wakePhrasesKey ∨ value.isDict = false) (old : Option PyValue) :
    mergeValue key old value = value := by
  cases value with
  | dict items =>
      have hkey : key = wakePhrasesKey := h.resolve_right (by simp [PyValue.isDict])
      simp [mergeValue, hkey]
  | _ => rfl

/-- An object over something that is no object. -/
theorem mergeValue_of_no_object {key : Text} {old : Option PyValue}
    (h : ∀ value ∈ old, value.isDict = false) (value : PyValue) : mergeValue key old value = value := by
  cases value with
  | dict items =>
      cases old with
      | none => exact mergeValue_none key _
      | some oldValue =>
          cases oldValue with
          | dict oldItems => exact absurd (h _ rfl) (by simp [PyValue.isDict])
          | _ => simp [mergeValue]
  | _ => rfl

/-- An object is kept or merged into another. -/
theorem mergeValue_dict (key : Text) (old : Option PyValue) (items : List (Text × PyValue)) :
    mergeValue key old (.dict items) = .dict items ∨
      ∃ oldItems, mergeValue key old (.dict items) = .dict (mergeItems oldItems items) := by
  by_cases hkey : key = wakePhrasesKey
  · exact Or.inl (mergeValue_of_replaces (Or.inl hkey) old)
  · by_cases hold : ∃ oldItems, old = some (.dict oldItems)
    · obtain ⟨oldItems, rfl⟩ := hold
      exact Or.inr ⟨oldItems, by rw [mergeValue, if_neg hkey]⟩
    · refine Or.inl (mergeValue_of_no_object ?_ _)
      rintro (_ | _ | _ | _ | _ | _ | oldItems) rfl
      case dict => exact absurd ⟨oldItems, rfl⟩ hold
      all_goals rfl

/-- An object over an object. -/
theorem mergeValue_toValue {key : Text} (hkey : key ≠ wakePhrasesKey) (profile child : Profile) :
    mergeValue key (some profile.toValue) child.toValue = (deepMerge profile child).toValue := by
  simp [mergeValue, Profile.toValue, deepMerge, hkey]

theorem mergeBindings_last {key : Text} {values : List PyValue} {value : PyValue}
    (hlast : value ∈ values.getLast?) (h : key = wakePhrasesKey ∨ value.isDict = false) :
    mergeBindings key values = some value := by
  obtain ⟨front, rfl⟩ := List.getLast?_eq_some_iff.mp hlast
  rw [mergeBindings_append, mergeValue_of_replaces h]

/-! ## The block of objects -/

theorem objectOf_eq_some {value : PyValue} (hdict : value.isDict = true)
    (hkeys : value.DistinctKeys) : ∃ profile : Profile, objectOf value = some profile ∧
      value = profile.toValue := by
  cases hkeys with
  | dict nodup members => exact ⟨⟨_, nodup⟩, by simp [objectOf, nodup], rfl⟩
  | _ => cases hdict

theorem objectBlock_append (values : List PyValue) {value : PyValue} {profile : Profile}
    (hvalue : objectOf value = some profile) :
    objectBlock (values ++ [value]) = objectBlock values ++ [profile] := by
  have hdict : value.isDict = true := by
    cases value with
    | dict items => rfl
    | _ => cases hvalue
  rw [objectBlock, List.rtakeWhile_concat_pos _ _ _ hdict, List.filterMap_append]
  simp [objectBlock, hvalue]

theorem objectBlock_of_last {values : List PyValue}
    (h : ∀ value ∈ values.getLast?, value.isDict = false) : objectBlock values = [] := by
  rcases List.eq_nil_or_concat values with rfl | ⟨front, value, rfl⟩
  · rfl
  · have hvalue : value.isDict = false := h value (by simp)
    rw [List.concat_eq_append, objectBlock, List.rtakeWhile_concat_neg _ _ _ (by simp [hvalue])]
    rfl

/-- **The block at one key.**  Merging the values in turn merges the block. -/
theorem mergeBindings_block {key : Text} (hkey : key ≠ wakePhrasesKey) {values : List PyValue}
    (hkeys : ∀ value ∈ values, value.DistinctKeys)
    (hlast : ∃ value ∈ values.getLast?, value.isDict = true) :
    objectBlock values ≠ [] ∧
      mergeBindings key values = some (mergeProfiles (objectBlock values)).toValue := by
  induction values using List.reverseRecOn with
  | nil =>
      obtain ⟨value, hvalue, -⟩ := hlast
      cases hvalue
  | append_singleton values value ih =>
      have hdict : value.isDict = true := by simpa using hlast
      obtain ⟨child, hchild, rfl⟩ := objectOf_eq_some hdict (hkeys value (by simp))
      rw [objectBlock_append values hchild, mergeBindings_append]
      refine ⟨by simp, ?_⟩
      by_cases hbefore : ∃ value ∈ values.getLast?, value.isDict = true
      · obtain ⟨hblock, hmerged⟩ := ih (fun v hv => hkeys v (by simp [hv])) hbefore
        rw [hmerged, mergeValue_toValue hkey, mergeProfiles_append hblock]
      · have hnone : ∀ value ∈ values.getLast?, value.isDict = false := by simpa using hbefore
        -- The object starts a block of its own.
        have hold : ∀ old ∈ mergeBindings key values, old.isDict = false := by
          intro old hold
          cases hvalues : values.getLast? with
          | none =>
              rw [List.getLast?_eq_none_iff] at hvalues
              subst hvalues
              cases hold
          | some v =>
              have hv : v ∈ values.getLast? := hvalues
              rw [mergeBindings_last hv (Or.inr (hnone v hv))] at hold
              exact Option.some.inj hold ▸ hnone v hv
        rw [mergeValue_of_no_object hold, objectBlock_of_last hnone]
        rfl

/-! ## To every depth -/

/-- A member of the block is bound by a profile of the chain. -/
theorem mem_objectBlock {chain : List Profile} {key : Text} {p : Profile}
    (h : p ∈ objectBlock (bindings chain key)) :
    ∃ profile ∈ chain, (key, p.toValue) ∈ profile.entries := by
  obtain ⟨value, hvalue, hobject⟩ := List.mem_filterMap.mp h
  obtain ⟨profile, hprofile, hget⟩ := List.mem_filterMap.mp
    ((List.rtakeWhile_suffix _ _).subset hvalue)
  refine ⟨profile, hprofile, ?_⟩
  have hp : value = p.toValue := by
    cases value with
    | dict items =>
        obtain ⟨hnodup, heq⟩ := Option.dite_none_right_eq_some.mp hobject
        rw [← Option.some.inj heq]
        rfl
    | _ => cases hobject
  exact hp ▸ Dict.get?_eq_some_iff.mp hget

theorem DistinctKeys_of_mem {profile : Profile} (h : profile.toValue.DistinctKeys)
    {e : Text × PyValue} (he : e ∈ profile.entries) : e.2.DistinctKeys := by
  cases h with
  | dict nodup members => exact members e he

/-- A nested object is smaller than the profile around it. -/
theorem sizeOf_entries_lt {profile p : Profile} {key : Text}
    (h : (key, p.toValue) ∈ profile.entries) : sizeOf p.entries < sizeOf profile.entries := by
  have hlt := List.sizeOf_lt_of_mem h
  simp only [Prod.mk.sizeOf_spec, Profile.toValue, PyValue.dict.sizeOf_spec] at hlt
  omega

/-- One level of the rule. -/
theorem MergedByRule.of_inside {chain : List Profile}
    (hkeys : ∀ p ∈ chain, p.toValue.DistinctKeys)
    (hinside : ∀ key, ∀ value ∈ (bindings chain key).getLast?,
      key ≠ wakePhrasesKey → value.isDict = true →
        MergedByRule (objectBlock (bindings chain key))) :
    MergedByRule chain := by
  have hvalues : ∀ key, ∀ value ∈ bindings chain key, value.DistinctKeys := by
    intro key value hvalue
    obtain ⟨profile, hprofile, hget⟩ := List.mem_filterMap.mp hvalue
    exact DistinctKeys_of_mem (hkeys profile hprofile) (Dict.get?_eq_some_iff.mp hget)
  refine .intro ?_ ?_ ?_ hinside
  · intro key
    rw [get?_mergeProfiles, mergeBindings_eq_none_iff]
    exact List.filterMap_eq_nil_iff
  · intro key value hlast hreplaces
    rw [get?_mergeProfiles, mergeBindings_last hlast hreplaces]
  · intro key value hlast hkey hdict
    rw [get?_mergeProfiles]
    exact mergeBindings_block hkey (hvalues key) ⟨value, hlast, hdict⟩

theorem mergedByRule_of_sizeOf_lt (n : ℕ) {chain : List Profile}
    (hsize : ∀ p ∈ chain, sizeOf p.entries < n) (hkeys : ∀ p ∈ chain, p.toValue.DistinctKeys) :
    MergedByRule chain := by
  induction n generalizing chain with
  | zero =>
      refine .of_inside hkeys fun key value hlast _ _ => ?_
      obtain ⟨profile, hprofile, -⟩ := List.mem_filterMap.mp (List.mem_of_getLast? hlast)
      exact absurd (hsize profile hprofile) (Nat.not_lt_zero _)
  | succ n ih =>
      refine .of_inside hkeys fun key value _ _ _ => ih ?_ ?_
      · intro p hp
        obtain ⟨profile, hprofile, hmem⟩ := mem_objectBlock hp
        have hlt := sizeOf_entries_lt hmem
        have hbound := hsize profile hprofile
        omega
      · intro p hp
        obtain ⟨profile, hprofile, hmem⟩ := mem_objectBlock hp
        exact DistinctKeys_of_mem (hkeys profile hprofile) hmem

/-! ## Leaves -/

/-- The value at a path of keys. -/
def valueAt : List Text → PyValue → Option PyValue
  | [], value => some value
  | key :: path, .dict items => (PyValue.item? items key).bind (valueAt path)
  | _ :: _, _ => none

/-- The value says nothing about the path: it leads through objects to a key that
is missing. -/
def silentAt : List Text → PyValue → Prop
  | key :: path, .dict items =>
      match PyValue.item? items key with
      | none => True
      | some value => key ≠ wakePhrasesKey ∧ silentAt path value
  | _, _ => False

theorem DistinctKeys_item {items : List (Text × PyValue)} (h : (PyValue.dict items).DistinctKeys)
    {key : Text} {value : PyValue} (hitem : PyValue.item? items key = some value) :
    value.DistinctKeys := by
  obtain ⟨e, he, rfl⟩ := Option.map_eq_some_iff.mp hitem
  cases h with
  | dict nodup members => exact members e (List.mem_of_find?_eq_some he)

theorem nodup_of_distinctKeys {items : List (Text × PyValue)}
    (h : (PyValue.dict items).DistinctKeys) : (items.map Prod.fst).Nodup := by
  cases h with
  | dict nodup members => exact nodup

/-- The leaves of the child are leaves of the merged object. -/
theorem valueAt_mergeItems_of_leaf {path : List Text} {items : List (Text × PyValue)}
    (hkeys : (PyValue.dict items).DistinctKeys) {leaf : PyValue} (hleaf : leaf.isDict = false)
    (h : valueAt path (.dict items) = some leaf) (oldItems : List (Text × PyValue)) :
    valueAt path (.dict (mergeItems oldItems items)) = some leaf := by
  induction path generalizing items oldItems with
  | nil =>
      obtain rfl := Option.some.inj h
      cases hleaf
  | cons key path ih =>
      obtain ⟨value, hitem, hvalue⟩ := Option.bind_eq_some_iff.mp h
      have hmerged : PyValue.item? (mergeItems oldItems items) key =
          some (mergeValue key (PyValue.item? oldItems key) value) := by
        rw [item?_mergeItems (nodup_of_distinctKeys hkeys), hitem]
        rfl
      rw [valueAt, hmerged, Option.bind_some]
      cases value with
      | dict inner =>
          rcases mergeValue_dict key (PyValue.item? oldItems key) inner with
            hreplaced | ⟨oldInner, hinner⟩
          · rw [hreplaced]
            exact hvalue
          · rw [hinner]
            exact ih (DistinctKeys_item hkeys hitem) hvalue oldInner
      | _ => exact hvalue

/-- A child that says nothing about the path leaves the leaf in place. -/
theorem valueAt_mergeItems_of_silent {path : List Text} {items : List (Text × PyValue)}
    (hkeys : (PyValue.dict items).DistinctKeys) (hsilent : silentAt path (.dict items))
    {oldItems : List (Text × PyValue)} {leaf : PyValue}
    (h : valueAt path (.dict oldItems) = some leaf) :
    valueAt path (.dict (mergeItems oldItems items)) = some leaf := by
  induction path generalizing items oldItems with
  | nil => exact hsilent.elim
  | cons key path ih =>
      obtain ⟨old, hold, hvalue⟩ := Option.bind_eq_some_iff.mp h
      have hmerged := item?_mergeItems (nodup_of_distinctKeys hkeys) oldItems key
      rw [valueAt]
      cases hitem : PyValue.item? items key with
      | none =>
          rw [hmerged, hitem, Option.map_none, Option.none_or]
          exact h
      | some value =>
          rw [silentAt, hitem] at hsilent
          obtain ⟨hkey, hinner⟩ := hsilent
          cases path with
          | nil => exact hinner.elim
          | cons next rest =>
              cases value with
              | dict inner =>
                  cases old with
                  | dict oldInner =>
                      have hvalueEq : mergeValue key (some (.dict oldInner)) (.dict inner) =
                          .dict (mergeItems oldInner inner) := by
                        rw [mergeValue, if_neg hkey]
                      rw [hmerged, hitem, hold, Option.map_some, hvalueEq]
                      exact ih (DistinctKeys_item hkeys hitem) hinner hvalue
                  | _ => cases hvalue
              | _ => exact hinner.elim

/-- A leaf of a profile is the value of the merged chain at its path, unless a
profile nearer to the child says something about the path. -/
def NearestLeafWins (chain : List Profile) : Prop :=
  ∀ ancestors profile descendants path leaf, chain = ancestors ++ profile :: descendants →
    leaf.isDict = false → valueAt path profile.toValue = some leaf →
      (∀ p ∈ descendants, silentAt path p.toValue) →
        valueAt path (mergeProfiles chain).toValue = some leaf

theorem nearestLeafWins {chain : List Profile} (hkeys : ∀ p ∈ chain, p.toValue.DistinctKeys) :
    NearestLeafWins chain := by
  rintro ancestors profile descendants path leaf rfl hleaf hvalue hsilent
  induction descendants using List.reverseRecOn with
  | nil =>
      by_cases hnil : ancestors = []
      · subst hnil
        exact hvalue
      · rw [mergeProfiles_append hnil]
        exact valueAt_mergeItems_of_leaf (hkeys profile (by simp)) hleaf hvalue _
  | append_singleton descendants p ih =>
      have hmerged := ih (fun q hq => hkeys q (by simp at hq ⊢; tauto))
        (fun q hq => hsilent q (by simp [hq]))
      rw [← List.cons_append, ← List.append_assoc, mergeProfiles_append (by simp)]
      exact valueAt_mergeItems_of_silent (hkeys p (by simp)) (hsilent p (by simp)) hmerged

/-- **Merging a chain of profiles.**  Whatever the profiles nest and however their
keys alternate between objects and other values, the merged chain follows the
rule to every depth, and the nearest leaf wins. -/
theorem mergeProfiles_byRule (chain : List Profile)
    (hkeys : ∀ p ∈ chain, p.toValue.DistinctKeys) :
    MergedByRule chain ∧ NearestLeafWins chain := by
  have hsize : ∀ p ∈ chain, sizeOf p.entries < sizeOf (chain.map (·.entries)) := fun p hp =>
    List.sizeOf_lt_of_mem (List.mem_map_of_mem hp)
  exact ⟨mergedByRule_of_sizeOf_lt _ hsize hkeys, nearestLeafWins hkeys⟩

/-- A key that is an object, a number and an object again. -/
def alternatingKey : List Profile :=
  [⟨[("a".toList, .dict [("x".toList, .int 1)])], by decide⟩,
    ⟨[("a".toList, .int 2)], by decide⟩,
    ⟨[("a".toList, .dict [("y".toList, .int 3)])], by decide⟩]

theorem alternatingKey_byRule : MergedByRule alternatingKey ∧ NearestLeafWins alternatingKey := by
  refine mergeProfiles_byRule _ ?_
  intro p hp
  simp only [alternatingKey, List.mem_cons, List.not_mem_nil, or_false] at hp
  rcases hp with rfl | rfl | rfl
  · refine .dict (by decide) ?_
    simp only [List.forall_mem_singleton]
    exact .dict (by decide) (by simpa using .int 1)
  · refine .dict (by decide) ?_
    simpa using .int 2
  · refine .dict (by decide) ?_
    simp only [List.forall_mem_singleton]
    exact .dict (by decide) (by simpa using .int 3)

end Config
end AvaListener
