import Mathlib.Data.List.Induction
import Mathlib.Data.List.Nodup
import Mathlib.Data.List.Perm.Subperm

/-!
# Insertion-ordered dictionaries

The finite maps of the modelled programs keep their keys in insertion order:
assigning to a present key replaces the value in place, assigning to a new key
appends, and iteration follows that order.  `Dict` is such a map over an
arbitrary key type, with the distinctness of its keys as a field.  `setEntry`
is the assignment on bare entry lists, for clients that build the list first.
-/

namespace AvaListener
namespace Library

variable {κ ν : Type*} [DecidableEq κ]

/-- `entries[key] = value` on an association list. -/
def setEntry (entries : List (κ × ν)) (key : κ) (value : ν) : List (κ × ν) :=
  if key ∈ entries.map Prod.fst then
    entries.map fun e => if e.1 = key then (key, value) else e
  else
    entries ++ [(key, value)]

theorem setEntry_map_fst (entries : List (κ × ν)) (key : κ) (value : ν) :
    (setEntry entries key value).map Prod.fst =
      if key ∈ entries.map Prod.fst then entries.map Prod.fst
      else entries.map Prod.fst ++ [key] := by
  unfold setEntry
  split
  · rw [List.map_map]
    refine List.map_congr_left ?_
    intro e _
    by_cases hkey : e.1 = key <;> simp [hkey]
  · simp

theorem setEntry_nodup {entries : List (κ × ν)} (h : (entries.map Prod.fst).Nodup)
    (key : κ) (value : ν) : ((setEntry entries key value).map Prod.fst).Nodup := by
  rw [setEntry_map_fst]
  split
  · exact h
  next hfresh =>
    refine List.nodup_append.mpr ⟨h, List.nodup_singleton key, ?_⟩
    intro k hk k' hk' heq
    rw [List.mem_singleton] at hk'
    subst hk'
    exact hfresh (heq ▸ hk)

theorem mem_setEntry {entries : List (κ × ν)} {key : κ} {value : ν} {e : κ × ν}
    (h : e ∈ setEntry entries key value) : e = (key, value) ∨ e ∈ entries ∧ e.1 ≠ key := by
  unfold setEntry at h
  split at h
  · obtain ⟨old, hold, rfl⟩ := List.mem_map.mp h
    by_cases hkey : old.1 = key
    · simp [hkey]
    · simp [hkey, hold]
  next hfresh =>
    rcases List.mem_append.mp h with hold | hnew
    · refine Or.inr ⟨hold, ?_⟩
      rintro rfl
      exact hfresh (List.mem_map_of_mem hold)
    · exact Or.inl (List.mem_singleton.mp hnew)

/-- The newly assigned pair is present. -/
theorem mem_setEntry_self (entries : List (κ × ν)) (key : κ) (value : ν) :
    (key, value) ∈ setEntry entries key value := by
  unfold setEntry
  split
  next hmem =>
    obtain ⟨e, he, hkey⟩ := List.mem_map.mp hmem
    exact List.mem_map.mpr ⟨e, he, by simp [hkey]⟩
  · simp

/-- Every other pair stays. -/
theorem mem_setEntry_of_ne {entries : List (κ × ν)} {key : κ} {e : κ × ν}
    (value : ν) (he : e ∈ entries) (hne : e.1 ≠ key) : e ∈ setEntry entries key value := by
  unfold setEntry
  split
  · exact List.mem_map.mpr ⟨e, he, by simp [hne]⟩
  · exact List.mem_append_left _ he

/-- The first value of a key after an assignment. -/
theorem find?_setEntry (entries : List (κ × ν)) (key : κ) (value : ν) (other : κ) :
    ((setEntry entries key value).find? fun e => e.1 = other).map Prod.snd =
      if other = key then some value
      else (entries.find? fun e => e.1 = other).map Prod.snd := by
  unfold setEntry
  by_cases hother : other = key
  · subst hother
    rw [if_pos rfl]
    split
    next hmem =>
      induction entries with
      | nil => cases hmem
      | cons e rest ih =>
          by_cases hkey : e.1 = other
          · simp [hkey]
          · have hrest : other ∈ rest.map Prod.fst := by
              rcases List.mem_cons.mp hmem with heq | hrest
              · exact absurd heq.symm hkey
              · exact hrest
            simpa [hkey] using ih hrest
    next hfresh =>
      have hnone : (entries.find? fun e => e.1 = other) = none := by
        rw [List.find?_eq_none]
        intro e he heq
        exact hfresh (List.mem_map.mpr ⟨e, he, of_decide_eq_true heq⟩)
      rw [List.find?_append, hnone]
      simp
  · rw [if_neg hother]
    split
    · clear * - hother
      induction entries with
      | nil => rfl
      | cons e rest ih =>
          obtain ⟨k, v⟩ := e
          by_cases heq : k = other
          · subst heq
            simp [hother]
          · by_cases hkey : k = key
            · simpa [hkey, Ne.symm hother] using ih
            · simpa [hkey, heq] using ih
    · rw [List.find?_append]
      simp [Ne.symm hother]

/-- An insertion-ordered dictionary. -/
structure Dict (κ ν : Type*) where
  entries : List (κ × ν)
  nodup : (entries.map Prod.fst).Nodup
  deriving DecidableEq

namespace Dict

/-- The empty dictionary. -/
def empty : Dict κ ν := ⟨[], List.nodup_nil⟩

instance : Inhabited (Dict κ ν) := ⟨empty⟩

/-- `d.get(key)`. -/
def get? (d : Dict κ ν) (key : κ) : Option ν :=
  (d.entries.find? fun e => e.1 = key).map Prod.snd

/-- `d[key] = value`. -/
def set (d : Dict κ ν) (key : κ) (value : ν) : Dict κ ν :=
  ⟨setEntry d.entries key value, setEntry_nodup d.nodup key value⟩

/-- `d.pop(key, None)`. -/
def erase (d : Dict κ ν) (key : κ) : Dict κ ν :=
  ⟨d.entries.filter fun e => e.1 ≠ key,
    d.nodup.sublist (List.filter_sublist.map Prod.fst)⟩

/-- Rewrite every value in place, keys and order kept. -/
def mapValues (d : Dict κ ν) (f : κ → ν → ν) : Dict κ ν :=
  ⟨d.entries.map fun e => (e.1, f e.1 e.2), by
    rw [List.map_map]
    exact d.nodup⟩

/-- `list(d.values())`. -/
def values (d : Dict κ ν) : List ν := d.entries.map Prod.snd

/-- `list(d.keys())`. -/
def keys (d : Dict κ ν) : List κ := d.entries.map Prod.fst

omit [DecidableEq κ] in
@[simp] theorem entries_empty : (empty : Dict κ ν).entries = [] := rfl

omit [DecidableEq κ] in
@[simp] theorem entries_mapValues (d : Dict κ ν) (f : κ → ν → ν) :
    (d.mapValues f).entries = d.entries.map fun e => (e.1, f e.1 e.2) := rfl

theorem get?_eq_some_iff {d : Dict κ ν} {key : κ} {value : ν} :
    d.get? key = some value ↔ (key, value) ∈ d.entries := by
  unfold get?
  constructor
  · intro h
    obtain ⟨e, hfind, rfl⟩ := Option.map_eq_some_iff.mp h
    have hkey : e.1 = key := by simpa using List.find?_some hfind
    exact hkey ▸ List.mem_of_find?_eq_some hfind
  · intro hmem
    cases hfind : d.entries.find? fun e => e.1 = key with
    | none =>
        have hnone := List.find?_eq_none.mp hfind (key, value) hmem
        simp at hnone
    | some e =>
        have hkey : e.1 = key := by simpa using List.find?_some hfind
        have he := List.mem_of_find?_eq_some hfind
        -- Distinct keys: the entry found is the entry asked for.
        have heq := List.inj_on_of_nodup_map d.nodup he hmem hkey
        simp [heq]

theorem get?_eq_none_iff {d : Dict κ ν} {key : κ} :
    d.get? key = none ↔ ∀ e ∈ d.entries, e.1 ≠ key := by
  simp [get?]

@[simp] theorem get?_set_self (d : Dict κ ν) (key : κ) (value : ν) :
    (d.set key value).get? key = some value :=
  get?_eq_some_iff.mpr (mem_setEntry_self ..)

theorem get?_set_of_ne (d : Dict κ ν) {key other : κ} (value : ν) (h : other ≠ key) :
    (d.set key value).get? other = d.get? other := by
  ext v
  rw [get?_eq_some_iff, get?_eq_some_iff]
  constructor
  · intro hmem
    rcases mem_setEntry hmem with heq | ⟨hold, -⟩
    · exact absurd (congrArg Prod.fst heq) h
    · exact hold
  · intro hmem
    exact mem_setEntry_of_ne value hmem h

@[simp] theorem get?_erase_self (d : Dict κ ν) (key : κ) : (d.erase key).get? key = none := by
  rw [get?_eq_none_iff]
  intro e he
  simpa using (List.mem_filter.mp he).2

theorem get?_erase_of_ne (d : Dict κ ν) {key other : κ} (h : other ≠ key) :
    (d.erase key).get? other = d.get? other := by
  ext v
  rw [get?_eq_some_iff, get?_eq_some_iff, erase, List.mem_filter]
  simp [h]

/-- A key erased among others is gone; the others stay. -/
theorem get?_foldl_erase (d : Dict κ ν) (gone : List κ) (key : κ) :
    (gone.foldl erase d).get? key = if key ∈ gone then none else d.get? key := by
  induction gone generalizing d with
  | nil => simp
  | cons k gone ih =>
      rw [List.foldl_cons, ih]
      by_cases hmem : key ∈ gone
      · simp [hmem]
      · by_cases hkey : key = k
        · subst hkey
          simp
        · simp [hmem, hkey, get?_erase_of_ne d hkey]

theorem get?_mapValues (d : Dict κ ν) (f : κ → ν → ν) (key : κ) :
    (d.mapValues f).get? key = (d.get? key).map (f key) := by
  ext v
  rw [get?_eq_some_iff, entries_mapValues, Option.map_eq_some_iff]
  constructor
  · intro hmem
    obtain ⟨e, he, heq⟩ := List.mem_map.mp hmem
    obtain ⟨rfl, rfl⟩ := Prod.mk.inj heq
    exact ⟨e.2, get?_eq_some_iff.mpr he, rfl⟩
  · rintro ⟨old, hold, rfl⟩
    exact List.mem_map.mpr ⟨(key, old), get?_eq_some_iff.mp hold, rfl⟩

section MapEntries

variable {κ' ν' : Type*} [DecidableEq κ'] {f : κ → κ'} (hf : Function.Injective f) (g : ν → ν')

omit [DecidableEq κ] [DecidableEq κ'] in
include hf in
theorem nodup_map_entries (d : Dict κ ν) :
    ((d.entries.map (Prod.map f g)).map Prod.fst).Nodup := by
  have hkeys : (d.entries.map (Prod.map f g)).map Prod.fst = d.keys.map f := by
    simp [keys, List.map_map, Function.comp_def]
  rw [hkeys]
  exact d.nodup.map hf

/-- Rename the keys, without merging any, and rewrite the values. -/
def mapEntries (d : Dict κ ν) : Dict κ' ν' :=
  ⟨d.entries.map (Prod.map f g), nodup_map_entries hf g d⟩

omit [DecidableEq κ] [DecidableEq κ'] in
theorem values_mapEntries (d : Dict κ ν) : (d.mapEntries hf g).values = d.values.map g := by
  simp [values, mapEntries, List.map_map, Function.comp_def]

/-- Assigning commutes with renaming. -/
theorem set_mapEntries (d : Dict κ ν) (key : κ) (value : ν) :
    (d.mapEntries hf g).set (f key) (g value) = (d.set key value).mapEntries hf g := by
  have hkeys : f key ∈ (d.entries.map (Prod.map f g)).map Prod.fst ↔
      key ∈ d.entries.map Prod.fst := by
    simp [hf.eq_iff]
  have hentries : setEntry (d.entries.map (Prod.map f g)) (f key) (g value) =
      (setEntry d.entries key value).map (Prod.map f g) := by
    unfold setEntry
    by_cases hmem : key ∈ d.entries.map Prod.fst
    · rw [if_pos hmem, if_pos (hkeys.mpr hmem), List.map_map, List.map_map]
      refine List.map_congr_left ?_
      intro e _
      by_cases hkey : e.1 = key
      · simp [hkey]
      · simp [hkey, hf.eq_iff]
    · rw [if_neg hmem, if_neg (fun h => hmem (hkeys.mp h)), List.map_append]
      rfl
  simp only [set, mapEntries, hentries]

/-- Looking up commutes with renaming. -/
theorem get?_mapEntries (d : Dict κ ν) (key : κ) :
    (d.mapEntries hf g).get? (f key) = (d.get? key).map g := by
  have hkey : ((fun e : κ' × ν' => decide (e.1 = f key)) ∘ Prod.map f g) =
      fun e : κ × ν => decide (e.1 = key) := by
    funext e
    simp [hf.eq_iff]
  rw [get?, mapEntries, List.find?_map, hkey, get?, Option.map_map, Option.map_map]
  rfl

/-- Removing commutes with renaming. -/
theorem erase_mapEntries (d : Dict κ ν) (key : κ) :
    (d.mapEntries hf g).erase (f key) = (d.erase key).mapEntries hf g := by
  have hkey : ((fun e : κ' × ν' => decide (e.1 ≠ f key)) ∘ Prod.map f g) =
      fun e : κ × ν => decide (e.1 ≠ key) := by
    funext e
    simp [hf.eq_iff]
  have hentries : (d.entries.map (Prod.map f g)).filter (fun e => decide (e.1 ≠ f key)) =
      (d.entries.filter fun e => decide (e.1 ≠ key)).map (Prod.map f g) := by
    rw [List.filter_map, hkey]
  simp only [erase, mapEntries, hentries]

end MapEntries

/-- Assign the pairs one after the other. -/
def setAll (d : Dict κ ν) (pairs : List (κ × ν)) : Dict κ ν :=
  pairs.foldl (fun d e => d.set e.1 e.2) d

@[simp] theorem setAll_nil (d : Dict κ ν) : d.setAll [] = d := rfl

@[simp] theorem setAll_cons (d : Dict κ ν) (e : κ × ν) (pairs : List (κ × ν)) :
    d.setAll (e :: pairs) = (d.set e.1 e.2).setAll pairs := rfl

theorem setAll_append (d : Dict κ ν) (xs ys : List (κ × ν)) :
    d.setAll (xs ++ ys) = (d.setAll xs).setAll ys := List.foldl_append

theorem mem_keys_setAll {d : Dict κ ν} {pairs : List (κ × ν)} {key : κ} :
    key ∈ (d.setAll pairs).keys ↔ key ∈ d.keys ∨ key ∈ pairs.map Prod.fst := by
  induction pairs generalizing d with
  | nil => simp
  | cons e pairs ih =>
      have hset : key ∈ (d.set e.1 e.2).keys ↔ key ∈ d.keys ∨ key = e.1 := by
        rw [keys, set, setEntry_map_fst]
        split
        next hmem =>
          refine ⟨Or.inl, fun h => h.elim id ?_⟩
          rintro rfl
          exact hmem
        · simp [keys]
      rw [setAll_cons, ih, hset, List.map_cons, List.mem_cons, or_assoc]

/-- **The last assignment counts.** -/
theorem get?_setAll_reverse (d : Dict κ ν) (pairs : List (κ × ν)) (key : κ) :
    (d.setAll pairs).get? key =
      ((pairs.reverse.find? fun e => e.1 = key).map Prod.snd).or (d.get? key) := by
  induction pairs using List.reverseRecOn with
  | nil => rfl
  | append_singleton pairs e ih =>
      rw [setAll_append, setAll_cons, setAll_nil, List.reverse_append, List.reverse_singleton,
        List.singleton_append]
      by_cases hkey : e.1 = key
      · subst hkey
        rw [get?_set_self, List.find?_cons_of_pos (by simp)]
        rfl
      · rw [get?_set_of_ne _ _ (Ne.symm hkey), ih, List.find?_cons_of_neg (by simpa using hkey)]

/-- Of two values assigned to a key the later one is found. -/
theorem get?_setAll (d e : Dict κ ν) (key : κ) :
    (d.setAll e.entries).get? key = (e.get? key).or (d.get? key) := by
  obtain ⟨pairs, hnodup⟩ := e
  simp only [get?]
  induction pairs generalizing d with
  | nil => rfl
  | cons e pairs ih =>
      obtain ⟨hfresh, hrest⟩ := List.nodup_cons.mp hnodup
      rw [setAll_cons]
      refine (ih _ hrest).trans ?_
      by_cases hkey : e.1 = key
      · subst hkey
        have hnone : pairs.find? (fun f => f.1 = e.1) = none := by
          refine List.find?_eq_none.mpr ?_
          intro f hf heq
          exact hfresh (List.mem_map.mpr ⟨f, hf, by simpa using heq⟩)
        rw [hnone, List.find?_cons_of_pos (by simp)]
        exact get?_set_self d e.1 e.2
      · rw [List.find?_cons_of_neg (by simpa using hkey)]
        congr 1
        exact get?_set_of_ne d e.2 (Ne.symm hkey)

/-- New keys that are distinct are appended in order. -/
theorem entries_setAll {d : Dict κ ν} {pairs : List (κ × ν)}
    (h : (d.keys ++ pairs.map Prod.fst).Nodup) : (d.setAll pairs).entries = d.entries ++ pairs := by
  induction pairs generalizing d with
  | nil => simp
  | cons e pairs ih =>
      have hfresh : e.1 ∉ d.keys := by
        intro hmem
        exact (List.nodup_append.mp h).2.2 e.1 hmem e.1 (by simp) rfl
      have hentries : (d.set e.1 e.2).entries = d.entries ++ [e] := if_neg hfresh
      have hkeys : (d.set e.1 e.2).keys = d.keys ++ [e.1] := by
        rw [keys, hentries, List.map_append]
        rfl
      rw [setAll_cons, ih (by simpa [hkeys] using h), hentries, List.append_assoc]
      rfl

/-- A dictionary is built again from its own pairs. -/
theorem setAll_empty_entries (d : Dict κ ν) : (empty : Dict κ ν).setAll d.entries = d := by
  have hentries : ((empty : Dict κ ν).setAll d.entries).entries = d.entries := entries_setAll d.nodup
  obtain ⟨entries, hnodup⟩ := d
  generalize (empty : Dict κ ν).setAll entries = built at hentries ⊢
  obtain ⟨pairs, hpairs⟩ := built
  obtain rfl : pairs = entries := hentries
  rfl

/-- **A dictionary built from pairs keeps all their values exactly when their keys
are distinct.** -/
theorem values_setAll_empty_iff {pairs : List (κ × ν)} :
    ((empty : Dict κ ν).setAll pairs).values = pairs.map Prod.snd ↔
      (pairs.map Prod.fst).Nodup := by
  constructor
  · intro h
    have hlength : (pairs.map Prod.fst).length ≤ ((empty : Dict κ ν).setAll pairs).keys.length := by
      have hvalues := congrArg List.length h
      simp only [values, keys, List.length_map] at hvalues ⊢
      exact Nat.le_of_eq hvalues.symm
    have hsub : ((empty : Dict κ ν).setAll pairs).keys ⊆ pairs.map Prod.fst := by
      intro key hkey
      exact (mem_keys_setAll.mp hkey).elim nofun id
    have hperm := (((empty : Dict κ ν).setAll pairs).nodup.subperm hsub).perm_of_length_le hlength
    exact hperm.nodup_iff.mp ((empty : Dict κ ν).setAll pairs).nodup
  · intro h
    rw [values, entries_setAll (by simpa [keys] using h), entries_empty, List.nil_append]

end Dict

end Library
end AvaListener
