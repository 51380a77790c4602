import AvaListener.Library.Fallible
import AvaListener.Library.PyValue

/-!
# Which settings can be changed at runtime

`validateConfigMutation` of `node/config_validator.js` and `WakeEngine.update_config`
with `runtime/config/mutability.py`.  A patch is a JSON object; `JSON.stringify` and
`json.loads` carry it over unchanged.

Both sides have the same list of fields.  The SDK walks a patch down to its leaves and
compares their dotted paths, the engine compares the keys at the top.  So they disagree
on patches that spell a field as a nested object.
-/

namespace AvaListener
namespace Config

open Library

/-- The items of a JSON object, in the order in which JavaScript enumerates them: keys that
are array indices first, by size. -/
abbrev Patch := List (Text × PyValue)

/-- `RestartRequiredError`, on both sides. -/
structure RestartRequired where
  field : Text
  deriving DecidableEq

def RestartRequired.code : Text := "RESTART_REQUIRED".toList

def RestartRequired.message (e : RestartRequired) : Text :=
  "Modifying field '".toList ++ e.field ++ "' requires a restart.".toList

def sileroThresholdField : Text := "vad.sileroThreshold".toList
def defaultThresholdField : Text := "confidence.defaultThreshold".toList

/-- `HOT_RELOAD_FIELDS`, in `mutability.py` and in `config_validator.js`. -/
def hotReloadFields : List Text :=
  [sileroThresholdField,
    "vad.aggressiveness".toList,
    defaultThresholdField,
    "confidence.emaRiseAlpha".toList,
    "confidence.emaDecayAlpha".toList,
    "confidence.cooldownSeconds".toList,
    "transcription.enableDebug".toList]

/-! ## The engine -/

/-- `check_mutability`. -/
def checkMutability (fieldPath : Text) (runtimeActive : Bool) : Except RestartRequired Unit :=
  if runtimeActive then
    if fieldPath ∈ hotReloadFields then .ok () else .error ⟨fieldPath⟩
  else .ok ()

/-- The `_runtime_params` with the value of one key. -/
def setRuntimeParam (params : Dict Text PyValue) (item : Text × PyValue) : Dict Text PyValue :=
  if item.1 = sileroThresholdField then params.set "vad_threshold".toList item.2
  else if item.1 = defaultThresholdField then params.set "wake_threshold".toList item.2
  else params

/-- `update_config`: the engine always has a state machine, and so is active. -/
def updateConfig (runtimeParams : Dict Text PyValue) (params : Patch) :
    Except RestartRequired (Dict Text PyValue) := do
  let _ ← params.mapM fun item => checkMutability item.1 true
  return params.foldl setRuntimeParam runtimeParams

/-! ## The SDK -/

/-- The path of a key; an empty path is no prefix. -/
def joinPath (currentPath key : Text) : Text :=
  if currentPath = [] then key else currentPath ++ '.' :: key

mutual

/-- `walk`: the paths of the leaves, where arrays and `null` are leaves. -/
def walk (currentPath : Text) : Patch → List Text
  | [] => []
  | (key, value) :: rest => walkValue (joinPath currentPath key) value ++ walk currentPath rest

/-- The paths below one key, whose own path is `p`. -/
def walkValue (p : Text) : PyValue → List Text
  | .dict items => walk p items
  | .none | .bool _ | .int _ | .float _ | .str _ | .list _ => [p]

end

def validateConfigMutation (configPatch : Patch) : Except RestartRequired Unit :=
  match (walk [] configPatch).find? fun path => path ∉ hotReloadFields with
  | none => .ok ()
  | some path => .error ⟨path⟩

/-! ## What each side accepts -/

theorem checkMutability_ok_iff {fieldPath : Text} :
    (∃ u, checkMutability fieldPath true = .ok u) ↔ fieldPath ∈ hotReloadFields := by
  unfold checkMutability
  rw [if_pos rfl]
  split
  next hmem => exact ⟨fun _ => hmem, fun _ => ⟨(), rfl⟩⟩
  next hmem =>
    refine ⟨?_, fun h => absurd h hmem⟩
    rintro ⟨u, hu⟩
    cases hu

theorem updateConfig_ok_iff {runtimeParams : Dict Text PyValue} {params : Patch} :
    (∃ next, updateConfig runtimeParams params = .ok next) ↔
      ∀ item ∈ params, item.1 ∈ hotReloadFields := by
  have hchecks : (∃ units, params.mapM (fun item => checkMutability item.1 true) = .ok units) ↔
      ∀ item ∈ params, ∃ u, checkMutability item.1 true = .ok u := exists_mapM_eq_ok_iff
  simp only [checkMutability_ok_iff] at hchecks
  rw [← hchecks]
  constructor
  · rintro ⟨next, h⟩
    obtain ⟨units, hunits, -⟩ := bind_eq_ok_iff.mp h
    exact ⟨units, hunits⟩
  · rintro ⟨units, hunits⟩
    exact ⟨_, bind_eq_ok_iff.mpr ⟨units, hunits, rfl⟩⟩

theorem validateConfigMutation_ok_iff {configPatch : Patch} :
    validateConfigMutation configPatch = .ok () ↔
      ∀ path ∈ walk [] configPatch, path ∈ hotReloadFields := by
  unfold validateConfigMutation
  cases hfind : (walk [] configPatch).find? fun path => path ∉ hotReloadFields with
  | none =>
      have hall := List.find?_eq_none.mp hfind
      simpa using hall
  | some path =>
      have hbad := List.find?_some hfind
      have hmem := List.mem_of_find?_eq_some hfind
      constructor
      · intro h
        cases h
      · intro hall
        exact absurd (hall path hmem) (by simpa using hbad)

/-- **A rejected patch names a path of its own** that is not hot-reloadable. -/
theorem error_of_validateConfigMutation {configPatch : Patch} {e : RestartRequired}
    (h : validateConfigMutation configPatch = .error e) :
    e.field ∈ walk [] configPatch ∧ e.field ∉ hotReloadFields := by
  unfold validateConfigMutation at h
  split at h
  · cases h
  next path hfind =>
    obtain rfl := Except.error.inj h
    exact ⟨List.mem_of_find?_eq_some hfind, by simpa using List.find?_some hfind⟩

/-! ## Patches without leaves -/

mutual

/-- Some value below is not an object. -/
def hasLeaf : PyValue → Bool
  | .dict items => itemsHaveLeaf items
  | .none | .bool _ | .int _ | .float _ | .str _ | .list _ => true

def itemsHaveLeaf : Patch → Bool
  | [] => false
  | (_, value) :: rest => hasLeaf value || itemsHaveLeaf rest

end

mutual

theorem walkValue_eq_nil_iff : ∀ (value : PyValue) (p : Text),
    walkValue p value = [] ↔ hasLeaf value = false
  | .dict items, p => by
      rw [walkValue, hasLeaf]
      exact walk_eq_nil_iff items p
  | .none, p | .bool _, p | .int _, p | .float _, p | .str _, p | .list _, p => by
      simp [walkValue, hasLeaf]

theorem walk_eq_nil_iff :
    ∀ (items : Patch) (p : Text), walk p items = [] ↔ itemsHaveLeaf items = false
  | [], p => by simp [walk, itemsHaveLeaf]
  | (key, value) :: rest, p => by
      rw [walk, itemsHaveLeaf, List.append_eq_nil_iff, Bool.or_eq_false_iff,
        walkValue_eq_nil_iff value, walk_eq_nil_iff rest]

end

/-! ## Paths with two dots -/

theorem walk_eq_flatMap (p : Text) (items : Patch) :
    walk p items = items.flatMap fun item => walkValue (joinPath p item.1) item.2 := by
  induction items with
  | nil => simp [walk]
  | cons item rest ih => rw [walk, List.flatMap_cons, ih]

theorem joinPath_of_ne {p : Text} (hp : p ≠ []) (key : Text) : joinPath p key = p ++ '.' :: key :=
  if_neg hp

mutual

theorem dots_le_of_mem_walkValue : ∀ (value : PyValue) (p : Text), ∀ path ∈ walkValue p value,
    p.count '.' ≤ path.count '.'
  | .dict items, p => by
      intro path hpath
      rw [walkValue] at hpath
      by_cases hp : p = []
      · rw [hp, List.count_nil]
        exact Nat.zero_le _
      · exact (dots_lt_of_mem_walk items p hp path hpath).le
  | .none, p | .bool _, p | .int _, p | .float _, p | .str _, p | .list _, p => by
      intro path hpath
      rw [walkValue] at hpath
      rw [List.mem_singleton.mp hpath]

theorem dots_lt_of_mem_walk : ∀ (items : Patch) (p : Text), p ≠ [] → ∀ path ∈ walk p items,
    p.count '.' < path.count '.'
  | [], p, _ => by simp [walk]
  | (key, value) :: rest, p, hp => by
      intro path hpath
      rw [walk] at hpath
      rcases List.mem_append.mp hpath with hhere | hrest
      · have hle := dots_le_of_mem_walkValue value _ path hhere
        rw [joinPath_of_ne hp, List.count_append, List.count_cons_self] at hle
        omega
      · exact dots_lt_of_mem_walk rest p hp path hrest

end

/-- Every field is a section and a key. -/
theorem dots_of_hotReload : ∀ field ∈ hotReloadFields, field.count '.' = 1 := by
  decide +kernel

/-- Nothing below a path with a dot is hot-reloadable. -/
theorem walk_hot_iff_of_dotted {p : Text} (hdot : '.' ∈ p) (items : Patch) :
    (∀ path ∈ walk p items, path ∈ hotReloadFields) ↔ itemsHaveLeaf items = false := by
  have hp : p ≠ [] := List.ne_nil_of_mem hdot
  rw [← walk_eq_nil_iff items p]
  constructor
  · intro hall
    rw [List.eq_nil_iff_forall_not_mem]
    intro path hpath
    have hlt := dots_lt_of_mem_walk items p hp path hpath
    have hone := dots_of_hotReload path (hall path hpath)
    have hpos : 0 < p.count '.' := List.count_pos_iff.mpr hdot
    omega
  · intro hnil
    rw [hnil]
    simp

/-! ## Patches that the SDK accepts -/

/-- An item of a section is one of its fields, or an object without leaves. -/
def inSection (sectionKey : Text) (item : Text × PyValue) : Bool :=
  match item.2 with
  | .dict items => !itemsHaveLeaf items
  | _ => sectionKey ++ '.' :: item.1 ∈ hotReloadFields

mutual

/-- Every item is spelled as a field or by section. -/
def spelledOut : Patch → Bool
  | [] => true
  | (key, value) :: rest => spelledItem key value && spelledOut rest

/-- A value that is no object is under a field's own name, an object is a section; an
object under the empty key stands for its items. -/
def spelledItem (key : Text) : PyValue → Bool
  | .dict items => if key = [] then spelledOut items else items.all (inSection key)
  | .none | .bool _ | .int _ | .float _ | .str _ | .list _ => key ∈ hotReloadFields

end

theorem inSection_iff {sectionKey : Text} (item : Text × PyValue) :
    inSection sectionKey item = true ↔
      ∀ path ∈ walkValue (sectionKey ++ '.' :: item.1) item.2, path ∈ hotReloadFields := by
  obtain ⟨key, value⟩ := item
  cases value with
  | dict items =>
      have hdot : '.' ∈ sectionKey ++ '.' :: key := by simp
      rw [walkValue, walk_hot_iff_of_dotted hdot]
      simp [inSection]
  | _ => simp [inSection, walkValue]

mutual

theorem spelledItem_iff : ∀ (value : PyValue) (key : Text),
    spelledItem key value = true ↔ ∀ path ∈ walkValue key value, path ∈ hotReloadFields
  | .dict items, key => by
      rw [spelledItem, walkValue]
      split
      next hkey =>
        rw [hkey]
        exact spelledOut_iff items
      next hkey =>
        rw [walk_eq_flatMap, List.all_eq_true]
        simp only [List.mem_flatMap, inSection_iff, joinPath_of_ne hkey]
        constructor
        · rintro hall path ⟨item, hitem, hpath⟩
          exact hall item hitem path hpath
        · intro hall item hitem path hpath
          exact hall path ⟨item, hitem, hpath⟩
  | .none, key | .bool _, key | .int _, key | .float _, key | .str _, key | .list _, key => by
      simp [spelledItem, walkValue]

/-- The patches that the SDK accepts. -/
theorem spelledOut_iff : ∀ (items : Patch),
    spelledOut items = true ↔ ∀ path ∈ walk [] items, path ∈ hotReloadFields
  | [] => by simp [spelledOut, walk]
  | (key, value) :: rest => by
      rw [spelledOut, walk, Bool.and_eq_true, spelledItem_iff value, spelledOut_iff rest,
        List.forall_mem_append]
      rfl

end

/-! ## Where the two sides agree -/

/-- The value is no object, or an object without leaves. -/
def isFlat : PyValue → Bool
  | .dict items => !itemsHaveLeaf items
  | _ => true

/-- Under the fields' own names the SDK accepts values that are flat. -/
theorem walk_hot_iff_of_fields {configPatch : Patch}
    (hkeys : ∀ item ∈ configPatch, item.1 ∈ hotReloadFields) :
    (∀ path ∈ walk [] configPatch, path ∈ hotReloadFields) ↔
      ∀ item ∈ configPatch, isFlat item.2 = true := by
  have hitem : ∀ item ∈ configPatch,
      (∀ path ∈ walkValue (joinPath [] item.1) item.2, path ∈ hotReloadFields) ↔
        isFlat item.2 = true := by
    rintro ⟨key, value⟩ hmem
    have hkey : key ∈ hotReloadFields := hkeys _ hmem
    have hjoin : joinPath [] key = key := rfl
    rw [hjoin]
    cases value with
    | dict items =>
        have hdot : '.' ∈ key := by
          rw [← List.count_pos_iff, dots_of_hotReload key hkey]
          exact Nat.one_pos
        rw [walkValue, walk_hot_iff_of_dotted hdot]
        simp [isFlat]
    | _ => simp [walkValue, isFlat, hkey]
  rw [walk_eq_flatMap]
  simp only [List.mem_flatMap]
  constructor
  · intro hall item hmem
    exact (hitem item hmem).mp fun path hpath => hall path ⟨item, hmem, hpath⟩
  · rintro hall path ⟨item, hmem, hpath⟩
    exact (hitem item hmem).mpr (hall item hmem) path hpath

/-- **Exactly when both sides give the same verdict**: either every key at the top is one
of the fields and every value under it is flat, or some key is none of them and the
patch is not spelled out by sections either. -/
theorem verdicts_agree_iff (runtimeParams : Dict Text PyValue) (configPatch : Patch) :
    (validateConfigMutation configPatch = .ok () ↔
        ∃ next, updateConfig runtimeParams configPatch = .ok next) ↔
      ((∀ item ∈ configPatch, item.1 ∈ hotReloadFields) ∧
          ∀ item ∈ configPatch, isFlat item.2 = true) ∨
        ((∃ item ∈ configPatch, item.1 ∉ hotReloadFields) ∧ spelledOut configPatch = false) := by
  rw [validateConfigMutation_ok_iff, updateConfig_ok_iff]
  by_cases hkeys : ∀ item ∈ configPatch, item.1 ∈ hotReloadFields
  · have hnone : ¬ ∃ item ∈ configPatch, item.1 ∉ hotReloadFields := by
      rintro ⟨item, hmem, hitem⟩
      exact hitem (hkeys item hmem)
    rw [walk_hot_iff_of_fields hkeys, or_iff_left fun h => hnone h.1, and_iff_right hkeys]
    exact iff_true_right hkeys
  · have hsome : ∃ item ∈ configPatch, item.1 ∉ hotReloadFields := by
      by_contra hnone
      exact hkeys fun item hmem => by_contra fun hitem => hnone ⟨item, hmem, hitem⟩
    rw [← spelledOut_iff, or_iff_right fun h => hkeys h.1, and_iff_right hsome,
      iff_false_right hkeys, Bool.not_eq_true]

/-- **One field, two spellings**: the SDK accepts a patch of a hot-reloadable field that is
spelled as a nested object, and the engine rejects it. -/
theorem nested_field_rejected :
    validateConfigMutation [("vad".toList, .dict [("sileroThreshold".toList,
        .float (.finite 0.2))])] = .ok () ∧
      updateConfig Dict.empty [("vad".toList, .dict [("sileroThreshold".toList,
        .float (.finite 0.2))])] = .error ⟨"vad".toList⟩ := by
  constructor
  · rfl
  · rfl

end Config
end AvaListener
