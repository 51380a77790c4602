import AvaListener.Config.DistinctKeys
import AvaListener.Config.Mutability
import AvaListener.Kernel.LoadProfile
import AvaListener.Library.Runs

/-!
# The effective configuration

`WakeEngine.get_effective_config` flattens the active profile to dotted paths.  What
`update_config` was given is stored under other names in a table of its own, which
`get_effective_config` never reads.

So the effective value of a field is what the profile says about it: the last top-level
member that spells the field, as a member of an object or by a name with a dot in it.
-/

namespace AvaListener
namespace Kernel

open Library Config

/-! ## Flattening -/

mutual

/-- `flatten`, into the `res` it has so far; lists are left out. -/
def flatten (front : Text) : Patch → Dict Text PyValue → Dict Text PyValue
  | [], res => res
  | (key, value) :: rest, res => flatten front rest (flattenMember front key value res)

def flattenMember (front key : Text) : PyValue → Dict Text PyValue → Dict Text PyValue
  | .dict items, res => res.setAll (flatten (front ++ key ++ ['.']) items Dict.empty).entries
  | .list _, res => res
  | value, res => res.set (front ++ key) value

end

/-- `get_effective_config`, its `values`. -/
def getEffectiveConfig (activeProfile : Profile) : Dict Text PyValue :=
  flatten [] activeProfile.entries Dict.empty

/-- Neither a list nor an object. -/
def isLeaf : PyValue → Bool
  | .list _ | .dict _ => false
  | _ => true

/-! ## What a profile says about a field -/

/-- The object and the member that a field `group.name` is in. -/
def fieldGroup (field : Text) : Text := field.takeWhile (· ≠ '.')
def fieldName (field : Text) : Text := (field.dropWhile (· ≠ '.')).drop 1

/-- What one top-level member says about a field. -/
def memberSays (field : Text) : Text × PyValue → Option PyValue
  | (key, .dict items) =>
      if key = fieldGroup field then
        (PyValue.item? items (fieldName field)).filter isLeaf
      else none
  | (_, .list _) => none
  | (key, value) => if key = field then some value else none

/-- What the profile says about a field: what its last member does that says anything. -/
def profileSays (profile : Profile) (field : Text) : Option PyValue :=
  profile.entries.reverse.findSome? (memberSays field)

theorem field_eq {field : Text} (hdot : '.' ∈ field) :
    fieldGroup field ++ '.' :: fieldName field = field := by
  have hsplit := List.takeWhile_append_dropWhile (p := fun c => decide (c ≠ '.')) (l := field)
  cases hrest : field.dropWhile (· ≠ '.') with
  | nil =>
      rw [List.dropWhile_eq_nil_iff] at hrest
      exact absurd (hrest '.' hdot) (by simp)
  | cons c rest =>
      have hc : c = '.' := by
        have hhead := List.head?_dropWhile_not (fun c => decide (c ≠ '.')) field
        rw [hrest] at hhead
        simpa using hhead
      have hname : fieldName field = rest := by rw [fieldName, hrest, List.drop_one, List.tail_cons]
      rw [hc] at hrest
      rw [hname, fieldGroup, ← hrest]
      exact hsplit

/-- The objects that a field is in: only its group. -/
theorem prefix_field_iff {field key : Text} (hdots : field.count '.' = 1) :
    key ++ ['.'] <+: field ↔ key = fieldGroup field := by
  have hdot : '.' ∈ field := List.count_pos_iff.mp (by omega)
  constructor
  · rintro ⟨rest, rfl⟩
    have hkey : '.' ∉ key := by
      intro hmem
      have hpos := List.count_pos_iff.mpr hmem
      simp only [List.count_append, List.count_singleton_self] at hdots
      omega
    have hall : ∀ c ∈ key, decide (c ≠ '.') = true := by
      intro c hc
      have hne : c ≠ '.' := by
        rintro rfl
        exact hkey hc
      simpa using hne
    rw [fieldGroup, List.append_assoc, List.takeWhile_append_of_pos hall]
    simp
  · rintro rfl
    exact ⟨fieldName field, by simpa using field_eq hdot⟩

/-! ## Flattening, field by field -/

mutual

/-- Only paths that extend the path in front are written. -/
theorem get?_flatten_of_not_prefix {field : Text} : ∀ (items : Patch) (front : Text)
    (res : Dict Text PyValue), ¬ front <+: field → (flatten front items res).get? field = res.get? field
  | [], front, res, _ => rfl
  | (key, value) :: rest, front, res, h => by
      rw [flatten, get?_flatten_of_not_prefix rest front _ h,
        get?_flattenMember_of_not_prefix value front key res h]

theorem get?_flattenMember_of_not_prefix {field : Text} : ∀ (value : PyValue) (front key : Text)
    (res : Dict Text PyValue), ¬ front <+: field →
      (flattenMember front key value res).get? field = res.get? field
  | .dict items, front, key, res, h => by
      have hdeeper : ¬ front ++ key ++ ['.'] <+: field := by
        intro hprefix
        exact h ((List.prefix_append_of_prefix (List.prefix_append front key)).trans hprefix)
      rw [flattenMember, Dict.get?_setAll,
        get?_flatten_of_not_prefix items (front ++ key ++ ['.']) Dict.empty hdeeper]
      rfl
  | .list _, front, key, res, h => by rw [flattenMember]
  | .none, front, key, res, h | .bool _, front, key, res, h | .int _, front, key, res, h
  | .float _, front, key, res, h | .str _, front, key, res, h => by
      rw [flattenMember, Dict.get?_set_of_ne]
      · rintro rfl
        exact h (List.prefix_append front key)
      all_goals nofun

end

/-- A member that is no object around the field. -/
theorem get?_flattenMember {field front key : Text} {value : PyValue}
    (h : value.isDict = true → ¬ front ++ key ++ ['.'] <+: field) (res : Dict Text PyValue) :
    (flattenMember front key value res).get? field =
      if front ++ key = field then ((some value).filter isLeaf).or (res.get? field)
      else res.get? field := by
  cases value with
  | dict items =>
      rw [flattenMember, Dict.get?_setAll, get?_flatten_of_not_prefix items _ _ (h rfl)]
      split <;> rfl
  | list elements =>
      rw [flattenMember]
      split <;> rfl
  | _ =>
      rw [flattenMember]
      · split
        next hpath =>
          rw [hpath, Dict.get?_set_self]
          rfl
        next hpath => rw [Dict.get?_set_of_ne _ _ (Ne.symm hpath)]
      all_goals nofun

/-- The members of the field's own group. -/
theorem get?_flatten_group {field : Text} (hdots : field.count '.' = 1) (items : Patch)
    (hnodup : (items.map Prod.fst).Nodup) (res : Dict Text PyValue) :
    (flatten (fieldGroup field ++ ['.']) items res).get? field =
      ((PyValue.item? items (fieldName field)).filter isLeaf).or (res.get? field) := by
  have hfield := field_eq (List.count_pos_iff.mp (by omega : 0 < field.count '.'))
  have hpath : ∀ key, fieldGroup field ++ ['.'] ++ key = field ↔ key = fieldName field := by
    intro key
    constructor
    · intro h
      simpa using h.trans hfield.symm
    · rintro rfl
      simpa using hfield
  have hdeep : ∀ key, ¬ fieldGroup field ++ ['.'] ++ key ++ ['.'] <+: field := by
    intro key hprefix
    have hcount := hprefix.sublist.count_le '.'
    simp only [List.count_append, List.count_singleton_self] at hcount
    omega
  induction items generalizing res with
  | nil => rfl
  | cons item rest ih =>
      obtain ⟨key, value⟩ := item
      obtain ⟨hfresh, hrest⟩ := List.nodup_cons.mp hnodup
      rw [flatten, ih hrest, get?_flattenMember fun _ => hdeep key]
      simp only [hpath]
      by_cases hkey : key = fieldName field
      · have hitem : PyValue.item? ((key, value) :: rest) (fieldName field) = some value := by
          simp [PyValue.item?, hkey]
        have hnone : PyValue.item? rest (fieldName field) = none := by
          rw [PyValue.item?, Option.map_eq_none_iff, List.find?_eq_none]
          intro e he heq
          exact hfresh (List.mem_map.mpr ⟨e, he, (of_decide_eq_true heq).trans hkey.symm⟩)
        rw [hitem, hnone, if_pos hkey]
        rfl
      · have hitem : PyValue.item? ((key, value) :: rest) (fieldName field) =
            PyValue.item? rest (fieldName field) := by
          simp [PyValue.item?, hkey]
        rw [hitem, if_neg hkey]

/-- One top-level member. -/
theorem get?_flattenMember_top {field : Text} (hdots : field.count '.' = 1) (key : Text)
    {value : PyValue} (hvalue : value.DistinctKeys) (res : Dict Text PyValue) :
    (flattenMember [] key value res).get? field =
      (memberSays field (key, value)).or (res.get? field) := by
  by_cases hgroup : value.isDict = true ∧ key = fieldGroup field
  · obtain ⟨hdict, rfl⟩ := hgroup
    cases hvalue with
    | @dict items hnodup hmembers =>
        rw [flattenMember, Dict.get?_setAll, List.nil_append, get?_flatten_group hdots items hnodup,
          memberSays, if_pos rfl]
        congr 1
        exact Option.or_none
    | _ => cases hdict
  · rw [get?_flattenMember]
    · cases value with
      | dict items =>
          have hkey : key ≠ fieldGroup field := fun hkey => hgroup ⟨rfl, hkey⟩
          rw [memberSays, if_neg hkey]
          split <;> rfl
      | list elements =>
          rw [memberSays]
          split <;> rfl
      | _ =>
          rw [memberSays, List.nil_append]
          · split <;> rfl
          all_goals nofun
    · intro hdict hprefix
      exact hgroup ⟨hdict, (prefix_field_iff hdots).mp hprefix⟩

theorem get?_flatten_top {field : Text} (hdots : field.count '.' = 1) {items : Patch}
    (hitems : ∀ e ∈ items, e.2.DistinctKeys) (res : Dict Text PyValue) :
    (flatten [] items res).get? field =
      (items.reverse.findSome? (memberSays field)).or (res.get? field) := by
  induction items generalizing res with
  | nil => rfl
  | cons e rest ih =>
      obtain ⟨he, hrest⟩ := List.forall_mem_cons.mp hitems
      rw [flatten, ih hrest, get?_flattenMember_top hdots e.1 he, List.reverse_cons,
        List.findSome?_append, Option.or_assoc]
      congr 1
      rw [List.findSome?_cons, List.findSome?_nil]
      cases memberSays field e <;> rfl

/-- **The effective value is what the profile says.** -/
theorem get?_getEffectiveConfig {field : Text} (hdots : field.count '.' = 1) {profile : Profile}
    (hkeys : profile.toValue.DistinctKeys) :
    (getEffectiveConfig profile).get? field = profileSays profile field := by
  rw [getEffectiveConfig, get?_flatten_top hdots fun e he => DistinctKeys_of_mem hkeys he]
  exact Option.or_none

/-! ## Loading and updating -/

/-- The engine's profile and `_runtime_params`, with what `update_config` has been given
so far, in order. -/
structure ConfiguredEngine where
  stores : ProfileStores
  runtimeParams : Dict Text PyValue
  given : Patch

inductive ConfigCall where
  | loadProfile (path : Text) (debugOverlay : Bool)
  | updateConfig (params : Patch)

namespace ConfiguredEngine

def init : ConfiguredEngine := ⟨.empty, Dict.empty, []⟩

/-- A call that returns; one that raises is refused. -/
def step (env : LoadEnv) (e : ConfiguredEngine) : ConfigCall → Option ConfiguredEngine
  | .loadProfile path debugOverlay =>
      match e.stores.loadProfile env path debugOverlay with
      | (.ok (), stores) => some { e with stores := stores }
      | (.error _, _) => none
  | .updateConfig params =>
      match updateConfig e.runtimeParams params with
      | .ok runtimeParams =>
          some { e with runtimeParams := runtimeParams, given := e.given ++ params }
      | .error _ => none

/-- The value that `update_config` was last given for a field. -/
def lastGiven (e : ConfiguredEngine) (field : Text) : Option PyValue :=
  (e.given.reverse.find? fun item => item.1 = field).map Prod.snd

/-- The value at the field's path in the loaded profile. -/
def loadedValue (e : ConfiguredEngine) (field : Text) : Option PyValue :=
  valueAt [fieldGroup field, fieldName field] e.stores.activeProfile.toValue

/-- Every hot-reloadable field has the value last given to `update_config`, or else the
one that the loaded profile has. -/
def ShowsConfigured (e : ConfiguredEngine) : Prop :=
  ∀ field ∈ hotReloadFields,
    (getEffectiveConfig e.stores.activeProfile).get? field =
      (e.lastGiven field).or (e.loadedValue field)

/-- The profile itself says what is wanted of a field: the value that `update_config` was
given, or the value at its path where none was given. -/
def ProfileAgrees (e : ConfiguredEngine) (field : Text) : Prop :=
  match e.lastGiven field with
  | some value => profileSays e.stores.activeProfile field = some value
  | none => profileSays e.stores.activeProfile field = e.loadedValue field

variable {env : LoadEnv} {e e' : ConfiguredEngine}

/-- A load that returns has made its profile the active one. -/
theorem activeProfile_of_loadProfile {s stores : ProfileStores} {path : Text} {debugOverlay : Bool}
    (h : s.loadProfile env path debugOverlay = (.ok (), stores)) :
    Config.loadProfile env.os env.files path debugOverlay = .ok stores.activeProfile := by
  unfold ProfileStores.loadProfile at h
  split at h
  · cases h
  next profile hprofile =>
    rw [hprofile]
    split at h
    · cases h
    · split at h
      · cases h
      · rw [← (Prod.mk.inj h).2]

/-- The active profile of a run repeats no key. -/
theorem distinctKeys_of_step (hfiles : DistinctFiles env.files) {call : ConfigCall}
    (h : e.stores.activeProfile.toValue.DistinctKeys) (hstep : e.step env call = some e') :
    e'.stores.activeProfile.toValue.DistinctKeys := by
  cases call with
  | loadProfile path debugOverlay =>
      simp only [step] at hstep
      split at hstep
      next stores hload =>
        obtain rfl := Option.some.inj hstep
        exact distinctKeys_loadProfile hfiles (activeProfile_of_loadProfile hload)
      · cases hstep
  | updateConfig params =>
      simp only [step] at hstep
      split at hstep
      · obtain rfl := Option.some.inj hstep
        exact h
      · cases hstep

/-- **Exactly when the effective configuration is the configured one.** -/
theorem showsConfigured_iff (hfiles : DistinctFiles env.files) {calls : List ConfigCall}
    (hrun : execute (step env) init calls = some e) :
    e.ShowsConfigured ↔ ∀ field ∈ hotReloadFields, e.ProfileAgrees field := by
  have hkeys : e.stores.activeProfile.toValue.DistinctKeys :=
    execute_invariant (step env) (fun e => e.stores.activeProfile.toValue.DistinctKeys)
      distinctKeys_empty (fun a call b ha _ hab => distinctKeys_of_step hfiles ha hab) hrun
  refine forall₂_congr fun field hfield => ?_
  rw [get?_getEffectiveConfig (dots_of_hotReload field hfield) hkeys, ProfileAgrees]
  cases e.lastGiven field with
  | some value => rw [Option.some_or]
  | none => rw [Option.none_or]

/-! ## One profile -/

/-- A profile with a threshold for the verifier. -/
def cautiousProfile : PyValue :=
  .dict [(profileVersionKey, .int 2),
    ("vad".toList, .dict [("sileroThreshold".toList, .float (.finite (1 / 2)))])]

def cautiousEnv : LoadEnv := .single "/p.json".toList cautiousProfile

theorem cautious_distinctFiles : DistinctFiles cautiousEnv.files := by
  intro path value hvalue
  have hentry : (path, some value) ∈ [("/p.json".toList, some cautiousProfile)] :=
    Dict.get?_eq_some_iff.mp hvalue
  obtain ⟨-, hvalue⟩ := Prod.mk.inj (List.mem_singleton.mp hentry)
  obtain rfl := Option.some.inj hvalue
  refine .dict (by decide) ?_
  intro member hmember
  simp only [List.mem_cons, List.not_mem_nil, or_false] at hmember
  rcases hmember with rfl | rfl
  · exact .int 2
  · exact .dict (by decide) (by simpa using .float _)

/-- A value given to `update_config` does not show. -/
theorem showsConfigured_fails :
    ∃ e, execute (step cautiousEnv) init [.loadProfile "/p.json".toList false,
        .updateConfig [(sileroThresholdField, .float (.finite (3 / 10)))]] = some e ∧
      (getEffectiveConfig e.stores.activeProfile).get? sileroThresholdField =
        some (.float (.finite (1 / 2))) ∧
      ¬ e.ShowsConfigured := by
  refine ⟨_, rfl, rfl, fun h => ?_⟩
  have hshown := h sileroThresholdField (by decide)
  have hvalues : some (PyValue.float (.finite (1 / 2))) =
      some (PyValue.float (.finite (3 / 10))) := hshown
  simp only [Option.some.injEq, PyValue.float.injEq, PyFloat.finite.injEq] at hvalues
  exact absurd hvalues (by decide +kernel)

/-- The profile's own value shows, as long as nothing else is given. -/
theorem cautious_showsConfigured :
    ∃ e, execute (step cautiousEnv) init [.loadProfile "/p.json".toList false,
        .updateConfig [(sileroThresholdField, .float (.finite (1 / 2)))]] = some e ∧
      e.ShowsConfigured := by
  have hrun : execute (step cautiousEnv) init [.loadProfile "/p.json".toList false,
      .updateConfig [(sileroThresholdField, .float (.finite (1 / 2)))]] = some _ := rfl
  refine ⟨_, hrun, (showsConfigured_iff cautious_distinctFiles hrun).mpr ?_⟩
  simp only [hotReloadFields, List.forall_mem_cons]
  exact ⟨rfl, rfl, rfl, rfl, rfl, rfl, rfl, nofun⟩

end ConfiguredEngine

end Kernel
end AvaListener
