import AvaListener.Library.Fallible
import AvaListener.Library.PyValue

/-!
# Profile files

`runtime/config/profile_loader.py` and `runtime/config/profile_migrations.py`: a
profile is read, migrated to the current version, resolved along its chain of
`extends`, and merged from the root ancestor down to the child.

The files are a finite map from absolute paths; the functions of `os.path` are a
parameter.
-/

namespace AvaListener
namespace Config

open Library

/-- `os.path.abspath`, `os.path.join` and `os.path.dirname`. -/
structure OsPath where
  abspath : Text → Text
  join : Text → Text → Text
  dirname : Text → Text

/-- The functions on paths in normal form: absolute ones, and names relative to a
directory. -/
def OsPath.normal : OsPath :=
  ⟨id, fun dir name => dir ++ '/' :: name,
    fun path => ((path.reverse.dropWhile (· ≠ '/')).drop 1).reverse⟩

/-- What exists at each absolute path: what `json.load` returns for it, or `none`
when opening or parsing it raises. -/
abbrev ProfileFiles := Dict Text (Option PyValue)

/-- A parsed profile: the members of its JSON object. -/
abbrev Profile := Dict Text PyValue

/-- What reading a profile raises. -/
inductive ProfileError where
  /-- `OSError` or `JSONDecodeError` -/
  | unreadable (path : Text)
  /-- "Profile version {version} is higher than supported 2" -/
  | unsupportedVersion (version : PyValue)
  /-- "No migration path from version {version} to {version + 1}" -/
  | noMigrationPath (version : PyValue)
  /-- "Circular inheritance detected: {path} already in {visited}" -/
  | circular (path : Text) (visited : List Text)
  /-- "Missing parent profile: {path}" -/
  | missingParent (path : Text)
  | raised (e : PyError)
  /-- The model ran out of fuel; `resolveInheritance_ne_outOfFuel`. -/
  | outOfFuel

def wakePhrasesKey : Text := "wakePhrases".toList
def profileVersionKey : Text := "profileVersion".toList
def extendsKey : Text := "extends".toList

/-- An operation of the language among the steps of the loader. -/
def lift {α : Type} (x : Except PyError α) : Except ProfileError α :=
  x.mapError .raised

/-- `json.load`. -/
def readJson (files : ProfileFiles) (path : Text) : Except ProfileError PyValue :=
  match files.get? path with
  | some (some value) => .ok value
  | _ => .error (.unreadable path)

/-- The object that a profile has to be for `profile.get`.  Of a repeated key the
last value counts. -/
def asProfile (value : PyValue) : Except PyError Profile :=
  value.items.map Dict.empty.setAll

/-! ## Migrations -/

/-- `if "weight" not in phrase: phrase["weight"] = 1.0`. -/
def addWeight (phrase : PyValue) : Except PyError PyValue := do
  if ← phrase.contains "weight".toList then
    return phrase
  else
    match phrase with
    | .dict items => return .dict (setEntry items "weight".toList (.float (.finite 1)))
    | _ => throw .typeError

/-- The loop over `wakePhrases`, which changes the elements of a list in place. -/
def addWeights (wakePhrases : PyValue) : Except PyError PyValue := do
  let phrases ← (← wakePhrases.iterate).mapM addWeight
  match wakePhrases with
  | .list _ => return .list phrases
  | _ => return wakePhrases

/-- `migrate_v1_to_v2`. -/
def migrateV1ToV2 (profile : Profile) : Except PyError Profile :=
  match profile.get? wakePhrasesKey with
  | some wakePhrases =>
      (addWeights wakePhrases).map fun migrated =>
        (profile.set wakePhrasesKey migrated).set profileVersionKey (.int 2)
  | none => .ok (profile.set profileVersionKey (.int 2))

/-- `apply_migrations`.  The only migration leads from version 1 to the current
version 2, so the loop runs once at most; a version that is no number below or
above 2 is left alone. -/
def applyMigrations (value : PyValue) : Except ProfileError Profile := do
  let profile ← lift (asProfile value)
  let version := (profile.get? profileVersionKey).getD (.int 1)
  let number ← lift version.number
  if number.gt 2 then throw (.unsupportedVersion version)
  else if number.lt 2 then
    if number = .finite 1 then lift (migrateV1ToV2 profile)
    else throw (.noMigrationPath version)
  else return profile

/-! ## Inheritance -/

/-- The `while` loop of `resolve_inheritance`, with `detect_cycle`. -/
def resolveLoop (os : OsPath) (files : ProfileFiles) :
    ℕ → Profile → Text → List Text → List Profile → Except ProfileError (List Profile)
  | 0, _, _, _, _ => .error .outOfFuel
  | fuel + 1, current, currentDir, visited, chain =>
      match current.get? extendsKey with
      | none => .ok chain
      | some (.str parentRelPath) =>
          let parentAbsPath := os.abspath (os.join currentDir parentRelPath)
          if parentAbsPath ∈ visited then .error (.circular parentAbsPath visited)
          else
            match files.get? parentAbsPath with
            | none => .error (.missingParent parentAbsPath)
            | some _ => do
                let parent ← applyMigrations (← readJson files parentAbsPath)
                resolveLoop os files fuel parent (os.dirname parentAbsPath)
                  (parentAbsPath :: visited) (parent :: chain)
      | some _ => .error (.raised .typeError)

/-- `resolve_inheritance`: the profiles from the root ancestor to the child.  Every
round visits one more file, so the fuel is the number of files. -/
def resolveInheritance (os : OsPath) (files : ProfileFiles) (profile : Profile)
    (baseDir : Text) (visited : List Text) : Except ProfileError (List Profile) :=
  resolveLoop os files (files.entries.length + 1) profile baseDir visited [profile]

/-- Migrating is no recursion. -/
theorem applyMigrations_ne_outOfFuel (value : PyValue) : applyMigrations value ≠ .error .outOfFuel := by
  have hlift : ∀ {α β : Type} {x : Except PyError α} {f : α → Except ProfileError β},
      (∀ a, f a ≠ .error .outOfFuel) → (lift x >>= f) ≠ .error .outOfFuel := by
    intro α β x f hf
    cases x with
    | error e =>
        intro h
        cases h
    | ok a => exact hf a
  refine hlift fun profile => hlift fun number => ?_
  split
  · intro h
    cases h
  · split
    · split
      · intro h
        cases hmigrated : migrateV1ToV2 profile with
        | error e =>
            rw [hmigrated] at h
            cases h
        | ok migrated =>
            rw [hmigrated] at h
            cases h
      · intro h
        cases h
    · intro h
      cases h

/-- Every round of the loop has one file less to visit. -/
theorem resolveLoop_ne_outOfFuel (os : OsPath) (files : ProfileFiles) {fuel : ℕ}
    {visited : List Text} (hfuel : (files.keys.filter (· ∉ visited)).length < fuel)
    (current : Profile) (currentDir : Text) (chain : List Profile) :
    resolveLoop os files fuel current currentDir visited chain ≠ .error .outOfFuel := by
  induction fuel generalizing visited current currentDir chain with
  | zero => exact absurd hfuel (Nat.not_lt_zero _)
  | succ fuel ih =>
      rw [resolveLoop]
      split
      · nofun
      next parentRelPath _ =>
        generalize os.abspath (os.join currentDir parentRelPath) = path
        by_cases hvisited : path ∈ visited
        · simp [hvisited]
        · rw [if_neg hvisited]
          cases hfile : files.get? path with
          | none => nofun
          | some content =>
              have hkey : path ∈ files.keys.filter (· ∉ visited) := by
                have hmem := List.mem_map_of_mem (f := Prod.fst) (Dict.get?_eq_some_iff.mp hfile)
                exact List.mem_filter.mpr ⟨hmem, by simpa using hvisited⟩
              -- The parent is a file not visited before, and is visited now.
              have hless : (files.keys.filter (· ∉ path :: visited)).length <
                  (files.keys.filter (· ∉ visited)).length := by
                have hfilter : files.keys.filter (· ∉ path :: visited) =
                    (files.keys.filter (· ∉ visited)).filter (· ≠ path) := by
                  rw [List.filter_filter]
                  refine List.filter_congr ?_
                  intro other _
                  simp
                rw [hfilter]
                exact List.length_filter_lt_length_iff_exists.mpr ⟨path, hkey, by simp⟩
              cases content with
              | none => simp [readJson, hfile]
              | some value =>
                  simp only [readJson, hfile, ok_bind]
                  cases hparent : applyMigrations value with
                  -- Nothing in a migration runs out of fuel.
                  | error e =>
                      intro hout
                      rw [error_bind] at hout
                      exact applyMigrations_ne_outOfFuel value
                        (hparent.trans (congrArg _ (Except.error.inj hout)))
                  | ok parent => exact ih (by omega) parent _ _
      · nofun

/-- **The chain is always resolved or rejected**: the fuel suffices. -/
theorem resolveInheritance_ne_outOfFuel (os : OsPath) (files : ProfileFiles) (profile : Profile)
    (baseDir : Text) (visited : List Text) :
    resolveInheritance os files profile baseDir visited ≠ .error .outOfFuel := by
  refine resolveLoop_ne_outOfFuel os files ?_ profile baseDir [profile]
  have hle := List.length_filter_le (· ∉ visited) files.keys
  rw [Dict.keys, List.length_map] at hle
  exact Nat.lt_succ_of_le hle

/-! ## Merging -/

mutual

/-- The value that a key has after merging: objects are merged, anything else and
the list of phrases is replaced. -/
def mergeValue (key : Text) (old : Option PyValue) : PyValue → PyValue
  | .dict items =>
      if key = wakePhrasesKey then .dict items
      else
        match old with
        | some (.dict oldItems) => .dict (mergeItems oldItems items)
        | _ => .dict items
  | value => value

/-- `_deep_merge` on the items of two `dict`s. -/
def mergeItems (oldItems : List (Text × PyValue)) :
    List (Text × PyValue) → List (Text × PyValue)
  | [] => oldItems
  | (key, value) :: rest =>
      mergeItems (setEntry oldItems key (mergeValue key (PyValue.item? oldItems key) value)) rest

end

theorem mergeItems_nodup {oldItems : List (Text × PyValue)}
    (h : (oldItems.map Prod.fst).Nodup) (items : List (Text × PyValue)) :
    ((mergeItems oldItems items).map Prod.fst).Nodup := by
  induction items generalizing oldItems with
  | nil => exact h
  | cons item rest ih => exact ih (setEntry_nodup h _ _)

/-- `_deep_merge`. -/
def deepMerge (profile child : Profile) : Profile :=
  ⟨mergeItems profile.entries child.entries, mergeItems_nodup profile.nodup _⟩

/-- What the merged items have at a key. -/
theorem item?_mergeItems {items : List (Text × PyValue)} (hitems : (items.map Prod.fst).Nodup)
    (oldItems : List (Text × PyValue)) (key : Text) :
    PyValue.item? (mergeItems oldItems items) key =
      ((PyValue.item? items key).map (mergeValue key (PyValue.item? oldItems key))).or
        (PyValue.item? oldItems key) := by
  induction items generalizing oldItems with
  | nil => rfl
  | cons item rest ih =>
      obtain ⟨other, value⟩ := item
      have hfresh : other ∉ rest.map Prod.fst := (List.nodup_cons.mp hitems).1
      have hstep := ih (List.nodup_cons.mp hitems).2
        (setEntry oldItems other (mergeValue other (PyValue.item? oldItems other) value))
      rw [PyValue.item?_setEntry] at hstep
      rw [mergeItems, hstep]
      by_cases hkey : key = other
      · subst hkey
        -- The key does not occur again among the remaining items.
        have hnone : PyValue.item? rest key = none := by
          rw [PyValue.item?, Option.map_eq_none_iff, List.find?_eq_none]
          intro e he heq
          exact hfresh (List.mem_map.mpr ⟨e, he, of_decide_eq_true heq⟩)
        have hhead : PyValue.item? ((key, value) :: rest) key = some value := by
          simp [PyValue.item?]
        rw [hnone, hhead, if_pos rfl]
        rfl
      · have hhead : PyValue.item? ((other, value) :: rest) key = PyValue.item? rest key := by
          simp [PyValue.item?, Ne.symm hkey]
        rw [hhead, if_neg hkey]

/-- What a merged profile has at a key. -/
theorem get?_deepMerge (profile child : Profile) (key : Text) :
    (deepMerge profile child).get? key =
      ((child.get? key).map (mergeValue key (profile.get? key))).or (profile.get? key) :=
  item?_mergeItems child.nodup profile.entries key

/-- **The child's phrases replace the parent's entirely.** -/
theorem get?_wakePhrases_deepMerge (profile child : Profile) :
    (deepMerge profile child).get? wakePhrasesKey =
      (child.get? wakePhrasesKey).or (profile.get? wakePhrasesKey) := by
  have hvalue : ∀ (old : Option PyValue) (value : PyValue),
      mergeValue wakePhrasesKey old value = value := by
    intro old value
    cases value with
    | dict items => simp [mergeValue]
    | _ => rfl
  rw [get?_deepMerge]
  cases child.get? wakePhrasesKey with
  | none => rfl
  | some value => rw [Option.map_some, hvalue]

/-- `merge_profiles`. -/
def mergeProfiles : List Profile → Profile
  | [] => Dict.empty
  | root :: children => children.foldl deepMerge root

/-- The phrases of a merged chain are those of the last profile that lists any. -/
theorem get?_wakePhrases_mergeProfiles (chain : List Profile) :
    (mergeProfiles chain).get? wakePhrasesKey =
      chain.reverse.findSome? (·.get? wakePhrasesKey) := by
  induction chain using List.reverseRecOn with
  | nil => rfl
  | append_singleton chain child ih =>
      rw [List.reverse_append, List.reverse_singleton, List.singleton_append, List.findSome?_cons]
      cases chain with
      | nil => cases h : child.get? wakePhrasesKey <;> simpa [mergeProfiles] using h
      | cons root children =>
          have hmerge : mergeProfiles (root :: children ++ [child]) =
              deepMerge (mergeProfiles (root :: children)) child := by
            simp [mergeProfiles]
          rw [hmerge, get?_wakePhrases_deepMerge]
          cases child.get? wakePhrasesKey with
          | none => exact ih
          | some value => rfl

/-- What `debug_overlay` appends to the chain. -/
def debugOverlayProfile : Profile :=
  ⟨[("transcription".toList, .dict [("enableDebug".toList, .bool true)]),
    ("diagnostics".toList, .dict [("enableInternalTrace".toList, .bool true)])], by decide⟩

/-- The chain that `load_profile` resolves, from the root ancestor to the file. -/
def loadChain (os : OsPath) (files : ProfileFiles) (path : Text) :
    Except ProfileError (List Profile) := do
  let absPath := os.abspath path
  let rootProfile ← applyMigrations (← readJson files absPath)
  resolveInheritance os files rootProfile (os.dirname absPath) [absPath]

/-- `load_profile`. -/
def loadProfile (os : OsPath) (files : ProfileFiles) (path : Text) (debugOverlay : Bool) :
    Except ProfileError Profile :=
  (loadChain os files path).map fun chain =>
    mergeProfiles (if debugOverlay then chain ++ [debugOverlayProfile] else chain)

/-- `profile.get("wakePhrases", [])`. -/
def Profile.wakePhrases (profile : Profile) : PyValue :=
  (profile.get? wakePhrasesKey).getD (.list [])

end Config
end AvaListener
