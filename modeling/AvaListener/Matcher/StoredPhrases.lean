import AvaListener.Matcher.PhraseObjects

/-!
# Phrases as the registry stores them

`PhraseConfig.with_updates` takes the values of an update as they are: only the variants
are normalised, and what `__post_init__` does not compare may have any type.  So a stored
phrase keeps a value in every field that an update can reach, and carries the fact that its
fields passed `__post_init__`.

On top of it all operations of `PhraseRegistry`, with what they answer or raise.
-/

namespace AvaListener
namespace Matcher

open Library

/-! ## The checked fields -/

/-- The fields of a `PhraseConfig`, with what an update can put there. -/
structure PhraseFields where
  phraseId : PyValue
  phrase : Text
  variants : List Text
  threshold : PyValue
  cooldownMs : PyValue
  enabled : PyValue
  weight : PyValue

/-- What a `PhraseConfig` that is not built raises: an exception of an operation on a value
of the wrong type, or a `ValueError` of `__post_init__`. -/
inductive PhraseCheckError where
  | raised (e : PyError)
  /-- "PhraseConfig.phrase_id must not be empty" -/
  | emptyPhraseId
  /-- "PhraseConfig.phrase must not be empty" -/
  | emptyPhrase
  /-- "PhraseConfig.threshold must be in (0, 1]; got ..." -/
  | thresholdRange (got : PyValue)
  /-- "PhraseConfig.cooldown_ms must be >= 0; got ..." -/
  | negativeCooldown (got : PyValue)

/-- `__post_init__`. -/
def PhraseFields.postInit (f : PhraseFields) : Except PhraseCheckError Unit :=
  if f.phraseId.truthy = false then .error .emptyPhraseId
  else if f.phrase = [] then .error .emptyPhrase
  else do
    let threshold ← f.threshold.number.mapError .raised
    if (threshold.gt 0 && threshold.le 1) = false then .error (.thresholdRange f.threshold)
    else
      let cooldownMs ← f.cooldownMs.number.mapError .raised
      if cooldownMs.lt 0 = true then .error (.negativeCooldown f.cooldownMs) else .ok ()

/-- A `PhraseConfig`. -/
structure StoredPhrase extends PhraseFields where
  checked : toPhraseFields.postInit = .ok ()

/-- `PhraseConfig(...)`. -/
def PhraseFields.build (f : PhraseFields) : Except PhraseCheckError StoredPhrase :=
  match h : f.postInit with
  | .ok () => .ok ⟨f, h⟩
  | .error e => .error e

/-- What `__post_init__` lets through: a cool-down that is not below zero. -/
theorem PhraseFields.postInit_ok_iff {f : PhraseFields} :
    f.postInit = .ok () ↔
      f.phraseId.truthy = true ∧ f.phrase ≠ [] ∧
        (∃ q : ℚ, f.threshold.number = .ok (.finite q) ∧ 0 < q ∧ q ≤ 1) ∧
        ∃ x, f.cooldownMs.number = .ok x ∧ x.lt 0 = false := by
  unfold postInit
  rw [ite_error_eq_ok_iff, ite_error_eq_ok_iff, bind_eq_ok_iff, Bool.not_eq_false]
  refine and_congr_right fun _ => and_congr_right fun _ => ?_
  constructor
  · rintro ⟨t, ht, hrest⟩
    obtain ⟨hrange, hrest⟩ := ite_error_eq_ok_iff.mp hrest
    obtain ⟨x, hx, hcool⟩ := bind_eq_ok_iff.mp hrest
    have hcool := (ite_error_eq_ok_iff.mp hcool).1
    rw [Bool.not_eq_false] at hrange
    rw [Bool.not_eq_true] at hcool
    obtain ⟨q, rfl, hq⟩ := PyFloat.between_iff.mp hrange
    exact ⟨⟨q, mapError_eq_ok_iff.mp ht, hq⟩, x, mapError_eq_ok_iff.mp hx, hcool⟩
  · rintro ⟨⟨q, ht, hq⟩, x, hx, hcool⟩
    refine ⟨.finite q, mapError_eq_ok_iff.mpr ht, ite_error_eq_ok_iff.mpr ⟨?_, ?_⟩⟩
    · rw [Bool.not_eq_false]
      exact PyFloat.between_iff.mpr ⟨q, rfl, hq⟩
    · refine bind_eq_ok_iff.mpr ⟨x, mapError_eq_ok_iff.mpr hx, ite_error_eq_ok_iff.mpr ⟨?_, rfl⟩⟩
      rw [Bool.not_eq_true]
      exact hcool

/-- With finite numbers in place the two ranges decide. -/
theorem PhraseFields.postInit_of_numbers {f : PhraseFields} {x y : ℚ}
    (hid : f.phraseId.truthy = true) (hphrase : f.phrase ≠ [])
    (hx : f.threshold.number = .ok (.finite x)) (hy : f.cooldownMs.number = .ok (.finite y)) :
    f.postInit =
      if 0 < x ∧ x ≤ 1 then
        if 0 ≤ y then .ok () else .error (.negativeCooldown f.cooldownMs)
      else .error (.thresholdRange f.threshold) := by
  have hrange : ((PyFloat.finite x).gt 0 && (PyFloat.finite x).le 1) = decide (0 < x ∧ x ≤ 1) := by
    simp [PyFloat.gt, PyFloat.le]
  have hcool : (PyFloat.finite y).lt 0 = decide (¬ 0 ≤ y) := by
    simp [PyFloat.lt]
  rw [postInit, if_neg (by simp [hid]), if_neg hphrase, hx, hy]
  show (if _ then _ else if _ then _ else _) = _
  rw [hrange, hcool]
  by_cases hx : 0 < x ∧ x ≤ 1
  · by_cases hy : 0 ≤ y
    · simp [hx, hy]
    · simp [hx, hy]
  · simp [hx]

theorem PhraseFields.build_eq_ok {f : PhraseFields} {p : StoredPhrase} (h : f.build = .ok p) :
    p.toPhraseFields = f := by
  unfold build at h
  split at h
  · cases h
    rfl
  · cases h

theorem PhraseFields.build_of_postInit {f : PhraseFields} (h : f.postInit = .ok ()) :
    f.build = .ok ⟨f, h⟩ := by
  unfold build
  split
  · rfl
  next heq => cases h.symm.trans heq

theorem PhraseFields.build_of_error {f : PhraseFields} {e : PhraseCheckError}
    (h : f.postInit = .error e) : f.build = .error e := by
  unfold build
  split
  next heq => cases h.symm.trans heq
  next heq =>
    cases heq.symm.trans h
    rfl

/-! ## Phrases of a profile -/

/-- The values in the errors of `from_dict`. -/
def PhraseObjectError.toCheck : PhraseObjectError → PhraseCheckError
  | .raised e => .raised e
  | .emptyPhraseId => .emptyPhraseId
  | .emptyPhrase => .emptyPhrase
  | .thresholdRange got => .thresholdRange (.float got)
  | .negativeCooldown got => .negativeCooldown (.int got)

/-- The fields of a phrase as `from_dict` converts them. -/
def LoadedPhrase.fields (p : LoadedPhrase) : PhraseFields where
  phraseId := p.phraseId
  phrase := p.phrase
  variants := p.variants
  threshold := .float (.finite p.threshold)
  cooldownMs := .int p.cooldownMs
  enabled := .bool p.enabled
  weight := .float p.weight

theorem LoadedPhrase.fields_postInit (p : LoadedPhrase) : p.fields.postInit = .ok () := by
  have hcool : (0 : ℚ) ≤ p.cooldownMs := by exact_mod_cast p.cooldownMs_nonneg
  rw [PhraseFields.postInit_of_numbers p.phraseId_truthy p.phrase_ne_nil rfl rfl,
    if_pos ⟨p.threshold_pos, p.threshold_le_one⟩, if_pos hcool]

/-- The phrase as it is stored. -/
def LoadedPhrase.toStored (p : LoadedPhrase) : StoredPhrase :=
  ⟨p.fields, p.fields_postInit⟩

/-! ## Updates -/

/-- The fields that an update can name. -/
inductive UpdateField where
  | threshold
  | cooldownMs
  | enabled
  | weight
  | variants
  deriving DecidableEq

/-- `field_map`: the cool-down has two names. -/
def fieldMap : List (Text × UpdateField) :=
  [(thresholdKey, .threshold), ("cooldown_ms".toList, .cooldownMs), (cooldownMsKey, .cooldownMs),
    (enabledKey, .enabled), (weightKey, .weight), (variantsKey, .variants)]

/-- The field that a key of an update names; other keys are skipped. -/
def updatedField : PyKey → Option UpdateField
  | .str key => (fieldMap.find? fun e => e.1 = key).map Prod.snd
  | _ => none

/-- `mapped`: the new values of the fields. -/
structure MappedUpdates where
  threshold : Option PyValue
  cooldownMs : Option PyValue
  enabled : Option PyValue
  weight : Option PyValue
  variants : Option (List Text)

namespace MappedUpdates

def empty : MappedUpdates := ⟨none, none, none, none, none⟩

/-- One round of the loop over `updates.items()`. -/
def put (lib : TextLib) (m : MappedUpdates) (e : PyKey × PyValue) :
    Except PyError MappedUpdates :=
  match updatedField e.1 with
  | none => .ok m
  | some .threshold => .ok { m with threshold := some e.2 }
  | some .cooldownMs => .ok { m with cooldownMs := some e.2 }
  | some .enabled => .ok { m with enabled := some e.2 }
  | some .weight => .ok { m with weight := some e.2 }
  | some .variants =>
      (variantsOf lib e.2).map fun variants => { m with variants := some variants }

/-- The loop over the items of an update. -/
def ofItems (lib : TextLib) (items : List (PyKey × PyValue)) : Except PyError MappedUpdates :=
  items.foldlM (put lib) empty

end MappedUpdates

/-- The fields that `replace` hands to the constructor. -/
def PhraseFields.replace (f : PhraseFields) (mapped : MappedUpdates) : PhraseFields where
  phraseId := f.phraseId
  phrase := f.phrase
  variants := mapped.variants.getD f.variants
  threshold := mapped.threshold.getD f.threshold
  cooldownMs := mapped.cooldownMs.getD f.cooldownMs
  enabled := mapped.enabled.getD f.enabled
  weight := mapped.weight.getD f.weight

/-- `with_updates`. -/
def StoredPhrase.withUpdates (lib : TextLib) (p : StoredPhrase) (updates : Dict PyKey PyValue) :
    Except PhraseCheckError StoredPhrase := do
  let mapped ← (MappedUpdates.ofItems lib updates.entries).mapError .raised
  (p.replace mapped).build

/-- The value that counts for a field: that of the last key that names it. -/
def given (field : UpdateField) (items : List (PyKey × PyValue)) : Option PyValue :=
  (items.reverse.find? fun e => updatedField e.1 = some field).map Prod.snd

theorem given_concat (field : UpdateField) (items : List (PyKey × PyValue)) (e : PyKey × PyValue) :
    given field (items ++ [e]) =
      if updatedField e.1 = some field then some e.2 else given field items := by
  unfold given
  rw [List.reverse_append, List.reverse_singleton, List.singleton_append]
  by_cases hfield : updatedField e.1 = some field
  · rw [List.find?_cons_of_pos (by simpa using hfield), if_pos hfield]
    rfl
  · rw [List.find?_cons_of_neg (by simpa using hfield), if_neg hfield]

namespace MappedUpdates

/-- What the loop leaves in `mapped`. -/
structure Reads (lib : TextLib) (items : List (PyKey × PyValue)) (m : MappedUpdates) : Prop where
  threshold : m.threshold = given .threshold items
  cooldownMs : m.cooldownMs = given .cooldownMs items
  enabled : m.enabled = given .enabled items
  weight : m.weight = given .weight items
  variants : m.variants.map .ok = (given .variants items).map (variantsOf lib)

/-- One round reads one item more. -/
theorem Reads.put {lib : TextLib} {items : List (PyKey × PyValue)} {m m' : MappedUpdates}
    {e : PyKey × PyValue} (h : Reads lib items m) (hput : m.put lib e = .ok m') :
    Reads lib (items ++ [e]) m' := by
  unfold MappedUpdates.put at hput
  cases hfield : updatedField e.1 with
  | none =>
      rw [hfield] at hput
      cases hput
      constructor <;> simp [given_concat, hfield, h.threshold, h.cooldownMs, h.enabled, h.weight,
        h.variants]
  | some field =>
      rw [hfield] at hput
      cases field with
      | variants =>
          -- The only field whose value is converted, and so the only one that can raise.
          obtain ⟨vs, hvs, rfl⟩ := map_eq_ok_iff.mp hput
          constructor <;> simp [given_concat, hfield, h.threshold, h.cooldownMs, h.enabled,
            h.weight, hvs]
      | _ =>
          cases hput
          constructor <;> simp [given_concat, hfield, h.threshold, h.cooldownMs, h.enabled,
            h.weight, h.variants]

theorem reads_of_ofItems {lib : TextLib} {items : List (PyKey × PyValue)} {m : MappedUpdates}
    (h : ofItems lib items = .ok m) : Reads lib items m := by
  induction items using List.reverseRecOn generalizing m with
  | nil =>
      cases h
      exact ⟨rfl, rfl, rfl, rfl, rfl⟩
  | append_singleton items e ih =>
      rw [ofItems, List.foldlM_append] at h
      obtain ⟨before, hbefore, h⟩ := bind_eq_ok_iff.mp h
      obtain ⟨after, hafter, h⟩ := bind_eq_ok_iff.mp h
      cases h
      exact (ih hbefore).put hafter

theorem exists_put_eq_ok_iff {lib : TextLib} {m : MappedUpdates} {e : PyKey × PyValue} :
    (∃ m', m.put lib e = .ok m') ↔
      (updatedField e.1 = some .variants → ∃ vs, variantsOf lib e.2 = .ok vs) := by
  unfold put
  cases hfield : updatedField e.1 with
  | none => simp
  | some field =>
      cases field with
      | variants => simp [map_eq_ok_iff]
      | _ => simp

/-- The loop ends when every list of variants is one. -/
theorem exists_ofItems_eq_ok_iff {lib : TextLib} {items : List (PyKey × PyValue)} :
    (∃ m, ofItems lib items = .ok m) ↔
      ∀ e ∈ items, updatedField e.1 = some .variants → ∃ vs, variantsOf lib e.2 = .ok vs := by
  unfold ofItems
  generalize empty = start
  induction items generalizing start with
  | nil => exact iff_of_true ⟨start, rfl⟩ (List.forall_mem_nil _)
  | cons e items ih =>
      rw [List.forall_mem_cons, ← exists_put_eq_ok_iff (m := start), List.foldlM_cons]
      constructor
      · rintro ⟨m, h⟩
        obtain ⟨next, hnext, h⟩ := bind_eq_ok_iff.mp h
        exact ⟨⟨next, hnext⟩, (ih next).mp ⟨m, h⟩⟩
      · rintro ⟨⟨next, hnext⟩, hrest⟩
        obtain ⟨m, hm⟩ := (ih next).mpr hrest
        exact ⟨m, bind_eq_ok_iff.mpr ⟨next, hnext, hm⟩⟩

end MappedUpdates

/-- An update succeeds when the loop ends and the new fields pass `__post_init__`. -/
theorem StoredPhrase.withUpdates_ok_iff {lib : TextLib} {p q : StoredPhrase}
    {updates : Dict PyKey PyValue} :
    p.withUpdates lib updates = .ok q ↔
      ∃ mapped, MappedUpdates.ofItems lib updates.entries = .ok mapped ∧
        (p.replace mapped).build = .ok q := by
  unfold withUpdates
  rw [bind_eq_ok_iff]
  simp only [mapError_eq_ok_iff]

/-! ## The registry -/

/-- `_phrases`. -/
abbrev StoredRegistry := Dict PyKey StoredPhrase

/-- What an operation returns. -/
inductive RegistryAnswer where
  | nothing
  | phrases (found : List StoredPhrase)
  | phrase (found : Option StoredPhrase)
  | truth (b : Bool)
  | number (n : ℕ)

/-- A registry after an operation, and what the operation returned or raised. -/
abbrev RegistryOutcome := StoredRegistry × Except PhraseCheckError RegistryAnswer

namespace StoredRegistry

/-- `add_phrase`. -/
def addPhrase (r : StoredRegistry) (phrase : StoredPhrase) : RegistryOutcome :=
  match phrase.phraseId.hash with
  | .error e => (r, .error (.raised e))
  | .ok key => (r.set key phrase, .ok .nothing)

/-- `remove_phrase`. -/
def removePhrase (r : StoredRegistry) (phraseId : PyValue) : RegistryOutcome :=
  -- `pop` with a default does not look at the key of an empty dictionary.
  if r.entries.isEmpty then (r, .ok .nothing)
  else
    match phraseId.hash with
    | .error e => (r, .error (.raised e))
    | .ok key => (r.erase key, .ok .nothing)

/-- A phrase rewritten in its place; no-op if the id is not found.  `enable_phrase`,
`disable_phrase` and `update_phrase` are its uses. -/
def rewritePhrase (r : StoredRegistry) (phraseId : PyValue)
    (f : StoredPhrase → Except PhraseCheckError StoredPhrase) : RegistryOutcome :=
  match phraseId.hash with
  | .error e => (r, .error (.raised e))
  | .ok key =>
      match r.get? key with
      | none => (r, .ok .nothing)
      | some phrase =>
          match f phrase with
          | .error e => (r, .error e)
          | .ok phrase => (r.set key phrase, .ok .nothing)

/-- `replace(..., enabled=...)`, which checks the fields again. -/
def withEnabled (enabled : Bool) (phrase : StoredPhrase) : Except PhraseCheckError StoredPhrase :=
  { phrase.toPhraseFields with enabled := .bool enabled }.build

def enablePhrase (r : StoredRegistry) (phraseId : PyValue) : RegistryOutcome :=
  r.rewritePhrase phraseId (withEnabled true)

def disablePhrase (r : StoredRegistry) (phraseId : PyValue) : RegistryOutcome :=
  r.rewritePhrase phraseId (withEnabled false)

def updatePhrase (lib : TextLib) (r : StoredRegistry) (phraseId : PyValue)
    (updates : Dict PyKey PyValue) : RegistryOutcome :=
  r.rewritePhrase phraseId fun phrase => phrase.withUpdates lib updates

def clear (_ : StoredRegistry) : RegistryOutcome :=
  (Dict.empty, .ok .nothing)

def getActive (r : StoredRegistry) : List StoredPhrase :=
  r.values.filter fun phrase => phrase.enabled.truthy

/-- `get_by_id`. -/
def getById (r : StoredRegistry) (phraseId : PyValue) :
    Except PhraseCheckError (Option StoredPhrase) :=
  (phraseId.hash.mapError .raised).map r.get?

end StoredRegistry

/-- The operations of `PhraseRegistry`.  What `add_phrase` gets is built by `from_dict`. -/
inductive RegistryCall where
  | addPhrase (data : PyValue)
  | removePhrase (phraseId : PyValue)
  | enablePhrase (phraseId : PyValue)
  | disablePhrase (phraseId : PyValue)
  | updatePhrase (phraseId : PyValue) (updates : Dict PyKey PyValue)
  | clear
  | getActive
  | getAll
  | getById (phraseId : PyValue)
  | isEmpty
  | count
  | activeCount

/-- `PhraseConfig.from_dict`, with the result as it is stored. -/
def StoredPhrase.fromDict (lib : TextLib) (numbers : PyNumbers) (data : PyValue) :
    Except PhraseCheckError StoredPhrase :=
  ((LoadedPhrase.fromDict lib numbers data).mapError PhraseObjectError.toCheck).map
    LoadedPhrase.toStored

/-- One operation. -/
def StoredRegistry.call (lib : TextLib) (numbers : PyNumbers) (r : StoredRegistry) :
    RegistryCall → RegistryOutcome
  | .addPhrase data =>
      match StoredPhrase.fromDict lib numbers data with
      | .error e => (r, .error e)
      | .ok phrase => r.addPhrase phrase
  | .removePhrase phraseId => r.removePhrase phraseId
  | .enablePhrase phraseId => r.enablePhrase phraseId
  | .disablePhrase phraseId => r.disablePhrase phraseId
  | .updatePhrase phraseId updates => r.updatePhrase lib phraseId updates
  | .clear => r.clear
  | .getActive => (r, .ok (.phrases r.getActive))
  | .getAll => (r, .ok (.phrases r.values))
  | .getById phraseId => (r, (r.getById phraseId).map .phrase)
  | .isEmpty => (r, .ok (.truth r.entries.isEmpty))
  | .count => (r, .ok (.number r.entries.length))
  | .activeCount => (r, .ok (.number r.getActive.length))

/-- The registry that `load_profile` fills. -/
def LoadedRegistry.toStored (r : LoadedRegistry) : StoredRegistry :=
  r.mapEntries Function.injective_id LoadedPhrase.toStored

/-- **What `load_profile` adds** is added. -/
theorem LoadedRegistry.addPhrase_toStored (r : LoadedRegistry) (p : LoadedPhrase) :
    r.toStored.addPhrase p.toStored =
      match r.addPhrase p with
      | .ok r' => (r'.toStored, .ok .nothing)
      | .error e => (r.toStored, .error (.raised e)) := by
  have hset : ∀ key, Dict.set r.toStored key p.toStored = LoadedRegistry.toStored (r.set key p) :=
    fun key => Dict.set_mapEntries Function.injective_id _ r key p
  unfold StoredRegistry.addPhrase LoadedRegistry.addPhrase
  rw [show p.toStored.phraseId = p.phraseId from rfl]
  cases p.phraseId.hash with
  | error e => rfl
  | ok key =>
      exact congrArg (fun s : StoredRegistry => (s, Except.ok RegistryAnswer.nothing)) (hset key)

/-! ## What an operation stores -/

namespace StoredRegistry

/-- An outcome that assigns at most the given entry, and nothing when it raises. -/
structure Assigns (r : StoredRegistry) (entry : Option (PyKey × StoredPhrase))
    (outcome : RegistryOutcome) : Prop where
  raised : ∀ e, outcome.2 = .error e → outcome.1 = r
  assigned : ∀ e, entry = some e → e ∈ outcome.1.entries
  others : ∀ e ∈ outcome.1.entries, entry = some e ∨ e ∈ r.entries

theorem Assigns.unchanged (r : StoredRegistry) (answer : Except PhraseCheckError RegistryAnswer) :
    Assigns r none (r, answer) :=
  ⟨fun _ _ => rfl, nofun, fun _ he => Or.inr he⟩

theorem Assigns.set (r : StoredRegistry) (key : PyKey) (phrase : StoredPhrase)
    (answer : RegistryAnswer) :
    Assigns r (some (key, phrase)) (Dict.set r key phrase, .ok answer) := by
  refine ⟨nofun, ?_, ?_⟩
  · rintro _ ⟨⟩
    exact mem_setEntry_self ..
  · intro e he
    exact (mem_setEntry he).imp (fun heq => congrArg some heq.symm) And.left

/-- The entry that `add_phrase` assigns. -/
def added (phrase : StoredPhrase) : Option (PyKey × StoredPhrase) := do
  let key ← phrase.phraseId.hash.toOption
  return (key, phrase)

/-- The entry that rewriting a phrase assigns. -/
def rewritten (r : StoredRegistry) (phraseId : PyValue)
    (f : StoredPhrase → Except PhraseCheckError StoredPhrase) : Option (PyKey × StoredPhrase) := do
  let key ← phraseId.hash.toOption
  let phrase ← (f (← r.get? key)).toOption
  return (key, phrase)

/-- The entry that an operation assigns. -/
def stored (lib : TextLib) (numbers : PyNumbers) (r : StoredRegistry) :
    RegistryCall → Option (PyKey × StoredPhrase)
  | .addPhrase data => (StoredPhrase.fromDict lib numbers data).toOption.bind added
  | .enablePhrase phraseId => r.rewritten phraseId (withEnabled true)
  | .disablePhrase phraseId => r.rewritten phraseId (withEnabled false)
  | .updatePhrase phraseId updates =>
      r.rewritten phraseId fun phrase => phrase.withUpdates lib updates
  | _ => none

theorem assigns_addPhrase (r : StoredRegistry) (phrase : StoredPhrase) :
    Assigns r (added phrase) (r.addPhrase phrase) := by
  unfold addPhrase added
  cases phrase.phraseId.hash with
  | error e => exact .unchanged r _
  | ok key => exact .set r key phrase _

theorem assigns_removePhrase (r : StoredRegistry) (phraseId : PyValue) :
    Assigns r none (r.removePhrase phraseId) := by
  unfold removePhrase
  split
  · exact .unchanged r _
  · cases phraseId.hash with
    | error e => exact .unchanged r _
    | ok key => exact ⟨nofun, nofun, fun _ he => Or.inr (List.mem_of_mem_filter he)⟩

theorem assigns_rewritePhrase (r : StoredRegistry) (phraseId : PyValue)
    (f : StoredPhrase → Except PhraseCheckError StoredPhrase) :
    Assigns r (r.rewritten phraseId f) (r.rewritePhrase phraseId f) := by
  unfold rewritePhrase rewritten
  cases phraseId.hash with
  | error e => exact .unchanged r _
  | ok key =>
      cases hget : r.get? key with
      | none => simpa [hget, Except.toOption] using Assigns.unchanged r _
      | some phrase =>
          cases hf : f phrase with
          | error e => simpa [hget, hf, Except.toOption] using Assigns.unchanged r _
          | ok phrase => simpa [hget, hf, Except.toOption] using Assigns.set r key phrase _

/-- **What one operation does to the registry.** -/
theorem assigns_call (lib : TextLib) (numbers : PyNumbers) (r : StoredRegistry)
    (c : RegistryCall) : Assigns r (r.stored lib numbers c) (r.call lib numbers c) := by
  cases c with
  | addPhrase data =>
      rw [call, stored]
      cases StoredPhrase.fromDict lib numbers data with
      | error e => exact .unchanged r _
      | ok phrase => exact assigns_addPhrase r phrase
  | removePhrase phraseId => exact assigns_removePhrase r phraseId
  | enablePhrase phraseId => exact assigns_rewritePhrase r phraseId _
  | disablePhrase phraseId => exact assigns_rewritePhrase r phraseId _
  | updatePhrase phraseId updates => exact assigns_rewritePhrase r phraseId _
  | clear => exact ⟨nofun, nofun, fun _ he => absurd he List.not_mem_nil⟩
  | _ => exact .unchanged r _

end StoredRegistry

end Matcher
end AvaListener
