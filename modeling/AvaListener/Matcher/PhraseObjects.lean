import AvaListener.Library.Fallible
import AvaListener.Library.PyValue
import AvaListener.Matcher.PhraseRegistry

/-!
# Phrases from the objects of a profile

`PhraseConfig.from_dict` as it reads an element of `wakePhrases` straight from a
profile file: a value of any type, with keys missing or of any type.  Neither the
type of the id nor that of the weight is checked, so a `LoadedPhrase` keeps the id
as the file has it and any float as weight.

The registry of such phrases is keyed by what the ids compare by; an id that
cannot be hashed cannot be added.
-/

namespace AvaListener
namespace Matcher

open Library

def variantsKey : Text := "variants".toList
def phraseIdKey : Text := "phraseId".toList
def phraseKey : Text := "phrase".toList
def thresholdKey : Text := "threshold".toList
def cooldownMsKey : Text := "cooldownMs".toList
def enabledKey : Text := "enabled".toList
def weightKey : Text := "weight".toList

/-- The arguments of the call `cls(...)` in `from_dict`. -/
structure PhraseArgs where
  phraseId : PyValue
  phrase : Text
  variants : List Text
  threshold : PyFloat
  cooldownMs : ℤ
  enabled : Bool
  weight : PyFloat

/-- What `from_dict` raises: an exception of the conversions, or a `ValueError` of
`__post_init__`. -/
inductive PhraseObjectError where
  | raised (e : PyError)
  /-- "PhraseConfig.phrase_id must not be empty" -/
  | emptyPhraseId
  /-- "PhraseConfig.phrase must not be empty" -/
  | emptyPhrase
  /-- "PhraseConfig.threshold must be in (0, 1]; got ..." -/
  | thresholdRange (got : PyFloat)
  /-- "PhraseConfig.cooldown_ms must be >= 0; got ..." -/
  | negativeCooldown (got : ℤ)
  deriving DecidableEq

/-- A phrase as `from_dict` builds it. -/
structure LoadedPhrase where
  phraseId : PyValue
  phrase : Text
  variants : List Text
  threshold : ℚ
  cooldownMs : ℤ
  enabled : Bool
  weight : PyFloat
  phraseId_truthy : phraseId.truthy = true
  phrase_ne_nil : phrase ≠ []
  threshold_pos : 0 < threshold
  threshold_le_one : threshold ≤ 1
  cooldownMs_nonneg : 0 ≤ cooldownMs

/-- `data[key]`. -/
def requireKey (items : List (Text × PyValue)) (key : Text) : Except PyError PyValue :=
  (PyValue.item? items key).elim (.error (.keyError key)) .ok

/-- The clean variants of an object. -/
def objectVariants (lib : TextLib) (items : List (Text × PyValue)) : Except PyError (List Text) := do
  let rawVariants ← ((PyValue.item? items variantsKey).getD (.list [])).iterate
  return cleanVariants lib (← rawVariants.mapM PyValue.text)

/-- The arguments that `from_dict` reads from the object, in the order in which it
reads them. -/
def PhraseArgs.ofObject (lib : TextLib) (numbers : PyNumbers) (data : PyValue) :
    Except PyError PhraseArgs := do
  let items ← data.items
  let variants ← objectVariants lib items
  let phraseId ← requireKey items phraseIdKey
  let phrase ← (← requireKey items phraseKey).text
  let threshold ← (← requireKey items thresholdKey).toFloat numbers
  let cooldownMs ← ((PyValue.item? items cooldownMsKey).getD (.int 2000)).toInt numbers
  let weight ← ((PyValue.item? items weightKey).getD (.float (.finite 1))).toFloat numbers
  return {
    phraseId, phrase := normVariant lib phrase, variants, threshold, cooldownMs, weight
    enabled := ((PyValue.item? items enabledKey).getD (.bool true)).truthy }

theorem pos_of_inRange {x : ℚ} (h : 0 < x ∧ x ≤ 1) : 0 < x := h.1

theorem le_one_of_inRange {x : ℚ} (h : 0 < x ∧ x ≤ 1) : x ≤ 1 := h.2

/-- `__post_init__`.  Only a finite threshold can be in range. -/
def LoadedPhrase.make (args : PhraseArgs) : Except PhraseObjectError LoadedPhrase :=
  if hid : args.phraseId.truthy = true then
    if hphrase : args.phrase = [] then .error .emptyPhrase
    else
      match args.threshold with
      | .finite threshold =>
          if hrange : 0 < threshold ∧ threshold ≤ 1 then
            if hcool : 0 ≤ args.cooldownMs then
              .ok ⟨args.phraseId, args.phrase, args.variants, threshold, args.cooldownMs,
                args.enabled, args.weight, hid, hphrase, pos_of_inRange hrange,
                le_one_of_inRange hrange, hcool⟩
            else .error (.negativeCooldown args.cooldownMs)
          else .error (.thresholdRange (.finite threshold))
      | threshold => .error (.thresholdRange threshold)
  else .error .emptyPhraseId

/-- `PhraseConfig.from_dict`. -/
def LoadedPhrase.fromDict (lib : TextLib) (numbers : PyNumbers) (data : PyValue) :
    Except PhraseObjectError LoadedPhrase := do
  LoadedPhrase.make (← (PhraseArgs.ofObject lib numbers data).mapError .raised)

/-- An object that `from_dict` accepts. -/
structure WellFormedObject (lib : TextLib) (numbers : PyNumbers)
    (items : List (Text × PyValue)) : Prop where
  variants : ∃ raw, ((PyValue.item? items variantsKey).getD (.list [])).iterate = .ok raw ∧
    ∀ v ∈ raw, ∃ s, v = .str s
  phraseId : ∃ v, PyValue.item? items phraseIdKey = some v ∧ v.truthy = true
  phrase : ∃ s, PyValue.item? items phraseKey = some (.str s) ∧ normVariant lib s ≠ []
  threshold : ∃ v x, PyValue.item? items thresholdKey = some v ∧
    v.toFloat numbers = .ok (.finite x) ∧ 0 < x ∧ x ≤ 1
  cooldownMs : ∃ n, ((PyValue.item? items cooldownMsKey).getD (.int 2000)).toInt numbers = .ok n ∧
    0 ≤ n
  weight : ∃ x, ((PyValue.item? items weightKey).getD (.float (.finite 1))).toFloat numbers = .ok x

/-- The clean variants that come out of a value. -/
def variantsOf (lib : TextLib) (v : PyValue) : Except PyError (List Text) := do
  let rawVariants ← v.iterate
  return cleanVariants lib (← rawVariants.mapM PyValue.text)

theorem variantsOf_eq_ok {lib : TextLib} {v : PyValue} {variants : List Text}
    (h : variantsOf lib v = .ok variants) : ∃ raw, variants = cleanVariants lib raw := by
  obtain ⟨_, -, h⟩ := bind_eq_ok_iff.mp h
  obtain ⟨texts, -, h⟩ := bind_eq_ok_iff.mp h
  exact ⟨texts, (Except.ok.inj h).symm⟩

theorem text_eq_ok_iff {v : PyValue} {s : Text} : v.text = .ok s ↔ v = .str s := by
  cases v with
  | str t => simp [PyValue.text]
  | _ => simp [PyValue.text]

/-- Variants are texts that the value gives when iterated. -/
theorem variantsOf_ok_iff {lib : TextLib} {v : PyValue} :
    (∃ variants, variantsOf lib v = .ok variants) ↔
      ∃ raw, v.iterate = .ok raw ∧ ∀ w ∈ raw, ∃ s, w = .str s := by
  constructor
  · rintro ⟨variants, h⟩
    obtain ⟨raw, hraw, h⟩ := bind_eq_ok_iff.mp h
    obtain ⟨texts, htexts, -⟩ := bind_eq_ok_iff.mp h
    refine ⟨raw, hraw, ?_⟩
    intro w hw
    obtain ⟨s, hs⟩ := exists_mapM_eq_ok_iff.mp ⟨texts, htexts⟩ w hw
    exact ⟨s, text_eq_ok_iff.mp hs⟩
  · rintro ⟨raw, hraw, hall⟩
    have htext : ∀ w ∈ raw, ∃ s, w.text = .ok s := by
      intro w hw
      obtain ⟨s, hs⟩ := hall w hw
      exact ⟨s, text_eq_ok_iff.mpr hs⟩
    obtain ⟨texts, htexts⟩ := exists_mapM_eq_ok_iff.mpr htext
    exact ⟨cleanVariants lib texts,
      bind_eq_ok_iff.mpr ⟨raw, hraw, bind_eq_ok_iff.mpr ⟨texts, htexts, rfl⟩⟩⟩

theorem objectVariants_eq (lib : TextLib) (items : List (Text × PyValue)) :
    objectVariants lib items =
      variantsOf lib ((PyValue.item? items variantsKey).getD (.list [])) := rfl

theorem objectVariants_ok_iff {lib : TextLib} {items : List (Text × PyValue)} :
    (∃ variants, objectVariants lib items = .ok variants) ↔
      ∃ raw, ((PyValue.item? items variantsKey).getD (.list [])).iterate = .ok raw ∧
        ∀ v ∈ raw, ∃ s, v = .str s := by
  rw [objectVariants_eq]
  exact variantsOf_ok_iff

theorem requireKey_eq_ok_iff {items : List (Text × PyValue)} {key : Text} {v : PyValue} :
    requireKey items key = .ok v ↔ PyValue.item? items key = some v := by
  unfold requireKey
  cases PyValue.item? items key with
  | none => simp
  | some found => simp

/-- What `__post_init__` lets through. -/
theorem LoadedPhrase.make_ok_iff {args : PhraseArgs} :
    (∃ p, LoadedPhrase.make args = .ok p) ↔
      args.phraseId.truthy = true ∧ args.phrase ≠ [] ∧
        (∃ x, args.threshold = .finite x ∧ 0 < x ∧ x ≤ 1) ∧ 0 ≤ args.cooldownMs := by
  obtain ⟨phraseId, phrase, variants, threshold, cooldownMs, enabled, weight⟩ := args
  unfold make
  by_cases hid : phraseId.truthy = true
  · by_cases hphrase : phrase = []
    · simp [hid, hphrase]
    · cases threshold with
      | finite x =>
          by_cases hrange : 0 < x ∧ x ≤ 1
          · by_cases hcool : 0 ≤ cooldownMs
            · simp [hid, hphrase, hrange, hcool]
            · simp [hid, hphrase, hrange, hcool]
          · simp [hid, hphrase, hrange]
      | _ => simp [hid, hphrase]
  · simp [hid]

/-- The descriptor carries the id and the texts it is given. -/
theorem LoadedPhrase.make_fields {args : PhraseArgs} {p : LoadedPhrase}
    (h : LoadedPhrase.make args = .ok p) :
    p.phraseId = args.phraseId ∧ p.phrase = args.phrase ∧ p.variants = args.variants := by
  unfold make at h
  split at h
  · split at h
    · cases h
    · split at h
      · split at h
        · split at h
          · cases h
            exact ⟨rfl, rfl, rfl⟩
          · cases h
        · cases h
      · cases h
  · cases h

/-- The arguments that `from_dict` reads, one by one. -/
theorem PhraseArgs.ofObject_eq_ok {lib : TextLib} {numbers : PyNumbers} {data : PyValue}
    {args : PhraseArgs} (h : PhraseArgs.ofObject lib numbers data = .ok args) :
    ∃ items, data = .dict items ∧ objectVariants lib items = .ok args.variants ∧
      PyValue.item? items phraseIdKey = some args.phraseId ∧
      (∃ s, PyValue.item? items phraseKey = some (.str s) ∧ args.phrase = normVariant lib s) ∧
      (∃ v, PyValue.item? items thresholdKey = some v ∧ v.toFloat numbers = .ok args.threshold) ∧
      ((PyValue.item? items cooldownMsKey).getD (.int 2000)).toInt numbers = .ok args.cooldownMs ∧
      ((PyValue.item? items weightKey).getD (.float (.finite 1))).toFloat numbers =
        .ok args.weight := by
  obtain ⟨items, hitems, h⟩ := bind_eq_ok_iff.mp h
  obtain ⟨variants, hvariants, h⟩ := bind_eq_ok_iff.mp h
  obtain ⟨phraseId, hid, h⟩ := bind_eq_ok_iff.mp h
  obtain ⟨phraseValue, hphraseValue, h⟩ := bind_eq_ok_iff.mp h
  obtain ⟨phrase, hphrase, h⟩ := bind_eq_ok_iff.mp h
  obtain ⟨thresholdValue, hthresholdValue, h⟩ := bind_eq_ok_iff.mp h
  obtain ⟨threshold, hthreshold, h⟩ := bind_eq_ok_iff.mp h
  obtain ⟨cooldownMs, hcooldown, h⟩ := bind_eq_ok_iff.mp h
  obtain ⟨weight, hweight, h⟩ := bind_eq_ok_iff.mp h
  cases h
  have hdata : data = .dict items := by
    cases data with
    | dict _ => exact congrArg _ (Except.ok.inj hitems)
    | _ => cases hitems
  obtain rfl := text_eq_ok_iff.mp hphrase
  exact ⟨items, hdata, hvariants, requireKey_eq_ok_iff.mp hid,
    ⟨phrase, requireKey_eq_ok_iff.mp hphraseValue, rfl⟩,
    ⟨thresholdValue, requireKey_eq_ok_iff.mp hthresholdValue, hthreshold⟩, hcooldown, hweight⟩

/-- **`from_dict` accepts exactly the well-formed objects.** -/
theorem LoadedPhrase.fromDict_ok_iff {lib : TextLib} {numbers : PyNumbers} {data : PyValue} :
    (∃ p, LoadedPhrase.fromDict lib numbers data = .ok p) ↔
      ∃ items, data = .dict items ∧ WellFormedObject lib numbers items := by
  constructor
  · rintro ⟨p, h⟩
    obtain ⟨args, hargs, hmake⟩ := bind_eq_ok_iff.mp h
    obtain ⟨items, hdata, hvariants, hid, ⟨s, hs, hphrase⟩, ⟨v, hv, hthreshold⟩, hcooldown,
      hweight⟩ := PhraseArgs.ofObject_eq_ok (mapError_eq_ok_iff.mp hargs)
    obtain ⟨htruthy, hne, ⟨x, hx, hrange⟩, hcool⟩ := make_ok_iff.mp ⟨p, hmake⟩
    exact ⟨items, hdata, {
      variants := objectVariants_ok_iff.mp ⟨_, hvariants⟩
      phraseId := ⟨_, hid, htruthy⟩
      phrase := ⟨s, hs, hphrase ▸ hne⟩
      threshold := ⟨v, x, hv, hx ▸ hthreshold, hrange⟩
      cooldownMs := ⟨_, hcooldown, hcool⟩
      weight := ⟨_, hweight⟩ }⟩
  · rintro ⟨items, rfl, hwf⟩
    obtain ⟨variants, hvariants⟩ := objectVariants_ok_iff.mpr hwf.variants
    obtain ⟨phraseId, hid, htruthy⟩ := hwf.phraseId
    obtain ⟨s, hs, hne⟩ := hwf.phrase
    obtain ⟨v, x, hv, hx, hrange⟩ := hwf.threshold
    obtain ⟨cooldownMs, hcooldown, hcool⟩ := hwf.cooldownMs
    obtain ⟨weight, hweight⟩ := hwf.weight
    have hargs : PhraseArgs.ofObject lib numbers (.dict items) = .ok {
        phraseId, phrase := normVariant lib s, variants, threshold := .finite x, cooldownMs, weight
        enabled := ((PyValue.item? items enabledKey).getD (.bool true)).truthy } := by
      rw [PhraseArgs.ofObject, PyValue.items, ok_bind, hvariants, ok_bind,
        requireKey_eq_ok_iff.mpr hid, ok_bind, requireKey_eq_ok_iff.mpr hs, ok_bind, PyValue.text,
        ok_bind, requireKey_eq_ok_iff.mpr hv, ok_bind, hx, ok_bind, hcooldown, ok_bind, hweight]
      rfl
    rw [fromDict, hargs]
    exact make_ok_iff.mpr ⟨htruthy, hne, ⟨x, rfl, hrange⟩, hcool⟩

theorem LoadedPhrase.fromDict_phraseId {lib : TextLib} {numbers : PyNumbers}
    {items : List (Text × PyValue)} {p : LoadedPhrase}
    (h : LoadedPhrase.fromDict lib numbers (.dict items) = .ok p) :
    PyValue.item? items phraseIdKey = some p.phraseId := by
  obtain ⟨args, hargs, hmake⟩ := bind_eq_ok_iff.mp h
  obtain ⟨_, hdata, _, hid, _⟩ := PhraseArgs.ofObject_eq_ok (mapError_eq_ok_iff.mp hargs)
  cases hdata
  rw [hid, (make_fields hmake).1]

/-! ## The registry and the index -/

theorem str_injective : Function.Injective PyKey.str := fun _ _ h => PyKey.str.inj h

/-- The phrases by id, in load order. -/
abbrev LoadedRegistry := Dict PyKey LoadedPhrase

/-- `add_phrase`. -/
def LoadedRegistry.addPhrase (r : LoadedRegistry) (p : LoadedPhrase) :
    Except PyError LoadedRegistry :=
  p.phraseId.hash.map fun key => r.set key p

/-- The loop `for p in new_phrases: registry.add_phrase(p)`: what the registry holds
when it ends, and how it ends. -/
def LoadedRegistry.addAll (r : LoadedRegistry) :
    List LoadedPhrase → LoadedRegistry × Except PyError Unit
  | [] => (r, .ok ())
  | p :: rest =>
      match r.addPhrase p with
      | .ok r => LoadedRegistry.addAll r rest
      | .error e => (r, .error e)

/-- The phrases with the keys of their ids, up to the first id that is none. -/
def keyedPhrases : List LoadedPhrase → List (PyKey × LoadedPhrase)
  | [] => []
  | p :: rest =>
      match p.phraseId.hash with
      | .ok key => (key, p) :: keyedPhrases rest
      | .error _ => []

/-- The loop registers the phrases up to the first id that cannot be hashed. -/
theorem LoadedRegistry.addAll_eq (r : LoadedRegistry) (phrases : List LoadedPhrase) :
    r.addAll phrases = (r.setAll (keyedPhrases phrases),
      if ∀ p ∈ phrases, p.phraseId.hashable = true then .ok () else .error .typeError) := by
  induction phrases generalizing r with
  | nil => simp [addAll, keyedPhrases]
  | cons p rest ih =>
      have herror : ∀ e, p.phraseId.hash = .error e → e = .typeError := by
        intro e he
        revert he
        cases p.phraseId <;> simp [PyValue.hash] <;> exact Eq.symm
      rw [addAll, addPhrase, keyedPhrases]
      cases hhash : p.phraseId.hash with
      | error e =>
          have hnot : p.phraseId.hashable = false := by rw [PyValue.hashable, hhash]; rfl
          simp [Except.map, hnot, herror e hhash]
      | ok key =>
          have hhashable : p.phraseId.hashable = true := PyValue.hashable_iff.mpr ⟨key, hhash⟩
          simp [Except.map, hhashable, ih]

theorem keyedPhrases_snd {phrases : List LoadedPhrase}
    (h : ∀ p ∈ phrases, p.phraseId.hashable = true) :
    (keyedPhrases phrases).map Prod.snd = phrases := by
  induction phrases with
  | nil => rfl
  | cons p rest ih =>
      obtain ⟨hp, hrest⟩ := List.forall_mem_cons.mp h
      obtain ⟨key, hkey⟩ := PyValue.hashable_iff.mp hp
      rw [keyedPhrases, hkey, List.map_cons, ih hrest]

/-- `_all_variants`, `_variant_to_canon` and `_phrase_to_entry`. -/
structure LoadedIndex where
  allVariants : List Text
  variantToCanon : Dict Text Text
  phraseToEntry : Dict Text LoadedPhrase

namespace LoadedIndex

def empty : LoadedIndex := ⟨[], Dict.empty, Dict.empty⟩

/-- One variant of an entry. -/
def addVariant (lib : TextLib) (canonical : Text) (idx : LoadedIndex) (v : Text) : LoadedIndex :=
  let norm := normVariant lib v
  if norm = [] then idx
  else
    { idx with
      allVariants :=
        if norm ∈ idx.allVariants then idx.allVariants else idx.allVariants ++ [norm]
      variantToCanon := idx.variantToCanon.set norm canonical }

/-- One registered entry. -/
def addEntry (lib : TextLib) (idx : LoadedIndex) (p : LoadedPhrase) : LoadedIndex :=
  p.variants.foldl (addVariant lib p.phrase)
    { idx with phraseToEntry := idx.phraseToEntry.set p.phrase p }

/-- `_build_index_from_registry`. -/
def build (lib : TextLib) (r : LoadedRegistry) : LoadedIndex :=
  r.values.foldl (addEntry lib) empty

end LoadedIndex

end Matcher
end AvaListener
