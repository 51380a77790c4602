import Mathlib.Data.Rat.Defs
import AvaListener.Library.OrderedDict
import AvaListener.Library.PyText

/-!
# The phrase registry

`runtime/matcher/registry/phrase_registry.py`: the immutable phrase descriptor
`PhraseConfig`, its construction from a profile entry, and the insertion-ordered
store of phrases keyed by `phrase_id`.

What `__post_init__` rejects cannot be built: the checks are fields of
`PhraseConfig`.
-/

namespace AvaListener
namespace Matcher

open Library

/-- The string and similarity functions the matcher calls but does not define:
`str.lower`, `jellyfish.jaro_winkler_similarity` (a similarity in `[0, 1]`) and
`rapidfuzz.fuzz.token_set_ratio` (a percentage). -/
structure TextLib where
  lower : Text → Text
  jaroWinklerSimilarity : Text → Text → ℚ
  tokenSetRatio : Text → Text → ℚ

/-- Immutable descriptor for a single wake phrase. -/
structure PhraseConfig where
  phraseId : Text
  phrase : Text
  variants : List Text
  threshold : ℚ
  cooldownMs : ℤ
  enabled : Bool := true
  weight : ℚ := 1
  phraseId_ne_nil : phraseId ≠ []
  phrase_ne_nil : phrase ≠ []
  threshold_pos : 0 < threshold
  threshold_le_one : threshold ≤ 1
  cooldownMs_nonneg : 0 ≤ cooldownMs
  deriving DecidableEq

/-- One element of a profile's `wakePhrases` array, with the defaults of
`from_dict` for the keys that may be absent. -/
structure PhraseEntry where
  phraseId : Text
  phrase : Text
  variants : List Text := []
  threshold : ℚ
  cooldownMs : ℤ := 2000
  enabled : Bool := true
  weight : ℚ := 1
  deriving DecidableEq

/-- The `ValueError`s of `PhraseConfig.__post_init__`, one for each check. -/
inductive PhraseError where
  /-- "PhraseConfig.phrase_id must not be empty" -/
  | emptyPhraseId
  /-- "PhraseConfig.phrase must not be empty" -/
  | emptyPhrase
  /-- "PhraseConfig.threshold must be in (0, 1]; got ..." -/
  | thresholdRange (got : ℚ)
  /-- "PhraseConfig.cooldown_ms must be >= 0; got ..." -/
  | negativeCooldown (got : ℤ)
  deriving DecidableEq

/-- `v.strip().lower()`. -/
def normVariant (lib : TextLib) (v : Text) : Text :=
  lib.lower (strip v)

/-- Normalise raw variants: strip, lower-case, drop empty ones, keep the first
of equal ones. -/
def cleanVariants (lib : TextLib) (raw : List Text) : List Text :=
  raw.foldl (fun clean v =>
    let norm := normVariant lib v
    if norm ≠ [] ∧ norm ∉ clean then clean ++ [norm] else clean) []

/-- `PhraseConfig(...)` followed by `__post_init__`. -/
def PhraseConfig.make (phraseId phrase : Text) (variants : List Text) (threshold : ℚ)
    (cooldownMs : ℤ) (enabled : Bool) (weight : ℚ) : Except PhraseError PhraseConfig :=
  if hid : phraseId = [] then .error .emptyPhraseId
  else if hphrase : phrase = [] then .error .emptyPhrase
  else if hrange : 0 < threshold ∧ threshold ≤ 1 then
    if hcool : 0 ≤ cooldownMs then
      .ok ⟨phraseId, phrase, variants, threshold, cooldownMs, enabled, weight,
        hid, hphrase, hrange.1, hrange.2, hcool⟩
    else .error (.negativeCooldown cooldownMs)
  else .error (.thresholdRange threshold)

/-- `PhraseConfig.from_dict`. -/
def PhraseConfig.fromDict (lib : TextLib) (data : PhraseEntry) :
    Except PhraseError PhraseConfig :=
  PhraseConfig.make data.phraseId (normVariant lib data.phrase) (cleanVariants lib data.variants)
    data.threshold data.cooldownMs data.enabled data.weight

/-- A descriptor that was built carries the entry's threshold and flags
unchanged and the normalised phrase. -/
theorem PhraseConfig.fromDict_eq_ok {lib : TextLib} {data : PhraseEntry} {cfg : PhraseConfig}
    (h : PhraseConfig.fromDict lib data = .ok cfg) :
    cfg.phraseId = data.phraseId ∧ cfg.phrase = normVariant lib data.phrase ∧
      cfg.variants = cleanVariants lib data.variants ∧ cfg.threshold = data.threshold ∧
      cfg.cooldownMs = data.cooldownMs ∧ cfg.enabled = data.enabled ∧
      cfg.weight = data.weight := by
  unfold fromDict make at h
  split at h
  · cases h
  · split at h
    · cases h
    · split at h
      · split at h
        · cases h
          exact ⟨rfl, rfl, rfl, rfl, rfl, rfl, rfl⟩
        · cases h
      · cases h

/-- `PhraseRegistry`: phrases keyed by `phrase_id` in load order. -/
structure PhraseRegistry where
  phrases : Dict Text PhraseConfig
  deriving DecidableEq

namespace PhraseRegistry

/-- The registry is initialised empty. -/
def empty : PhraseRegistry := ⟨Dict.empty⟩

def addPhrase (r : PhraseRegistry) (phrase : PhraseConfig) : PhraseRegistry :=
  ⟨r.phrases.set phrase.phraseId phrase⟩

def removePhrase (r : PhraseRegistry) (phraseId : Text) : PhraseRegistry :=
  ⟨r.phrases.erase phraseId⟩

/-- `replace(self._phrases[phrase_id], enabled=...)`; no-op if not found.
`enable_phrase` and `disable_phrase` are its two uses. -/
def setEnabled (r : PhraseRegistry) (phraseId : Text) (enabled : Bool) : PhraseRegistry :=
  match r.phrases.get? phraseId with
  | some cfg => ⟨r.phrases.set phraseId { cfg with enabled := enabled }⟩
  | none => r

def enablePhrase (r : PhraseRegistry) (phraseId : Text) : PhraseRegistry :=
  r.setEnabled phraseId true

def disablePhrase (r : PhraseRegistry) (phraseId : Text) : PhraseRegistry :=
  r.setEnabled phraseId false

def clear (_ : PhraseRegistry) : PhraseRegistry := empty

/-- Snapshot of all phrases, enabled and disabled. -/
def getAll (r : PhraseRegistry) : List PhraseConfig :=
  r.phrases.values

/-- Snapshot of all enabled phrases. -/
def getActive (r : PhraseRegistry) : List PhraseConfig :=
  r.getAll.filter (·.enabled)

def getById (r : PhraseRegistry) (phraseId : Text) : Option PhraseConfig :=
  r.phrases.get? phraseId

/-- A registered entry of canonical phrase `p` that is currently enabled. -/
def PhraseEnabled (r : PhraseRegistry) (p : Text) : Prop :=
  ∃ cfg ∈ r.getAll, cfg.phrase = p ∧ cfg.enabled = true

instance (r : PhraseRegistry) (p : Text) : Decidable (r.PhraseEnabled p) := by
  unfold PhraseEnabled
  infer_instance

/-- The threshold configured for canonical phrase `p`; of several entries with
one phrase the last registered counts, as in the entry index. -/
def configuredThreshold (r : PhraseRegistry) (p : Text) : Option ℚ :=
  (r.getAll.reverse.find? (·.phrase = p)).map (·.threshold)

theorem mem_getActive {r : PhraseRegistry} {cfg : PhraseConfig} :
    cfg ∈ r.getActive ↔ cfg ∈ r.getAll ∧ cfg.enabled = true :=
  List.mem_filter

/-- A phrase is enabled exactly when it is among the active phrases. -/
theorem phraseEnabled_iff_mem_active (r : PhraseRegistry) (p : Text) :
    r.PhraseEnabled p ↔ p ∈ r.getActive.map (·.phrase) := by
  rw [List.mem_map]
  constructor
  · rintro ⟨cfg, hmem, rfl, henabled⟩
    exact ⟨cfg, mem_getActive.mpr ⟨hmem, henabled⟩, rfl⟩
  · rintro ⟨cfg, hmem, rfl⟩
    exact ⟨cfg, (mem_getActive.mp hmem).1, rfl, (mem_getActive.mp hmem).2⟩

/-- Every registered phrase has a configured threshold. -/
theorem exists_configuredThreshold {r : PhraseRegistry} {p : Text}
    (h : ∃ cfg ∈ r.getAll, cfg.phrase = p) : ∃ t, r.configuredThreshold p = some t := by
  obtain ⟨cfg, hmem, hphrase⟩ := h
  cases hfind : r.getAll.reverse.find? (·.phrase = p) with
  | some found => exact ⟨found.threshold, by simp [configuredThreshold, hfind]⟩
  | none =>
      have hnone := List.find?_eq_none.mp hfind cfg (List.mem_reverse.mpr hmem)
      exact absurd (by simpa using hphrase) hnone

end PhraseRegistry

end Matcher
end AvaListener
