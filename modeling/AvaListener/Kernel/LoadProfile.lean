import AvaListener.Config.ProfileLoader
import AvaListener.Matcher.AsciiText
import AvaListener.Matcher.PhraseObjects

/-!
# Loading a profile

`WakeEngine.load_profile` of `runtime/kernel/orchestrator.py` on the three stores it
writes: the engine's active profile, the phrase registry and the variant index.

The new phrases are all built before the registry is touched, but the active
profile is assigned before they are built, and an id that cannot be hashed is only
noticed when the registry has been cleared.  `loadProfile_atomic_iff` says when the
call is all or nothing.
-/

namespace AvaListener
namespace Kernel

open Library Config Matcher

/-- What `load_profile` raises. -/
inductive LoadError where
  | profile (e : ProfileError)
  | phrase (e : PhraseObjectError)
  | raised (e : PyError)

/-- The engine's `_active_profile` with the two module-level stores. -/
structure ProfileStores where
  activeProfile : Profile
  registry : LoadedRegistry
  index : LoadedIndex

/-- Before anything is loaded. -/
def ProfileStores.empty : ProfileStores := ⟨Dict.empty, Dict.empty, LoadedIndex.empty⟩

/-- What a load reads and calls besides its arguments. -/
structure LoadEnv where
  os : OsPath
  files : ProfileFiles
  lib : TextLib
  numbers : PyNumbers

/-- The list `new_phrases`. -/
def LoadEnv.newPhrases (env : LoadEnv) (profile : Profile) : Except LoadError (List LoadedPhrase) := do
  let wakePhrases ← profile.wakePhrases.iterate.mapError LoadError.raised
  (wakePhrases.mapM (LoadedPhrase.fromDict env.lib env.numbers)).mapError .phrase

/-- `WakeEngine.load_profile`: how it ends, and the stores it leaves. -/
def ProfileStores.loadProfile (env : LoadEnv) (s : ProfileStores) (path : Text)
    (debugOverlay : Bool) : Except LoadError Unit × ProfileStores :=
  match Config.loadProfile env.os env.files path debugOverlay with
  | .error e => (.error (.profile e), s)
  | .ok profile =>
      -- Assigned before anything that may still raise.
      let s := { s with activeProfile := profile }
      match env.newPhrases profile with
      | .error e => (.error e, s)
      | .ok newPhrases =>
          match LoadedRegistry.addAll Dict.empty newPhrases with
          -- The registry has been cleared and partly refilled; the index is the old one.
          | (registry, .error e) => (.error (.raised e), { s with registry := registry })
          | (registry, .ok ()) =>
              (.ok (), { s with registry := registry, index := LoadedIndex.build env.lib registry })

variable (env : LoadEnv)

/-- All three stores reflect the profile at the path, and the registry holds exactly
its `wakePhrases`. -/
def Reflects (path : Text) (debugOverlay : Bool) (s : ProfileStores) : Prop :=
  ∃ profile newPhrases,
    Config.loadProfile env.os env.files path debugOverlay = .ok profile ∧
    env.newPhrases profile = .ok newPhrases ∧
    s.activeProfile = profile ∧ s.registry.values = newPhrases ∧
    s.index = LoadedIndex.build env.lib s.registry

/-- The call is atomic: when it raises the stores are as before, and when it
returns they reflect the profile. -/
structure LoadAtomic (s : ProfileStores) (path : Text) (debugOverlay : Bool) : Prop where
  raises : ∀ e s', s.loadProfile env path debugOverlay = (.error e, s') → s' = s
  returns : ∀ s', s.loadProfile env path debugOverlay = (.ok (), s') →
    Reflects env path debugOverlay s'

/-- The ids of the phrases are distinct keys. -/
def DistinctIds (phrases : List LoadedPhrase) : Prop :=
  (∀ p ∈ phrases, p.phraseId.hashable = true) ∧ ((keyedPhrases phrases).map Prod.fst).Nodup

/-- Either reading the profile raises, or all its phrases are valid and have distinct
ids, or what the call assigns before it fails is what the stores held already. -/
def NothingLeftBehind (s : ProfileStores) (path : Text) (debugOverlay : Bool) : Prop :=
  match Config.loadProfile env.os env.files path debugOverlay with
  | .error _ => True
  | .ok profile =>
      match env.newPhrases profile with
      | .error _ => s.activeProfile = profile
      | .ok phrases =>
          DistinctIds phrases ∨
            (∃ p ∈ phrases, p.phraseId.hashable = false) ∧ s.activeProfile = profile ∧
              s.registry = Dict.empty.setAll (keyedPhrases phrases)

variable {env} {s : ProfileStores} {path : Text} {debugOverlay : Bool}

/-- A profile that cannot be read changes nothing. -/
theorem loadAtomic_of_unreadable {e : ProfileError}
    (h : Config.loadProfile env.os env.files path debugOverlay = .error e) :
    LoadAtomic env s path debugOverlay := by
  have hload : s.loadProfile env path debugOverlay = (.error (.profile e), s) := by
    rw [ProfileStores.loadProfile, h]
  constructor
  · intro e' s' h'
    rw [hload] at h'
    exact (Prod.mk.inj h').2.symm
  · intro s' h'
    rw [hload] at h'
    cases h'

section Readable

variable {profile : Profile}
  (hprofile : Config.loadProfile env.os env.files path debugOverlay = .ok profile)
include hprofile

/-- A phrase that fails its validation leaves the new active profile behind. -/
theorem loadAtomic_iff_of_invalid {e : LoadError} (h : env.newPhrases profile = .error e) :
    LoadAtomic env s path debugOverlay ↔ s.activeProfile = profile := by
  have hload : s.loadProfile env path debugOverlay =
      (.error e, { s with activeProfile := profile }) := by
    rw [ProfileStores.loadProfile, hprofile]
    simp only [h]
  constructor
  · intro hatomic
    have hs := hatomic.raises e _ hload
    exact (congrArg ProfileStores.activeProfile hs).symm
  · rintro rfl
    constructor
    · intro e' s' h'
      rw [hload] at h'
      exact (Prod.mk.inj h').2.symm
    · intro s' h'
      rw [hload] at h'
      cases h'

/-- An id that is no key leaves the phrases before it behind. -/
theorem loadAtomic_iff_of_unhashable {phrases : List LoadedPhrase}
    (h : env.newPhrases profile = .ok phrases)
    (hid : ∃ p ∈ phrases, p.phraseId.hashable = false) :
    LoadAtomic env s path debugOverlay ↔
      s.activeProfile = profile ∧ s.registry = Dict.empty.setAll (keyedPhrases phrases) := by
  have hnot : ¬∀ p ∈ phrases, p.phraseId.hashable = true := by
    obtain ⟨p, hp, hfalse⟩ := hid
    intro hall
    rw [hall p hp] at hfalse
    cases hfalse
  have hload : s.loadProfile env path debugOverlay = (.error (.raised .typeError),
      { s with activeProfile := profile, registry := Dict.empty.setAll (keyedPhrases phrases) }) := by
    rw [ProfileStores.loadProfile, hprofile]
    simp only [h, LoadedRegistry.addAll_eq, if_neg hnot]
  constructor
  · intro hatomic
    have hs := hatomic.raises _ _ hload
    exact ⟨(congrArg ProfileStores.activeProfile hs).symm,
      (congrArg ProfileStores.registry hs).symm⟩
  · rintro ⟨rfl, hregistry⟩
    rw [← hregistry] at hload
    constructor
    · intro e' s' h'
      rw [hload] at h'
      exact (Prod.mk.inj h').2.symm
    · intro s' h'
      rw [hload] at h'
      cases h'

/-- A load that succeeds replaces all three stores. -/
theorem loadProfile_of_hashable {phrases : List LoadedPhrase}
    (h : env.newPhrases profile = .ok phrases)
    (hid : ∀ p ∈ phrases, p.phraseId.hashable = true) :
    s.loadProfile env path debugOverlay = (.ok (), {
      activeProfile := profile
      registry := Dict.empty.setAll (keyedPhrases phrases)
      index := LoadedIndex.build env.lib (Dict.empty.setAll (keyedPhrases phrases)) }) := by
  rw [ProfileStores.loadProfile, hprofile]
  simp only [h, LoadedRegistry.addAll_eq, if_pos hid]

/-- A load that returns keeps all the phrases exactly when their ids are distinct. -/
theorem loadAtomic_iff_of_hashable {phrases : List LoadedPhrase}
    (h : env.newPhrases profile = .ok phrases)
    (hid : ∀ p ∈ phrases, p.phraseId.hashable = true) :
    LoadAtomic env s path debugOverlay ↔ ((keyedPhrases phrases).map Prod.fst).Nodup := by
  have hload := loadProfile_of_hashable (s := s) hprofile h hid
  rw [← Dict.values_setAll_empty_iff, keyedPhrases_snd hid]
  constructor
  · intro hatomic
    obtain ⟨profile', phrases', hprofile', hphrases', -, hvalues, -⟩ := hatomic.returns _ hload
    cases hprofile.symm.trans hprofile'
    cases h.symm.trans hphrases'
    exact hvalues
  · intro hvalues
    constructor
    · intro e' s' h'
      rw [hload] at h'
      cases h'
    · intro s' h'
      rw [hload] at h'
      cases h'
      exact ⟨profile, phrases, hprofile, h, rfl, hvalues, rfl⟩

end Readable

/-- **When loading a profile is all or nothing.** -/
theorem loadProfile_atomic_iff (env : LoadEnv) (s : ProfileStores) (path : Text)
    (debugOverlay : Bool) :
    LoadAtomic env s path debugOverlay ↔ NothingLeftBehind env s path debugOverlay := by
  unfold NothingLeftBehind
  cases hprofile : Config.loadProfile env.os env.files path debugOverlay with
  | error e => exact iff_of_true (loadAtomic_of_unreadable hprofile) trivial
  | ok profile =>
      cases hphrases : env.newPhrases profile with
      | error e =>
          simp only [hphrases]
          exact loadAtomic_iff_of_invalid hprofile hphrases
      | ok phrases =>
          simp only [hphrases]
          by_cases hid : ∀ p ∈ phrases, p.phraseId.hashable = true
          -- With all ids hashable the call returns, and only repeated ids can lose a phrase.
          · have hno : ¬∃ p ∈ phrases, p.phraseId.hashable = false := by
              rintro ⟨p, hp, hfalse⟩
              rw [hid p hp] at hfalse
              cases hfalse
            rw [loadAtomic_iff_of_hashable hprofile hphrases hid]
            exact ⟨fun h => Or.inl ⟨hid, h⟩, fun h => h.elim And.right fun h => absurd h.1 hno⟩
          · have hsome : ∃ p ∈ phrases, p.phraseId.hashable = false := by simpa using hid
            rw [loadAtomic_iff_of_unhashable hprofile hphrases hsome]
            exact ⟨fun h => Or.inr ⟨hsome, h⟩, fun h => h.elim (fun h => absurd h.1 hid) And.right⟩

/-- One profile file in an otherwise empty file system. -/
def LoadEnv.single (path : Text) (profile : PyValue) : LoadEnv :=
  ⟨.normal, Dict.empty.set path (some profile), AsciiText.lib, .exact⟩

/-- A profile whose only phrase has a threshold above one. -/
def overconfidentProfile : PyValue :=
  .dict [(profileVersionKey, .int 2), (wakePhrasesKey, .list [.dict [
    (phraseIdKey, .str "core".toList), (phraseKey, .str "hey ava".toList),
    (thresholdKey, .float (.finite 2))]])]

/-- The call raises, and the engine keeps the rejected profile as the active one. -/
theorem not_loadAtomic_overconfident :
    ¬LoadAtomic (.single "/p.json".toList overconfidentProfile) .empty "/p.json".toList false := by
  let after := ProfileStores.empty.loadProfile (.single "/p.json".toList overconfidentProfile)
    "/p.json".toList false
  have herror : after.1 = .error (.phrase (.thresholdRange (.finite 2))) := rfl
  have hactive : after.2.activeProfile.keys = [profileVersionKey, wakePhrasesKey] := rfl
  intro hatomic
  have hs : after.2 = .empty := hatomic.raises _ _ (Prod.ext herror rfl)
  rw [hs] at hactive
  cases hactive

end Kernel
end AvaListener
