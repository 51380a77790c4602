import AvaListener.Library.Runs
import AvaListener.Matcher.RebuiltIndex
import AvaListener.Matcher.StoredPhrases

/-!
# Whether every stored phrase is well formed

`from_dict` builds well-formed phrases, and each operation of `PhraseRegistry` keeps them so,
with one exception.  `__post_init__` rejects a cool-down with `self.cooldown_ms < 0`, which
`nan` passes: an update can store a cool-down that is not `>= 0`.  `from_dict` is safe, since
`int` refuses `nan`, and so is the test of the threshold, which asks for both bounds.

`nanCooldown` says which operations do this, and `keepsWellFormed_iff` that all others keep
the registry well formed.  Keys and texts are kept by all of them (`formed_finalState`).
-/

namespace AvaListener
namespace Matcher

open Library

variable {lib : TextLib}

/-! ## Well-formed entries -/

/-- A text as `strip().lower()` leaves it, if it is not empty. -/
structure Normalised (lib : TextLib) (s : Text) : Prop where
  ne_nil : s ≠ []
  trimmed : strip s = s
  lowered : lib.lower s = s

/-- The key and the texts of an entry, which `__post_init__` does not check. -/
structure FormedEntry (lib : TextLib) (key : PyKey) (f : PhraseFields) : Prop where
  keyed : f.phraseId.hash = .ok key
  phrase : Normalised lib f.phrase
  variants : ∀ v ∈ f.variants, Normalised lib v
  variants_nodup : f.variants.Nodup

/-- A registered phrase, with the key that it is registered under. -/
structure WellFormedEntry (lib : TextLib) (key : PyKey) (f : PhraseFields) : Prop
    extends FormedEntry lib key f where
  threshold : ∃ q : ℚ, f.threshold.number = .ok (.finite q) ∧ 0 < q ∧ q ≤ 1
  cooldownMs : ∃ x, f.cooldownMs.number = .ok x ∧ x.ge 0 = true

namespace StoredRegistry

/-- Key and texts of every entry are well formed. -/
def Formed (lib : TextLib) (r : StoredRegistry) : Prop :=
  ∀ e ∈ r.entries, FormedEntry lib e.1 e.2.toPhraseFields

/-- Every entry is well formed. -/
def WellFormed (lib : TextLib) (r : StoredRegistry) : Prop :=
  ∀ e ∈ r.entries, WellFormedEntry lib e.1 e.2.toPhraseFields

end StoredRegistry

/-- The value is `nan`. -/
def isNan : PyValue → Bool
  | .float .nan => true
  | _ => false

theorem isNan_iff {v : PyValue} : isNan v = true ↔ v = .float .nan := by
  cases v with
  | float x => cases x <;> simp [isNan]
  | _ => simp [isNan]

theorem isNan_of_number {v : PyValue} {x : PyFloat} (h : v.number = .ok x) :
    isNan v = true ↔ x = .nan := by
  rw [isNan_iff]
  cases v with
  | float y =>
      cases h
      simp
  | bool b =>
      cases h
      simp
  | int n =>
      cases h
      simp
  | _ => cases h

/-- The checks of `__post_init__` do the rest, but for a cool-down that is no number. -/
theorem StoredPhrase.wellFormedEntry_iff {key : PyKey} {p : StoredPhrase} :
    WellFormedEntry lib key p.toPhraseFields ↔
      FormedEntry lib key p.toPhraseFields ∧ isNan p.cooldownMs = false := by
  obtain ⟨-, -, hthreshold, x, hx, hcool⟩ := PhraseFields.postInit_ok_iff.mp p.checked
  rw [← Bool.not_eq_true, isNan_of_number hx]
  constructor
  · intro h
    obtain ⟨y, hy, hge⟩ := h.cooldownMs
    obtain rfl : x = y := Except.ok.inj (hx.symm.trans hy)
    exact ⟨h.toFormedEntry, (PyFloat.ge_iff.mp hge).2⟩
  · rintro ⟨h, hnumber⟩
    exact ⟨h, hthreshold, x, hx, PyFloat.ge_iff.mpr ⟨hcool, hnumber⟩⟩

theorem StoredRegistry.WellFormed.formed {r : StoredRegistry} (h : r.WellFormed lib) :
    r.Formed lib :=
  fun e he => (h e he).toFormedEntry

theorem StoredRegistry.WellFormed.number {r : StoredRegistry} (h : r.WellFormed lib)
    {e : PyKey × StoredPhrase} (he : e ∈ r.entries) : isNan e.2.cooldownMs = false :=
  (StoredPhrase.wellFormedEntry_iff.mp (h e he)).2

theorem NormLaws.normalised (laws : NormLaws lib) {w : Text} (h : normVariant lib w ≠ []) :
    Normalised lib (normVariant lib w) := by
  refine ⟨h, ?_, ?_⟩
  · rw [normVariant, laws.strip_lower, strip_strip]
  · rw [normVariant, laws.lower_lower]

theorem NormLaws.normalised_cleanVariants (laws : NormLaws lib) {raw : List Text} {v : Text}
    (h : v ∈ cleanVariants lib raw) : Normalised lib v := by
  obtain ⟨hne, w, -, rfl⟩ := mem_cleanVariants h
  exact laws.normalised hne

/-! ## What `from_dict` builds -/

theorem StoredPhrase.fromDict_number {numbers : PyNumbers} {data : PyValue} {p : StoredPhrase}
    (h : StoredPhrase.fromDict lib numbers data = .ok p) : isNan p.cooldownMs = false := by
  obtain ⟨loaded, -, rfl⟩ := map_eq_ok_iff.mp h
  rfl

theorem formedEntry_of_fromDict (laws : NormLaws lib) {numbers : PyNumbers} {data : PyValue}
    {p : StoredPhrase} (h : StoredPhrase.fromDict lib numbers data = .ok p) {key : PyKey}
    (hkey : p.phraseId.hash = .ok key) : FormedEntry lib key p.toPhraseFields := by
  obtain ⟨loaded, hloaded, rfl⟩ := map_eq_ok_iff.mp h
  obtain ⟨args, hargs, hmake⟩ := bind_eq_ok_iff.mp (mapError_eq_ok_iff.mp hloaded)
  obtain ⟨items, -, hvariants, -, ⟨s, -, hphrase⟩, -⟩ :=
    PhraseArgs.ofObject_eq_ok (mapError_eq_ok_iff.mp hargs)
  obtain ⟨-, hmadePhrase, hmadeVariants⟩ := LoadedPhrase.make_fields hmake
  obtain ⟨raw, hraw⟩ := variantsOf_eq_ok hvariants
  have hvs : loaded.variants = cleanVariants lib raw := hmadeVariants.trans hraw
  have hnorm : loaded.phrase = normVariant lib s := hmadePhrase.trans hphrase
  refine ⟨hkey, ?_, ?_, ?_⟩
  · show Normalised lib loaded.phrase
    rw [hnorm]
    exact laws.normalised (hnorm ▸ loaded.phrase_ne_nil)
  · intro v hv
    exact laws.normalised_cleanVariants (hvs ▸ hv : v ∈ cleanVariants lib raw)
  · show loaded.variants.Nodup
    rw [hvs]
    exact nodup_cleanVariants lib raw

/-! ## What rewriting a phrase keeps -/

/-- A phrase that replaces another one: the same id and phrase, and clean variants if new. -/
structure Rewrites (lib : TextLib) (p q : StoredPhrase) : Prop where
  phraseId : q.phraseId = p.phraseId
  phrase : q.phrase = p.phrase
  variants : q.variants = p.variants ∨ ∃ raw, q.variants = cleanVariants lib raw

theorem FormedEntry.rewrite (laws : NormLaws lib) {key : PyKey} {p q : StoredPhrase}
    (h : FormedEntry lib key p.toPhraseFields) (hpq : Rewrites lib p q) :
    FormedEntry lib key q.toPhraseFields := by
  refine ⟨hpq.phraseId ▸ h.keyed, hpq.phrase ▸ h.phrase, ?_, ?_⟩
  · rcases hpq.variants with hsame | ⟨raw, hraw⟩
    · exact hsame ▸ h.variants
    · intro v hv
      exact laws.normalised_cleanVariants (hraw ▸ hv)
  · rcases hpq.variants with hsame | ⟨raw, hraw⟩
    · exact hsame ▸ h.variants_nodup
    · exact hraw ▸ nodup_cleanVariants lib raw

theorem StoredRegistry.withEnabled_rewrites {enabled : Bool} {p q : StoredPhrase}
    (h : withEnabled enabled p = .ok q) : Rewrites lib p q := by
  have hfields := PhraseFields.build_eq_ok h
  refine ⟨?_, ?_, Or.inl ?_⟩ <;> rw [hfields]

theorem StoredRegistry.withEnabled_cooldownMs {enabled : Bool} {p q : StoredPhrase}
    (h : withEnabled enabled p = .ok q) : q.cooldownMs = p.cooldownMs := by
  rw [PhraseFields.build_eq_ok h]

theorem StoredPhrase.withUpdates_rewrites {p q : StoredPhrase} {updates : Dict PyKey PyValue}
    (h : p.withUpdates lib updates = .ok q) : Rewrites lib p q := by
  obtain ⟨mapped, hmapped, hbuild⟩ := withUpdates_ok_iff.mp h
  have hgiven := (MappedUpdates.reads_of_ofItems hmapped).variants
  have hfields := PhraseFields.build_eq_ok hbuild
  refine ⟨by rw [hfields]; rfl, by rw [hfields]; rfl, ?_⟩
  rw [hfields]
  cases hvariants : mapped.variants with
  | none => exact Or.inl (by rw [PhraseFields.replace, hvariants]; rfl)
  | some vs =>
      rw [hvariants] at hgiven
      obtain ⟨v, -, hv⟩ := Option.map_eq_some_iff.mp hgiven.symm
      obtain ⟨raw, hraw⟩ := variantsOf_eq_ok hv
      exact Or.inr ⟨raw, by rw [PhraseFields.replace, hvariants]; exact hraw⟩

/-! ## Updates that store `nan` -/

/-- `0.0 < v <= 1.0`, without raising. -/
def inUnitRange (v : PyValue) : Bool :=
  match v.number with
  | .ok x => x.gt 0 && x.le 1
  | .error _ => false

/-- The value gives texts, and nothing else, when iterated. -/
def iteratesTexts (v : PyValue) : Bool :=
  match v.iterate with
  | .ok raw => raw.all fun w => w.text.isOk
  | .error _ => false

/-- The update gives `nan` as the cool-down, and nothing in it raises. -/
def nanUpdate (updates : Dict PyKey PyValue) : Bool :=
  (given .cooldownMs updates.entries).any isNan &&
    (given .threshold updates.entries).all inUnitRange &&
      updates.entries.all fun e => updatedField e.1 ≠ some .variants || iteratesTexts e.2

theorem inUnitRange_iff {v : PyValue} :
    inUnitRange v = true ↔ ∃ q : ℚ, v.number = .ok (.finite q) ∧ 0 < q ∧ q ≤ 1 := by
  unfold inUnitRange
  cases v.number with
  | error e => simp
  | ok x => rw [PyFloat.between_iff]; simp

theorem iteratesTexts_iff {v : PyValue} :
    iteratesTexts v = true ↔ ∃ vs, variantsOf lib v = .ok vs := by
  rw [variantsOf_ok_iff]
  unfold iteratesTexts
  have htext : ∀ w : PyValue, w.text.isOk = true ↔ ∃ s, w = .str s := by
    intro w
    cases w with
    | str s => exact iff_of_true rfl ⟨s, rfl⟩
    | _ => exact iff_of_false Bool.false_ne_true nofun
  cases v.iterate with
  | error e => simp
  | ok raw => simp [htext]

theorem nanUpdate_iff (lib : TextLib) {updates : Dict PyKey PyValue} :
    nanUpdate updates = true ↔
      (∃ v, given .cooldownMs updates.entries = some v ∧ isNan v = true) ∧
        (∀ v, given .threshold updates.entries = some v → inUnitRange v = true) ∧
          ∃ mapped, MappedUpdates.ofItems lib updates.entries = .ok mapped := by
  rw [MappedUpdates.exists_ofItems_eq_ok_iff]
  unfold nanUpdate
  rw [Bool.and_eq_true, Bool.and_eq_true, List.all_eq_true, and_assoc]
  refine and_congr ?_ (and_congr ?_ (forall₂_congr fun e _ => ?_))
  · cases given .cooldownMs updates.entries <;> simp
  · cases given .threshold updates.entries <;> simp
  · rw [← iteratesTexts_iff]
    by_cases hfield : updatedField e.1 = some .variants
    · simp [hfield]
    · simp [hfield]

/-- **An update stores `nan`** exactly when it says so and nothing in it raises. -/
theorem StoredPhrase.withUpdates_nan_iff {p : StoredPhrase} {updates : Dict PyKey PyValue}
    (hp : isNan p.cooldownMs = false) :
    (∃ q, p.withUpdates lib updates = .ok q ∧ isNan q.cooldownMs = true) ↔
      nanUpdate updates = true := by
  rw [nanUpdate_iff lib]
  constructor
  · rintro ⟨q, h, hq⟩
    obtain ⟨mapped, hmapped, hbuild⟩ := withUpdates_ok_iff.mp h
    have hreads := MappedUpdates.reads_of_ofItems hmapped
    obtain ⟨-, -, hthreshold, -⟩ := PhraseFields.postInit_ok_iff.mp q.checked
    rw [PhraseFields.build_eq_ok hbuild] at hq hthreshold
    refine ⟨?_, fun v hv => inUnitRange_iff.mpr ?_, mapped, hmapped⟩
    · -- The cool-down that was stored before is a number: the `nan` comes from the update.
      rw [PhraseFields.replace, hreads.cooldownMs] at hq
      cases hgiven : given .cooldownMs updates.entries with
      | none =>
          rw [hgiven, Option.getD_none, hp] at hq
          cases hq
      | some v => exact ⟨v, rfl, by rwa [hgiven] at hq⟩
    · rwa [PhraseFields.replace, hreads.threshold, hv] at hthreshold
  · rintro ⟨⟨v, hv, hvnan⟩, hrange, mapped, hmapped⟩
    obtain ⟨hid, hphrase, hthreshold, -⟩ := PhraseFields.postInit_ok_iff.mp p.checked
    have hreads := MappedUpdates.reads_of_ofItems hmapped
    have hcooldown : (p.replace mapped).cooldownMs = v := by
      rw [PhraseFields.replace, hreads.cooldownMs, hv, Option.getD_some]
    -- `nan` is a number to `<`, and not below zero.
    have hpasses : (p.replace mapped).postInit = .ok () := by
      refine PhraseFields.postInit_ok_iff.mpr ⟨hid, hphrase, ?_, .nan, ?_, rfl⟩
      · rw [PhraseFields.replace, hreads.threshold]
        cases hgiven : given .threshold updates.entries with
        | none => exact hthreshold
        | some t => exact inUnitRange_iff.mp (hrange t hgiven)
      · rw [hcooldown, isNan_iff.mp hvnan]
        rfl
    refine ⟨⟨p.replace mapped, hpasses⟩, ?_, hcooldown ▸ hvnan⟩
    exact withUpdates_ok_iff.mpr ⟨mapped, hmapped, PhraseFields.build_of_postInit hpasses⟩

/-! ## Operations -/

namespace StoredRegistry

/-- The id is registered. -/
def registers (r : StoredRegistry) (phraseId : PyValue) : Bool :=
  match phraseId.hash with
  | .ok key => (r.get? key).isSome
  | .error _ => false

/-- The operation gives a registered phrase the cool-down `nan`. -/
def nanCooldown (r : StoredRegistry) : RegistryCall → Bool
  | .updatePhrase phraseId updates => r.registers phraseId && nanUpdate updates
  | _ => false

/-- What an operation is to keep: every entry well formed, and the whole registry where it
raises. -/
structure KeepsWellFormed (lib : TextLib) (numbers : PyNumbers) (r : StoredRegistry)
    (c : RegistryCall) : Prop where
  wellFormed : (r.call lib numbers c).1.WellFormed lib
  unchanged : ∀ e, (r.call lib numbers c).2 = .error e → (r.call lib numbers c).1 = r

theorem rewritten_eq_some {r : StoredRegistry} {phraseId : PyValue}
    {f : StoredPhrase → Except PhraseCheckError StoredPhrase} {e : PyKey × StoredPhrase} :
    r.rewritten phraseId f = some e ↔
      ∃ key p q, phraseId.hash = .ok key ∧ r.get? key = some p ∧ f p = .ok q ∧ e = (key, q) := by
  unfold rewritten
  simp only [Option.bind_eq_bind, Option.bind_eq_some_iff, toOption_eq_some_iff, Option.pure_def,
    Option.some.injEq]
  constructor
  · rintro ⟨key, hkey, p, hp, q, hq, rfl⟩
    exact ⟨key, p, q, hkey, hp, hq, rfl⟩
  · rintro ⟨key, p, q, hkey, hp, hq, rfl⟩
    exact ⟨key, hkey, p, hp, q, hq, rfl⟩

theorem added_eq_some {phrase : StoredPhrase} {e : PyKey × StoredPhrase} :
    added phrase = some e ↔ phrase.phraseId.hash = .ok e.1 ∧ e.2 = phrase := by
  unfold added
  simp only [Option.bind_eq_bind, Option.bind_eq_some_iff, toOption_eq_some_iff, Option.pure_def,
    Option.some.injEq]
  constructor
  · rintro ⟨key, hkey, rfl⟩
    exact ⟨hkey, rfl⟩
  · rintro ⟨hkey, rfl⟩
    exact ⟨e.1, hkey, rfl⟩

theorem registers_iff {r : StoredRegistry} {phraseId : PyValue} :
    r.registers phraseId = true ↔ ∃ key, phraseId.hash = .ok key ∧ ∃ p, r.get? key = some p := by
  unfold registers
  cases phraseId.hash with
  | error e => simp
  | ok key => simp [Option.isSome_iff_exists]

theorem formedEntry_rewritten (laws : NormLaws lib) {r : StoredRegistry} (hr : r.Formed lib)
    {phraseId : PyValue} {f : StoredPhrase → Except PhraseCheckError StoredPhrase}
    (hf : ∀ p q, f p = .ok q → Rewrites lib p q)
    {e : PyKey × StoredPhrase} (he : r.rewritten phraseId f = some e) :
    FormedEntry lib e.1 e.2.toPhraseFields := by
  obtain ⟨key, p, q, -, hget, hq, rfl⟩ := rewritten_eq_some.mp he
  exact (hr _ (Dict.get?_eq_some_iff.mp hget)).rewrite laws (hf p q hq)

/-- **Key and texts of the entry that an operation assigns are well formed.** -/
theorem formedEntry_stored (laws : NormLaws lib) {numbers : PyNumbers} {r : StoredRegistry}
    (hr : r.Formed lib) {c : RegistryCall} {e : PyKey × StoredPhrase}
    (he : r.stored lib numbers c = some e) : FormedEntry lib e.1 e.2.toPhraseFields := by
  cases c with
  | addPhrase data =>
      obtain ⟨phrase, hphrase, hadded⟩ := Option.bind_eq_some_iff.mp he
      obtain ⟨hkey, heq⟩ := added_eq_some.mp hadded
      rw [heq]
      exact formedEntry_of_fromDict laws (toOption_eq_some_iff.mp hphrase) hkey
  | enablePhrase phraseId =>
      exact formedEntry_rewritten laws hr (fun _ _ => withEnabled_rewrites) he
  | disablePhrase phraseId =>
      exact formedEntry_rewritten laws hr (fun _ _ => withEnabled_rewrites) he
  | updatePhrase phraseId updates =>
      exact formedEntry_rewritten laws hr (fun _ _ => StoredPhrase.withUpdates_rewrites) he
  | _ => cases he

theorem formed_call (laws : NormLaws lib) {numbers : PyNumbers} {r : StoredRegistry}
    (hr : r.Formed lib) (c : RegistryCall) : (r.call lib numbers c).1.Formed lib := by
  intro e he
  rcases (assigns_call lib numbers r c).others e he with hstored | hold
  · exact formedEntry_stored laws hr hstored
  · exact hr e hold

/-- **In every run** every entry is keyed by its id and has normal forms as phrase and
variants, without repetition. -/
theorem formed_finalState (laws : NormLaws lib) (numbers : PyNumbers)
    (calls : List RegistryCall) : (finalState (call lib numbers) Dict.empty calls).Formed lib :=
  finalState_invariant (call lib numbers) (Formed lib) calls
    (fun _ he => absurd he List.not_mem_nil) fun _ c _ hr => formed_call laws hr c

/-- The cool-down that an operation stores is a number, unless the operation says `nan`. -/
theorem number_stored {numbers : PyNumbers} {r : StoredRegistry}
    (hr : ∀ e ∈ r.entries, isNan e.2.cooldownMs = false) {c : RegistryCall}
    (hc : r.nanCooldown c = false) {e : PyKey × StoredPhrase}
    (he : r.stored lib numbers c = some e) : isNan e.2.cooldownMs = false := by
  have henabled : ∀ (enabled : Bool) (phraseId : PyValue),
      r.rewritten phraseId (withEnabled enabled) = some e → isNan e.2.cooldownMs = false := by
    intro enabled phraseId h
    obtain ⟨key, p, q, -, hget, hq, rfl⟩ := rewritten_eq_some.mp h
    rw [withEnabled_cooldownMs hq]
    exact hr _ (Dict.get?_eq_some_iff.mp hget)
  cases c with
  | addPhrase data =>
      obtain ⟨phrase, hphrase, hadded⟩ := Option.bind_eq_some_iff.mp he
      rw [(added_eq_some.mp hadded).2]
      exact StoredPhrase.fromDict_number (toOption_eq_some_iff.mp hphrase)
  | enablePhrase phraseId => exact henabled true phraseId he
  | disablePhrase phraseId => exact henabled false phraseId he
  | updatePhrase phraseId updates =>
      obtain ⟨key, p, q, hkey, hget, hq, rfl⟩ := rewritten_eq_some.mp he
      have hp := hr _ (Dict.get?_eq_some_iff.mp hget)
      -- The id is registered, so the update is one that stores no `nan`.
      rw [nanCooldown, registers_iff.mpr ⟨key, hkey, p, hget⟩, Bool.true_and] at hc
      rw [← Bool.not_eq_true]
      intro hnan
      have hmiss := (StoredPhrase.withUpdates_nan_iff hp).mp ⟨q, hq, hnan⟩
      exact Bool.false_ne_true (hc.symm.trans hmiss)
  | _ => cases he

/-- **Step lemma.** -/
theorem keepsWellFormed_of_number (laws : NormLaws lib) (numbers : PyNumbers)
    {r : StoredRegistry} (hr : r.WellFormed lib) {c : RegistryCall}
    (hc : r.nanCooldown c = false) : r.KeepsWellFormed lib numbers c := by
  have hcall := assigns_call lib numbers r c
  refine ⟨fun e he => ?_, hcall.raised⟩
  refine StoredPhrase.wellFormedEntry_iff.mpr ⟨formed_call laws hr.formed c e he, ?_⟩
  rcases hcall.others e he with hstored | hold
  · exact number_stored (fun _ => hr.number) hc hstored
  · exact hr.number hold

/-- An update that gives a registered phrase the cool-down `nan` stores it. -/
theorem not_keepsWellFormed_of_nan {numbers : PyNumbers} {r : StoredRegistry}
    (hr : r.WellFormed lib) {c : RegistryCall} (hc : r.nanCooldown c = true) :
    ¬ r.KeepsWellFormed lib numbers c := by
  intro h
  cases c with
  | updatePhrase phraseId updates =>
      obtain ⟨hregisters, hupdate⟩ := Bool.and_eq_true_iff.mp hc
      obtain ⟨key, hkey, p, hget⟩ := registers_iff.mp hregisters
      have hp := hr.number (Dict.get?_eq_some_iff.mp hget)
      obtain ⟨q, hq, hnan⟩ := (StoredPhrase.withUpdates_nan_iff hp).mpr hupdate
      have hstored : r.stored lib numbers (.updatePhrase phraseId updates) = some (key, q) :=
        rewritten_eq_some.mpr ⟨key, p, q, hkey, hget, hq, rfl⟩
      have hmem := (assigns_call lib numbers r (.updatePhrase phraseId updates)).assigned _ hstored
      exact Bool.false_ne_true ((h.wellFormed.number hmem).symm.trans hnan)
  | _ => cases hc

/-- **Exactly when the registry keeps its phrases well formed.**  In every sequence of
operations on an empty registry each operation keeps every entry well formed, and changes
nothing where it raises, if and only if none gives a registered phrase the cool-down
`nan`. -/
theorem keepsWellFormed_iff (laws : NormLaws lib) (numbers : PyNumbers)
    (calls : List RegistryCall) :
    (∀ v ∈ visits (call lib numbers) Dict.empty calls, v.1.KeepsWellFormed lib numbers v.2) ↔
      ∀ v ∈ visits (call lib numbers) Dict.empty calls, v.1.nanCooldown v.2 = false := by
  have hstart : WellFormed lib Dict.empty := fun _ he => absurd he List.not_mem_nil
  have hmeets : ∀ r c, WellFormed lib r → nanCooldown r c = false →
      KeepsWellFormed lib numbers r c ∧ WellFormed lib (call lib numbers r c).1 := by
    intro r c hr hc
    have hkeeps := keepsWellFormed_of_number laws numbers hr hc
    exact ⟨hkeeps, hkeeps.wellFormed⟩
  have hmisses : ∀ r c, WellFormed lib r → ¬ nanCooldown r c = false →
      ¬ KeepsWellFormed lib numbers r c := by
    intro r c hr hc
    rw [Bool.not_eq_false] at hc
    exact not_keepsWellFormed_of_nan hr hc
  exact forall_visits_iff (call lib numbers) (WellFormed lib) calls hstart hmeets hmisses

/-- A phrase of a profile, with a variant given twice. -/
def corePhrase : PyValue :=
  .dict [(phraseIdKey, .str "core".toList), (phraseKey, .str " Hey Ava".toList),
    (variantsKey, .list [.str "Ava".toList, .str "ava ".toList]),
    (thresholdKey, .float (.finite 0.7))]

/-- The update with a single item. -/
def updateOf (key : Text) (v : PyValue) : Dict PyKey PyValue :=
  Dict.empty.set (.str key) v

/-- A cool-down under its other name, then variants of which the second is no text. -/
def halfBadCalls : List RegistryCall :=
  [.addPhrase corePhrase,
    .updatePhrase (.str "core".toList) (updateOf "cooldown_ms".toList (.int 500)),
    .updatePhrase (.str "core".toList)
      (updateOf variantsKey (.list [.str "Eva".toList, .int 3])),
    .disablePhrase (.str "core".toList)]

theorem halfBadCalls_keepWellFormed :
    ((trace (call AsciiText.lib .exact) Dict.empty halfBadCalls).map fun a => a.2.isOk) =
        [true, true, false, true] ∧
      ∀ v ∈ visits (call AsciiText.lib .exact) Dict.empty halfBadCalls,
        v.1.KeepsWellFormed AsciiText.lib .exact v.2 :=
  ⟨by decide +kernel,
    (keepsWellFormed_iff AsciiText.lib_normLaws .exact halfBadCalls).mpr (by decide +kernel)⟩

/-- The cool-down is set to `nan`. -/
def nanCalls : List RegistryCall :=
  [.addPhrase corePhrase,
    .updatePhrase (.str "core".toList) (updateOf "cooldown_ms".toList (.float .nan))]

theorem nanCalls_not_keepWellFormed :
    ¬ ∀ v ∈ visits (call AsciiText.lib .exact) Dict.empty nanCalls,
      v.1.KeepsWellFormed AsciiText.lib .exact v.2 := by
  intro h
  have hlast := (h _ (List.mem_cons_of_mem _ (List.mem_cons_self ..))).wellFormed
  have hnan : (finalState (call AsciiText.lib .exact) Dict.empty nanCalls).entries.any
      (fun e => isNan e.2.cooldownMs) = true := by decide +kernel
  obtain ⟨e, he, hcooldown⟩ := List.any_eq_true.mp hnan
  exact Bool.false_ne_true ((hlast.number he).symm.trans hcooldown)

end StoredRegistry

end Matcher
end AvaListener
