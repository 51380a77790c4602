import Mathlib.Tactic.FinCases
import AvaListener.Matcher.StableHypotheses

/-!
# Hearing the canonical phrase itself

A window that holds a configured phrase and nothing else.  The phrase has the
best fuzzy signal against itself, so the scoring loop never drops it; whether
the window gets that far is decided by the registered variants, which need not
list the phrase.

`RecognisedBy` is the test of one variant on a phrase that is repeated by its
stability, with the repetitions counted out.  Where a later entry has taken the
place of the phrase's own, other entries may answer for it (`AnsweredByEntry`).
-/

namespace AvaListener
namespace Matcher

open Library Config

/-- What else the matcher relies on of `str.lower` and `token_set_ratio`. -/
structure CasingLaws (lib : TextLib) : Prop extends TokenSetLaws lib where
  lower_lower : ∀ s : Text, lib.lower (lib.lower s) = lib.lower s
  /-- No word is lowered to nothing or to white space. -/
  split_lower_ne_nil : ∀ {s : Text}, split s ≠ [] → split (lib.lower s) ≠ []
  /-- Equal token sets, not empty, are a match of 100 percent. -/
  tokenSetRatio_same : ∀ {a b : Text}, SameTokens a b → split a ≠ [] →
    lib.tokenSetRatio a b = 100

variable {lib : TextLib}

/-! ## Casing and stripping -/

theorem split_lower_append_of_space (laws : TokenSetLaws lib) {lead : Text} (s : Text)
    (h : ∀ c ∈ lead, isSpace c = true) : split (lib.lower (lead ++ s)) = split (lib.lower s) := by
  induction lead with
  | nil => rfl
  | cons c lead ih =>
      obtain ⟨hc, hlead⟩ := List.forall_mem_cons.mp h
      have hlower : lib.lower (c :: (lead ++ s)) = c :: lib.lower (lead ++ s) := by
        simpa [laws.lower_nil] using laws.lower_append_cons hc [] (lead ++ s)
      have hsplit : split (c :: lib.lower (lead ++ s)) = split (lib.lower (lead ++ s)) := by
        simpa using split_append_cons hc [] (lib.lower (lead ++ s))
      rw [List.cons_append, hlower, hsplit, ih hlead]

theorem split_lower_append_of_space_right (laws : TokenSetLaws lib) (s : Text) {trail : Text}
    (h : ∀ c ∈ trail, isSpace c = true) :
    split (lib.lower (s ++ trail)) = split (lib.lower s) := by
  cases trail with
  | nil => rw [List.append_nil]
  | cons c trail =>
      obtain ⟨hc, htrail⟩ := List.forall_mem_cons.mp h
      have hnone : split (lib.lower trail) = [] := by
        have hspace := split_lower_append_of_space laws [] htrail
        rwa [List.append_nil, laws.lower_nil, split_nil] at hspace
      rw [laws.lower_append_cons hc, split_append_cons hc, hnone, List.append_nil]

/-- Stripping leaves the lowered words as they are. -/
theorem split_lower_strip (laws : TokenSetLaws lib) (s : Text) :
    split (lib.lower (strip s)) = split (lib.lower s) := by
  obtain ⟨lead, trail, hs, hlead, htrail⟩ := exists_eq_append_strip s
  calc
    split (lib.lower (strip s)) = split (lib.lower (strip s ++ trail)) :=
      (split_lower_append_of_space_right laws _ htrail).symm
    _ = split (lib.lower (lead ++ (strip s ++ trail))) :=
      (split_lower_append_of_space laws _ hlead).symm
    _ = split (lib.lower s) := by rw [← List.append_assoc, ← hs]

/-- The words of a raw phrase and of its normal form. -/
theorem split_lower_normVariant (laws : CasingLaws lib) (s : Text) :
    split (lib.lower (normVariant lib s)) = split (lib.lower s) := by
  rw [normVariant, laws.lower_lower, split_lower_strip laws.toTokenSetLaws]

/-- A phrase that is not empty once normalised has a word. -/
theorem split_lower_ne_nil_of_normVariant (laws : CasingLaws lib) {s : Text}
    (h : normVariant lib s ≠ []) : split (lib.lower s) ≠ [] := by
  have hstrip : strip s ≠ [] := by
    intro hnil
    rw [normVariant, hnil, laws.lower_nil] at h
    exact h rfl
  rw [← split_lower_strip laws.toTokenSetLaws]
  exact laws.split_lower_ne_nil (split_strip_ne_nil hstrip)

/-! ## The anchor gate on one repeated phrase -/

/-- One variant against so many copies of a phrase: a word of the phrase is close
to the variant, or a variant of several words occurs in the copies and is about
as long as all of them together. -/
def RecognisedBy (lib : TextLib) (phrase : Text) (stability : ℕ) (variant : Text) : Prop :=
  let copies := stabilityWeight stability
  let words := split (lib.lower phrase)
  let v := removeSpaces variant
  (∃ w ∈ words, gap w.length v.length ≤ 2 ∧
      (occursIn v w = true ∨ occursIn w v = true ∨
        jaroThreshold ≤ lib.jaroWinklerSimilarity w v)) ∨
    ' ' ∈ variant ∧
      (gap (copies * words.length) (split variant).length ≤ 2 ∧
          occursIn variant (join [' '] (List.replicate copies (lib.lower phrase))) = true ∨
        gap (copies * words.flatten.length) v.length ≤ 3 ∧
          occursIn v (List.replicate copies words.flatten).flatten = true)

instance (phrase : Text) (stability : ℕ) (variant : Text) :
    Decidable (RecognisedBy lib phrase stability variant) := by
  unfold RecognisedBy
  infer_instance

theorem lower_buildWeightedText_single (laws : CasingLaws lib) (phrase : Text) (stability : ℕ) :
    lib.lower (buildWeightedText lib [⟨phrase, stability⟩]) =
      join [' '] (List.replicate (stabilityWeight stability) (lib.lower phrase)) := by
  rw [buildWeightedText, laws.lower_lower, List.flatMap_singleton, laws.lower_join,
    List.map_replicate]

theorem split_copies (copies : ℕ) (text : Text) :
    split (join [' '] (List.replicate copies text)) =
      (List.replicate copies (split text)).flatten := by
  rw [split_join, List.flatMap_def, List.map_replicate]

theorem length_flatten_copies {α : Type} (copies : ℕ) (l : List α) :
    (List.replicate copies l).flatten.length = copies * l.length := by
  simp

theorem flatten_flatten_copies (copies : ℕ) (words : List Text) :
    (List.replicate copies words).flatten.flatten =
      (List.replicate copies words.flatten).flatten := by
  induction copies with
  | zero => rfl
  | succ copies ih =>
      rw [List.replicate_succ, List.flatten_cons, List.flatten_append, ih, List.replicate_succ,
        List.flatten_cons]

theorem phraseMatches_single_iff (laws : CasingLaws lib) (phrase variant : Text)
    (stability : ℕ) :
    phraseMatches lib (buildWeightedText lib [⟨phrase, stability⟩]) variant = true ↔
      ' ' ∈ variant ∧
        (gap (stabilityWeight stability * (split (lib.lower phrase)).length)
              (split variant).length ≤ 2 ∧
            occursIn variant (join [' ']
              (List.replicate (stabilityWeight stability) (lib.lower phrase))) = true ∨
          gap (stabilityWeight stability * (split (lib.lower phrase)).flatten.length)
              (removeSpaces variant).length ≤ 3 ∧
            occursIn (removeSpaces variant)
              (List.replicate (stabilityWeight stability)
                (split (lib.lower phrase)).flatten).flatten = true) := by
  simp only [phraseMatches, lower_buildWeightedText_single laws, split_copies,
    flatten_flatten_copies, length_flatten_copies, decide_eq_true_eq]

/-- A word of the text is a word of the phrase, and holds no blank to strip. -/
theorem wordMatches_single_iff (laws : CasingLaws lib) (phrase variant : Text)
    (stability : ℕ) :
    wordMatches lib (buildWeightedText lib [⟨phrase, stability⟩]) variant = true ↔
      ∃ w ∈ split (lib.lower phrase), gap w.length (removeSpaces variant).length ≤ 2 ∧
        (occursIn (removeSpaces variant) w = true ∨ occursIn w (removeSpaces variant) = true ∨
          jaroThreshold ≤ lib.jaroWinklerSimilarity w (removeSpaces variant)) := by
  have hwords : ∀ w, w ∈ split (lib.lower (buildWeightedText lib [⟨phrase, stability⟩])) ↔
      w ∈ split (lib.lower phrase) := by
    intro w
    rw [mem_split_lower_buildWeightedText laws.toTokenSetLaws]
    simp [laws.lower_lower]
  simp only [wordMatches, List.any_eq_true, hwords, decide_eq_true_eq, Bool.or_eq_true]
  refine exists_congr fun w => and_congr_right fun hw => ?_
  rw [removeSpaces_of_mem_split hw]
  constructor
  · rintro (⟨hv | hv, hgap⟩ | ⟨hgap, hjaro⟩)
    · exact ⟨hgap, Or.inl hv⟩
    · exact ⟨hgap, Or.inr (Or.inl hv)⟩
    · exact ⟨hgap, Or.inr (Or.inr hjaro)⟩
  · rintro ⟨hgap, hv | hv | hjaro⟩
    · exact Or.inl ⟨Or.inl hv, hgap⟩
    · exact Or.inl ⟨Or.inr hv, hgap⟩
    · exact Or.inr ⟨hgap, hjaro⟩

/-- **The anchor gate on a phrase alone**, in the variants of the registered
entries. -/
theorem anchorPresent_single_iff (laws : CasingLaws lib) {m : MatcherState} (hsync : m.InSync lib)
    (phrase : Text) (stability : ℕ) :
    anchorPresent lib m (buildWeightedText lib [⟨phrase, stability⟩]) = true ↔
      ∃ cfg ∈ m.registry.getAll, ∃ w ∈ cfg.variants, normVariant lib w ≠ [] ∧
        RecognisedBy lib phrase stability (normVariant lib w) := by
  have hmatch : ∀ v, RecognisedBy lib phrase stability v ↔
      phraseMatches lib (buildWeightedText lib [⟨phrase, stability⟩]) v = true ∨
        wordMatches lib (buildWeightedText lib [⟨phrase, stability⟩]) v = true := by
    intro v
    rw [phraseMatches_single_iff laws, wordMatches_single_iff laws]
    exact or_comm
  rw [anchorPresent_iff, MatcherState.getVariants, hsync]
  simp only [VariantIndex.mem_build_allVariants, ← hmatch]
  constructor
  · rintro ⟨v, ⟨hne, cfg, hcfg, w, hw, rfl⟩, hv⟩
    exact ⟨cfg, hcfg, w, hw, hne, hv⟩
  · rintro ⟨cfg, hcfg, w, hw, hne, hv⟩
    exact ⟨_, ⟨hne, cfg, hcfg, w, hw, rfl⟩, hv⟩

/-! ## The scoring loop on one repeated phrase -/

/-- The words of a phrase are no more than those of what was heard. -/
def FitsIn (lib : TextLib) (phrase heard : Text) : Prop :=
  (phraseTokens lib phrase).length ≤ (phraseTokens lib heard).length

/-- What was heard, lowered or as it is, reaches `FUZZY_THRESHOLD` against a phrase. -/
def Resembles (lib : TextLib) (heard phrase : Text) : Prop :=
  fuzzyThreshold ≤ lib.tokenSetRatio (lib.lower heard) (lib.lower phrase) ∨
    fuzzyThreshold ≤ lib.tokenSetRatio heard (lib.lower phrase)

theorem sameTokens_buildWeightedText_single (laws : TokenSetLaws lib) (p : Text)
    (stability : ℕ) : SameTokens (buildWeightedText lib [⟨p, stability⟩]) (lib.lower p) := by
  intro t
  rw [mem_split_buildWeightedText laws]
  simp

/-- **The scoring loop on a phrase alone.**  A phrase of the loop is scored when it
fits in what was heard and resembles it, or is lifted by the variant found. -/
theorem scorePhrase_single_iff (laws : TokenSetLaws lib) (m : MatcherState) (p q : Text)
    (stability : ℕ) :
    (scorePhrase lib (matchContext lib m [⟨p, stability⟩]) q).isSome = true ↔
      FitsIn lib q p ∧ (Resembles lib p q ∨
        (matchContext lib m [⟨p, stability⟩]).canonicalCandidate = q ∧
          (matchContext lib m [⟨p, stability⟩]).matchedVariant ≠ [] ∧
          fuzzyThreshold ≤ lib.tokenSetRatio (lib.lower p)
            (matchContext lib m [⟨p, stability⟩]).matchedVariant * 0.85) := by
  generalize hctx : matchContext lib m [⟨p, stability⟩] = ctx
  have hwindow : ctx.window = [⟨p, stability⟩] := by rw [← hctx]; rfl
  have hratio (t : Text) :
      lib.tokenSetRatio ctx.combined t = lib.tokenSetRatio (lib.lower p) t := by
    rw [← hctx]
    exact laws.tokenSetRatio_congr (sameTokens_buildWeightedText_single laws p stability)
      (SameTokens.refl t)
  have htokens : candidateTokens lib ctx.window = phraseTokens lib p := by
    rw [hwindow]
    simp [candidateTokens, phraseTokens]
  have hfuzzy : fuzzyThreshold / 100 ≤ fuzzyScore lib ctx q ↔
      Resembles lib p q ∨ ctx.canonicalCandidate = q ∧ ctx.matchedVariant ≠ [] ∧
        fuzzyThreshold ≤ lib.tokenSetRatio (lib.lower p) ctx.matchedVariant * 0.85 := by
    have hscale (r : ℚ) : fuzzyThreshold / 100 ≤ r / 100 ↔ fuzzyThreshold ≤ r :=
      div_le_div_iff_of_pos_right (by norm_num)
    have hzero : ¬ fuzzyThreshold / 100 ≤ (0 : ℚ) := by norm_num [fuzzyThreshold]
    simp only [fuzzyScore, hwindow, hratio, List.map_cons, List.map_nil, List.max?_singleton,
      Option.getD_some, le_max_iff, hscale, Resembles]
    refine or_congr Iff.rfl ?_
    split
    next hlift => simp only [hlift, true_and, ne_eq, not_false_eq_true, div_mul_eq_mul_div, hscale]
    next hnone => exact iff_of_false hzero fun h => hnone ⟨h.1, h.2.1⟩
  rw [Option.isSome_iff_exists]
  simp only [scorePhrase_eq_some_iff, hfuzzy, htokens, exists_and_left, exists_eq, and_true]
  exact and_comm

/-- A phrase is always scored against a window of its own words. -/
theorem scorePhrase_single (laws : CasingLaws lib) (m : MatcherState) {p q : Text} (stability : ℕ)
    (hwords : split (lib.lower p) = split (lib.lower q)) (hne : split (lib.lower p) ≠ []) :
    (scorePhrase lib (matchContext lib m [⟨p, stability⟩]) q).isSome = true := by
  have hsame : SameTokens (lib.lower p) (lib.lower q) := fun t => by rw [hwords]
  refine (scorePhrase_single_iff laws.toTokenSetLaws m p q stability).mpr ⟨?_, Or.inl (Or.inl ?_)⟩
  · rw [FitsIn, phraseTokens, phraseTokens, hwords]
  · rw [laws.tokenSetRatio_same hsame hne]
    norm_num [fuzzyThreshold]

theorem bestMatch_phrase_ne_nil_iff (m : MatcherState) (window : List Hypothesis) :
    (bestMatch lib m window).phrase ≠ [] ↔
      passesGates lib m window = true ∧
        ∃ q ∈ phrasesToScore m (matchContext lib m window),
          (scorePhrase lib (matchContext lib m window) q).isSome = true := by
  constructor
  · intro hne
    obtain ⟨hgate, score, ⟨hmem, hscore⟩, -⟩ := (bestMatch_phrase_eq_iff lib hne).mp rfl
    exact ⟨hgate, _, hmem, by rw [hscore]; rfl⟩
  · rintro ⟨hgate, q, hq, hsome⟩
    obtain ⟨score, hscore⟩ := Option.isSome_iff_exists.mp hsome
    unfold bestMatch
    rw [if_pos hgate]
    show resolvePhraseCandidate _ ≠ []
    rw [Ne, resolvePhraseCandidate_eq_nil_iff (phraseCandidates_ne_nil lib m _)]
    exact List.ne_nil_of_mem ((mem_phraseCandidates lib (c := (score, q))).mpr ⟨hq, hscore⟩)

/-! ## When a configured phrase is recognised -/

/-- The entry that the registry holds under an id is enabled, so its phrase is
active. -/
theorem PhraseRegistry.mem_getActive_of_getById {r : PhraseRegistry} {id : Text}
    {cfg : PhraseConfig} (h : r.getById id = some cfg) (henabled : cfg.enabled = true) :
    cfg ∈ r.getActive :=
  mem_getActive.mpr ⟨List.mem_map.mpr ⟨_, Dict.get?_eq_some_iff.mp h, rfl⟩, henabled⟩

/-- The entry was not replaced by a later one with the same `phraseId`. -/
def StillRegistered (lib : TextLib) (m : MatcherState) (data : PhraseEntry) : Prop :=
  m.registry.getById data.phraseId = (PhraseConfig.fromDict lib data).toOption

/-- An entry of the registry answers for the heard phrase: that of an active phrase
which resembles it, or that of the longest variant found in its copies, if it
resembles it or the variant itself does after its discount. -/
def AnsweredByEntry (lib : TextLib) (m : MatcherState) (heard : Text) (stability : ℕ) : Prop :=
  let variant := findMatchedVariant lib m (buildWeightedText lib [⟨heard, stability⟩])
    [⟨heard, stability⟩]
  m.registry.getActive ≠ [] ∧
    ((∃ cfg ∈ m.registry.getActive,
        FitsIn lib cfg.phrase heard ∧ Resembles lib heard cfg.phrase) ∨
      variant ≠ [] ∧ ∃ canonical, m.getCanonical lib variant = some canonical ∧
        FitsIn lib canonical heard ∧ (Resembles lib heard canonical ∨
          fuzzyThreshold ≤ lib.tokenSetRatio (lib.lower heard) variant * 0.85))

/-- With an up-to-date index these are the phrases that the loop scores. -/
theorem answeredByEntry_iff (laws : TokenSetLaws lib) {m : MatcherState} (hsync : m.InSync lib)
    (p : Text) (stability : ℕ) :
    AnsweredByEntry lib m p stability ↔
      m.getActivePhrases ≠ [] ∧
        ∃ q ∈ phrasesToScore m (matchContext lib m [⟨p, stability⟩]),
          (scorePhrase lib (matchContext lib m [⟨p, stability⟩]) q).isSome = true := by
  have hempty : m.getActivePhrases ≠ [] ↔ m.registry.getActive ≠ [] := by
    simp [MatcherState.getActivePhrases]
  rw [AnsweredByEntry, hempty]
  simp only [scorePhrase_single_iff laws]
  refine and_congr_right fun _ => ?_
  constructor
  · rintro (⟨cfg, hcfg, hfits, hresembles⟩ | ⟨hvariant, q, hget, hfits, hclose⟩)
    · have hmem : cfg.phrase ∈ m.getActivePhrases := List.mem_map_of_mem hcfg
      exact ⟨cfg.phrase, mem_phrasesToScore.mpr (Or.inl hmem), hfits, Or.inl hresembles⟩
    · -- A canonical phrase of the index is that of an entry, so it is not empty.
      have hne : q ≠ [] := by
        have hbuilt := hget
        rw [MatcherState.getCanonical, hsync] at hbuilt
        obtain ⟨cfg, -, rfl⟩ := VariantIndex.build_canon_registered lib m.registry hbuilt
        exact cfg.phrase_ne_nil
      have hcanon := (canonicalCandidate_eq_iff lib hne).mpr ⟨hvariant, hget⟩
      refine ⟨q, mem_phrasesToScore.mpr (Or.inr ⟨hcanon ▸ hne, hcanon.symm⟩), hfits, ?_⟩
      exact hclose.imp_right fun hlift => ⟨hcanon, hvariant, hlift⟩
  · rintro ⟨q, hq, hfits, hclose⟩
    have hfound (hcanon : (matchContext lib m [⟨p, stability⟩]).canonicalCandidate = q) :=
      (canonicalCandidate_eq_iff lib (ne_nil_of_mem_phrasesToScore hq)).mp hcanon
    rcases hclose with hresembles | ⟨hcanon, -, hlift⟩
    · rcases mem_phrasesToScore.mp hq with hactive | ⟨-, hcanon⟩
      · obtain ⟨cfg, hcfg, rfl⟩ := List.mem_map.mp hactive
        exact Or.inl ⟨cfg, hcfg, hfits, hresembles⟩
      · obtain ⟨hvariant, hget⟩ := hfound hcanon.symm
        exact Or.inr ⟨hvariant, q, hget, hfits, Or.inl hresembles⟩
    · obtain ⟨hvariant, hget⟩ := hfound hcanon
      exact Or.inr ⟨hvariant, q, hget, hfits, Or.inr hlift⟩

/-- **When a configured phrase is heard.**  For an enabled entry of a loaded
profile and its phrase, raw or normalised, heard with any stability. -/
theorem canonicalPhrase_recognised_iff (laws : CasingLaws lib) {m m' : MatcherState}
    {wakePhrases : List PhraseEntry} (hload : m.loadPhrases lib wakePhrases = .ok m')
    {data : PhraseEntry} (hmem : data ∈ wakePhrases) (henabled : data.enabled = true)
    {p : Text} (hp : p = data.phrase ∨ p = normVariant lib data.phrase) (stability : ℕ) :
    anchorPresent lib m' (buildWeightedText lib [⟨p, stability⟩]) = true ∧
        (bestMatch lib m' [⟨p, stability⟩]).phrase ≠ [] ↔
      (∃ cfg ∈ m'.registry.getAll, ∃ w ∈ cfg.variants, normVariant lib w ≠ [] ∧
          RecognisedBy lib p stability (normVariant lib w)) ∧
        (StillRegistered lib m' data ∨ AnsweredByEntry lib m' p stability) := by
  rw [anchorPresent_single_iff laws (MatcherState.loadPhrases_inSync hload)]
  refine and_congr_right fun hvariant => ?_
  have hanchor := (anchorPresent_single_iff laws (MatcherState.loadPhrases_inSync hload)
    p stability).mpr hvariant
  have hgates : passesGates lib m' [⟨p, stability⟩] = true ↔ m'.getActivePhrases ≠ [] := by
    simp [passesGates, hanchor]
  rw [bestMatch_phrase_ne_nil_iff, hgates,
    answeredByEntry_iff laws.toTokenSetLaws (MatcherState.loadPhrases_inSync hload)]
  refine (or_iff_right_of_imp fun hregistered => ?_).symm
  -- The entry's own phrase is active, and scored against its own words.
  obtain ⟨cfg, hcfg⟩ := MatcherState.fromDict_of_loadPhrases hload hmem
  obtain ⟨-, hphrase, -, -, -, hflag, -⟩ := PhraseConfig.fromDict_eq_ok hcfg
  have hget : m'.registry.getById data.phraseId = some cfg := by
    rw [hregistered, hcfg]
    rfl
  have hactive : normVariant lib data.phrase ∈ m'.getActivePhrases := by
    rw [← hphrase]
    exact List.mem_map_of_mem
      (PhraseRegistry.mem_getActive_of_getById hget (hflag.trans henabled))
  have hwords : split (lib.lower p) = split (lib.lower (normVariant lib data.phrase)) := by
    rcases hp with rfl | rfl
    · exact (split_lower_normVariant laws _).symm
    · rfl
  have hne : split (lib.lower p) ≠ [] := by
    rw [hwords, split_lower_normVariant laws]
    exact split_lower_ne_nil_of_normVariant laws (hphrase ▸ cfg.phrase_ne_nil)
  exact ⟨List.ne_nil_of_mem hactive, _, mem_phrasesToScore.mpr (Or.inl hactive),
    scorePhrase_single laws m' stability hwords hne⟩

/-! ## On ASCII text -/

namespace AsciiText

/-- A character is lowered to itself or to a small letter. -/
theorem toLower_eq_or (c : Char) :
    c.toLower = c ∨ 97 ≤ c.toLower.toNat ∧ c.toLower.toNat ≤ 122 := by
  unfold Char.toLower
  split
  next h =>
    have hlow : 65 ≤ c.val.toNat := h.1
    have hhigh : c.val.toNat ≤ 90 := h.2
    have hsum : (c.val + ('a'.val - 'A'.val)).toNat = c.val.toNat + 32 := by
      rw [UInt32.toNat_add]
      show (c.val.toNat + 32) % 2 ^ 32 = c.val.toNat + 32
      omega
    right
    show 97 ≤ (c.val + ('a'.val - 'A'.val)).toNat ∧ (c.val + ('a'.val - 'A'.val)).toNat ≤ 122
    omega
  next => exact Or.inl rfl

theorem toLower_of_small {c : Char} (h : 97 ≤ c.toNat ∧ c.toNat ≤ 122) : c.toLower = c := by
  unfold Char.toLower
  split
  next hupper =>
    have hhigh : c.toNat ≤ 90 := hupper.2
    omega
  next => rfl

theorem toLower_toLower (c : Char) : c.toLower.toLower = c.toLower := by
  rcases toLower_eq_or c with hsame | hsmall
  · rw [hsame, hsame]
  · exact toLower_of_small hsmall

theorem toNat_of_isSpace {c : Char} (h : isSpace c = true) : c.toNat ≤ 32 ∨ 133 ≤ c.toNat := by
  have hmem := of_decide_eq_true h
  fin_cases hmem <;> decide

/-- Lowering makes no white space. -/
theorem isSpace_toLower {c : Char} (h : isSpace c = false) : isSpace c.toLower = false := by
  rcases toLower_eq_or c with hsame | hsmall
  · rw [hsame, h]
  · refine eq_false_of_ne_true fun hspace => ?_
    have hrange := toNat_of_isSpace hspace
    omega

theorem tokenSetRatio_same {a b : Text} (h : SameTokens a b) (hne : split a ≠ []) :
    tokenSetRatio a b = 100 := by
  have hneB : split b ≠ [] := by
    obtain ⟨w, hw⟩ := List.exists_mem_of_ne_nil _ hne
    exact List.ne_nil_of_mem ((h w).mp hw)
  have hdiff : (split a).dedup.filter (· ∉ (split b).dedup) = [] := by
    rw [List.filter_eq_nil_iff]
    intro t ht
    simpa using (h t).mp (List.mem_dedup.mp ht)
  have hboth : (split a).dedup.filter (· ∈ (split b).dedup) = (split a).dedup := by
    rw [List.filter_eq_self]
    intro t ht
    simpa using (h t).mp (List.mem_dedup.mp ht)
  simp only [tokenSetRatio, hdiff, hboth]
  rw [if_neg, if_pos]
  · exact ⟨by simpa using hne, Or.inl trivial⟩
  · simp [hne, hneB]

/-- The ASCII library satisfies the casing laws. -/
theorem lib_casingLaws : CasingLaws AsciiText.lib where
  toTokenSetLaws := lib_tokenSetLaws
  lower_lower := by
    intro s
    show (s.map Char.toLower).map Char.toLower = s.map Char.toLower
    rw [List.map_map]
    exact List.map_congr_left fun c _ => toLower_toLower c
  split_lower_ne_nil := by
    intro s hs
    obtain ⟨c, hc, hspace⟩ := exists_of_split_ne_nil hs
    exact split_ne_nil (List.mem_map_of_mem hc) (isSpace_toLower hspace)
  tokenSetRatio_same := tokenSetRatio_same

end AsciiText

/-- A profile whose one entry lists no variants. -/
def bareWakePhrases : List PhraseEntry :=
  [{ phraseId := "bare".toList, phrase := "hey assistant".toList, threshold := 0.72 }]

def bareMatcher : MatcherState :=
  match MatcherState.empty.loadPhrases AsciiText.lib bareWakePhrases with
  | .ok m => m
  | .error _ => .empty

/-- The shipped phrase, listed among its own variants, is not heard once it has
stayed for four frames; without variants it is not heard at all. -/
theorem heyAssistant_not_recognised :
    (MatcherState.empty.loadPhrases AsciiText.lib AsciiText.customWakePhrases =
        .ok shippedMatcher ∧
      ∃ data ∈ AsciiText.customWakePhrases, data.enabled = true ∧
        anchorPresent AsciiText.lib shippedMatcher
          (buildWeightedText AsciiText.lib [⟨data.phrase, 4⟩]) = false ∧
        (bestMatch AsciiText.lib shippedMatcher [⟨data.phrase, 4⟩]).phrase = []) ∧
    (MatcherState.empty.loadPhrases AsciiText.lib bareWakePhrases = .ok bareMatcher ∧
      ∃ data ∈ bareWakePhrases, data.enabled = true ∧
        anchorPresent AsciiText.lib bareMatcher
          (buildWeightedText AsciiText.lib [⟨data.phrase, 0⟩]) = false ∧
        (bestMatch AsciiText.lib bareMatcher [⟨data.phrase, 0⟩]).phrase = []) := by
  refine ⟨⟨by decide +kernel, ?_⟩, ⟨by decide +kernel, ?_⟩⟩
  · exact ⟨_, List.mem_singleton.mpr rfl, rfl, by decide +kernel, by decide +kernel⟩
  · exact ⟨_, List.mem_singleton.mpr rfl, rfl, by decide +kernel, by decide +kernel⟩

/-- With stability 0 the shipped phrase is heard. -/
theorem canonicalPhrase_recognised_heyAssistant :
    anchorPresent AsciiText.lib shippedMatcher
        (buildWeightedText AsciiText.lib [⟨"hey assistant".toList, 0⟩]) = true ∧
      (bestMatch AsciiText.lib shippedMatcher [⟨"hey assistant".toList, 0⟩]).phrase ≠ [] := by
  have hload : MatcherState.empty.loadPhrases AsciiText.lib AsciiText.customWakePhrases =
      .ok shippedMatcher := by decide +kernel
  refine (canonicalPhrase_recognised_iff AsciiText.lib_casingLaws hload
    (List.mem_singleton.mpr rfl) rfl (Or.inl rfl) 0).mpr ⟨?_, Or.inl ?_⟩
  · decide +kernel
  · show shippedMatcher.registry.getById _ = _
    decide +kernel

end Matcher
end AvaListener
