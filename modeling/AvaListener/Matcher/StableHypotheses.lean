import AvaListener.Matcher.BestMatch
import AvaListener.Matcher.TokenSets

/-!
# More stable hypotheses

Two windows with the same texts, the second at least as stable everywhere.  The
words of the combined text, the fuzzy signals and the context score are the same
in both, and the stability score grows, so a phrase that is scored in the first
window keeps at least its score in the second.

Two parts of the matcher read the combined text as a whole and not as a set of
words: the tests of multi-word variants, whose length guards compare it with the
variant, and the search for the longest variant, which lifts the score of one
phrase.  There the repetitions of a stable hypothesis can cost the match; where
they are the same as before, or no such variant occurs, they cannot.
-/

namespace AvaListener
namespace Matcher

open Library Config

variable {lib : TextLib}

/-- The tests on single words see the set of words only. -/
theorem wordMatches_congr {a b : Text} (h : SameTokens (lib.lower a) (lib.lower b)) (v : Text) :
    wordMatches lib a v = wordMatches lib b v := by
  rw [Bool.eq_iff_iff]
  simp only [wordMatches, List.any_eq_true, h _]

/-- The same texts in the same order, each at least as stable. -/
def AtLeastAsStable (window window' : List Hypothesis) : Prop :=
  List.Forall₂ (fun h h' => h.text = h'.text ∧ h.stability ≤ h'.stability) window window'

namespace AtLeastAsStable

variable {window window' : List Hypothesis}

theorem texts_eq (h : AtLeastAsStable window window') :
    window.map (·.text) = window'.map (·.text) := by
  induction h with
  | nil => rfl
  | cons hhead _ ih => rw [List.map_cons, List.map_cons, hhead.1, ih]

theorem stabilityScore_le (h : AtLeastAsStable window window') :
    stabilityScore window ≤ stabilityScore window' := by
  have hlength : window.length = window'.length := h.length_eq
  have hcount : window.countP (2 ≤ ·.stability) ≤ window'.countP (2 ≤ ·.stability) := by
    clear hlength
    induction h with
    | nil => exact le_rfl
    | @cons a b l l' hhead _ ih =>
        rw [List.countP_cons, List.countP_cons]
        refine Nat.add_le_add ih ?_
        by_cases ha : 2 ≤ a.stability
        · simp [ha, ha.trans hhead.2]
        · simp [ha]
  have hnil : window = [] ↔ window' = [] := by
    rw [← List.length_eq_zero_iff, ← List.length_eq_zero_iff, hlength]
  simp only [stabilityScore, hnil, hlength]
  split
  · exact le_rfl
  · gcongr

/-! ## What only the words decide -/

theorem sameTokens_combined (laws : TokenSetLaws lib) (h : AtLeastAsStable window window') :
    SameTokens (buildWeightedText lib window) (buildWeightedText lib window') := by
  intro t
  rw [mem_split_buildWeightedText laws, mem_split_buildWeightedText laws, h.texts_eq]

theorem sameTokens_lower_combined (laws : TokenSetLaws lib)
    (h : AtLeastAsStable window window') :
    SameTokens (lib.lower (buildWeightedText lib window))
      (lib.lower (buildWeightedText lib window')) := by
  intro t
  rw [mem_split_lower_buildWeightedText laws, mem_split_lower_buildWeightedText laws, h.texts_eq]

theorem contextScore_eq (laws : TokenSetLaws lib) (h : AtLeastAsStable window window')
    (phrase : Text) :
    contextScore lib (buildWeightedText lib window) phrase =
      contextScore lib (buildWeightedText lib window') phrase := by
  have htokens := h.sameTokens_lower_combined laws
  simp only [contextScore, htokens _]

theorem candidateTokens_eq (h : AtLeastAsStable window window') :
    candidateTokens lib window = candidateTokens lib window' := by
  have hmap : ∀ w : List Hypothesis, (w.flatMap fun h => split (lib.lower h.text))
      = (w.map (·.text)).flatMap fun text => split (lib.lower text) := by
    intro w
    rw [List.flatMap_map]
  rw [candidateTokens, candidateTokens, hmap, hmap, h.texts_eq]

theorem directFuzzy_eq (laws : TokenSetLaws lib) (h : AtLeastAsStable window window')
    (m : MatcherState) (phrase : Text) :
    directFuzzy lib (matchContext lib m window) phrase =
      directFuzzy lib (matchContext lib m window') phrase := by
  have hcombined := laws.tokenSetRatio_congr (h.sameTokens_combined laws)
    (SameTokens.refl (lib.lower phrase))
  have hmap : ∀ w : List Hypothesis,
      (w.map fun h => lib.tokenSetRatio h.text (lib.lower phrase) / 100)
        = (w.map (·.text)).map fun text => lib.tokenSetRatio text (lib.lower phrase) / 100 := by
    intro w
    rw [List.map_map]
    rfl
  simp only [directFuzzy, matchContext, hcombined, hmap, h.texts_eq]

/-- A phrase whose fuzzy signal does not fall keeps at least its score. -/
theorem scorePhrase_of_fuzzyScore_le (laws : TokenSetLaws lib)
    (h : AtLeastAsStable window window') {m : MatcherState} {phrase : Text} {score : ℚ}
    (hgrow : fuzzyScore lib (matchContext lib m window) phrase ≤
      fuzzyScore lib (matchContext lib m window') phrase)
    (hscore : scorePhrase lib (matchContext lib m window) phrase = some score) :
    ∃ score', scorePhrase lib (matchContext lib m window') phrase = some score' ∧
      score ≤ score' := by
  obtain ⟨hfuzzy, htokens, rfl⟩ := scorePhrase_eq_some_iff.mp hscore
  have hsame : candidateTokens lib window = candidateTokens lib window' := h.candidateTokens_eq
  refine ⟨_, scorePhrase_eq_some_iff.mpr ⟨hfuzzy.trans hgrow, ?_, rfl⟩, ?_⟩
  · exact hsame ▸ htokens
  · have hcontext := h.contextScore_eq laws phrase
    have hstability := h.stabilityScore_le
    have hweights : (0 : ℚ) ≤ weightMatch ∧ (0 : ℚ) ≤ weightStability := by
      norm_num [weightMatch, weightStability]
    refine add_le_add (add_le_add ?_ ?_) ?_
    · exact mul_le_mul_of_nonneg_right hgrow hweights.1
    · exact (congrArg (· * weightContext) hcontext).le
    · exact mul_le_mul_of_nonneg_right hstability hweights.2

/-- **A phrase without the lift of a variant keeps at least its score.** -/
theorem scorePhrase_mono (laws : TokenSetLaws lib) (h : AtLeastAsStable window window')
    {m : MatcherState} {phrase : Text} {score : ℚ}
    (hlift : (matchContext lib m window).canonicalCandidate ≠ phrase)
    (hscore : scorePhrase lib (matchContext lib m window) phrase = some score) :
    ∃ score', scorePhrase lib (matchContext lib m window') phrase = some score' ∧
      score ≤ score' := by
  obtain ⟨hfuzzy, -, -⟩ := scorePhrase_eq_some_iff.mp hscore
  -- Without the lift the phrase passed by its direct signals, which stay.
  have hdirect : fuzzyScore lib (matchContext lib m window) phrase =
      directFuzzy lib (matchContext lib m window) phrase := by
    rw [fuzzyScore_of_ne hlift] at hfuzzy ⊢
    refine max_eq_left ?_
    by_contra hneg
    rw [max_eq_right (not_le.mp hneg).le] at hfuzzy
    norm_num [fuzzyThreshold] at hfuzzy
  refine h.scorePhrase_of_fuzzyScore_le laws ?_ hscore
  rw [hdirect, h.directFuzzy_eq laws]
  exact directFuzzy_le_fuzzyScore _ _

/-- With the same variant found a lifted phrase keeps its fuzzy signal too. -/
theorem fuzzyScore_eq (laws : TokenSetLaws lib) (h : AtLeastAsStable window window')
    {m : MatcherState} (hfound : (matchContext lib m window).matchedVariant =
      (matchContext lib m window').matchedVariant) (phrase : Text) :
    fuzzyScore lib (matchContext lib m window) phrase =
      fuzzyScore lib (matchContext lib m window') phrase := by
  have hdirect := h.directFuzzy_eq laws m phrase
  have hcanon : (matchContext lib m window).canonicalCandidate =
      (matchContext lib m window').canonicalCandidate := by
    simp only [matchContext] at hfound ⊢
    rw [hfound]
  have hlift := laws.tokenSetRatio_congr (h.sameTokens_combined laws)
    (SameTokens.refl (matchContext lib m window').matchedVariant)
  simp only [directFuzzy] at hdirect
  simp only [fuzzyScore, hdirect, hcanon, hfound]
  simp only [matchContext] at hlift ⊢
  rw [hlift]

end AtLeastAsStable

/-! ## The best score -/

theorem le_max?_getD_iff {scores : List ℚ} {bound : ℚ} (hbound : 0 < bound) :
    bound ≤ scores.max?.getD 0 ↔ ∃ score ∈ scores, bound ≤ score := by
  cases hmax : scores.max? with
  | none => simp [List.max?_eq_none_iff.mp hmax, hbound]
  | some best =>
      obtain ⟨hmem, hbest⟩ := List.max?_eq_some_iff.mp hmax
      rw [Option.getD_some]
      constructor
      · intro h
        exact ⟨best, hmem, h⟩
      · rintro ⟨score, hscore, h⟩
        exact h.trans (hbest score hscore)

/-- A positive bound is reached exactly when the gates are passed and some phrase
of the loop reaches it. -/
theorem le_bestMatch_score_iff {m : MatcherState} {window : List Hypothesis} {bound : ℚ}
    (hbound : 0 < bound) :
    bound ≤ (bestMatch lib m window).score ↔
      passesGates lib m window = true ∧
        ∃ q ∈ phrasesToScore m (matchContext lib m window), ∃ score,
          scorePhrase lib (matchContext lib m window) q = some score ∧ bound ≤ score := by
  unfold bestMatch
  split
  next hgate =>
    simp only [hgate, true_and, le_max?_getD_iff hbound, List.mem_map, Prod.exists,
      mem_phraseCandidates]
    constructor
    · rintro ⟨score, ⟨_, q, ⟨hq, hscore⟩, rfl⟩, hle⟩
      exact ⟨q, hq, _, hscore, hle⟩
    · rintro ⟨q, hq, score, hscore, hle⟩
      exact ⟨score, ⟨score, q, ⟨hq, hscore⟩, rfl⟩, hle⟩
  next hgate => simp [hgate, MatchResult.nothing, hbound]

theorem bestMatch_score_nonneg (m : MatcherState) (window : List Hypothesis) :
    0 ≤ (bestMatch lib m window).score := by
  have hcandidates :
      0 ≤ (((phraseCandidates lib m (matchContext lib m window)).map Prod.fst).max?).getD 0 := by
    cases hmax : ((phraseCandidates lib m (matchContext lib m window)).map Prod.fst).max? with
    | none => exact le_refl (0 : ℚ)
    | some best =>
        obtain ⟨c, hc, rfl⟩ := List.mem_map.mp (List.max?_mem hmax)
        exact (scorePhrase_pos ((mem_phraseCandidates lib).mp hc).2).le
  unfold bestMatch
  split
  · exact hcandidates
  · exact le_refl (0 : ℚ)

/-! ## When stability does not hurt -/

/-- Where the first window is anchored by a multi-word variant, a single word is
close to some variant too, or some multi-word variant still fits the longer
combined text of the second window. -/
def AnchorKept (lib : TextLib) (m : MatcherState) (window window' : List Hypothesis) : Prop :=
  ∀ v ∈ m.getVariants, phraseMatches lib (buildWeightedText lib window) v = true →
    ∃ v' ∈ m.getVariants, wordMatches lib (buildWeightedText lib window) v' = true ∨
      phraseMatches lib (buildWeightedText lib window') v' = true

/-- The score that the canonical phrase of the first window's longest variant has
there, lifted by that variant, is reached by some phrase in the second window. -/
def LiftKept (lib : TextLib) (m : MatcherState) (window window' : List Hypothesis) : Prop :=
  let ctx := matchContext lib m window
  let ctx' := matchContext lib m window'
  passesGates lib m window = true → ctx.canonicalCandidate ∈ phrasesToScore m ctx →
    ∀ score, scorePhrase lib ctx ctx.canonicalCandidate = some score →
      ∃ q ∈ phrasesToScore m ctx', ∃ score', scorePhrase lib ctx' q = some score' ∧ score ≤ score'

section TwoWindows

variable {m : MatcherState} {window window' : List Hypothesis}

theorem anchorPresent_mono_iff (laws : TokenSetLaws lib) (h : AtLeastAsStable window window') :
    (anchorPresent lib m (buildWeightedText lib window) = true →
        anchorPresent lib m (buildWeightedText lib window') = true) ↔
      AnchorKept lib m window window' := by
  have hwords := wordMatches_congr (h.sameTokens_lower_combined laws)
  simp only [anchorPresent_iff, AnchorKept, hwords]
  constructor
  · intro hkept v hv hphrase
    obtain ⟨v', hv', hmatch⟩ := hkept ⟨v, hv, Or.inl hphrase⟩
    exact ⟨v', hv', hmatch.symm⟩
  · rintro hkept ⟨v, hv, hphrase | hword⟩
    · obtain ⟨v', hv', hmatch⟩ := hkept v hv hphrase
      exact ⟨v', hv', hmatch.symm⟩
    · exact ⟨v, hv, Or.inr hword⟩

/-- Given the anchor, only the lifted phrase can bring the best score down. -/
theorem bestMatch_score_mono (laws : TokenSetLaws lib) (h : AtLeastAsStable window window')
    (hanchor : AnchorKept lib m window window') (hlift : LiftKept lib m window window') :
    (bestMatch lib m window).score ≤ (bestMatch lib m window').score := by
  by_cases hpos : 0 < (bestMatch lib m window).score
  · obtain ⟨hgate, q, hq, score, hscore, hle⟩ := (le_bestMatch_score_iff hpos).mp le_rfl
    have hgate' : passesGates lib m window' = true := by
      simp only [passesGates, decide_eq_true_eq] at hgate ⊢
      refine ⟨?_, hgate.2.1, (anchorPresent_mono_iff laws h).mpr hanchor hgate.2.2⟩
      rintro rfl
      exact hgate.1 (List.forall₂_nil_right_iff.mp h)
    rw [le_bestMatch_score_iff hpos]
    refine ⟨hgate', ?_⟩
    by_cases hcanon : (matchContext lib m window).canonicalCandidate = q
    · subst hcanon
      obtain ⟨q', hq', score', hscore', hle'⟩ := hlift hgate hq score hscore
      exact ⟨q', hq', score', hscore', hle.trans hle'⟩
    · -- Every phrase but the canonical candidate is an active one.
      have hactive : q ∈ m.getActivePhrases :=
        (mem_phrasesToScore.mp hq).resolve_right fun h => hcanon h.2.symm
      obtain ⟨score', hscore', hle'⟩ := h.scorePhrase_mono laws hcanon hscore
      exact ⟨q, mem_phrasesToScore.mpr (Or.inl hactive), score', hscore', hle.trans hle'⟩
  · exact (not_lt.mp hpos).trans (bestMatch_score_nonneg m window')

theorem liftKept_of_score_le
    (hle : (bestMatch lib m window).score ≤ (bestMatch lib m window').score) :
    LiftKept lib m window window' := by
  intro hgate hmem score hscore
  have hpos := scorePhrase_pos hscore
  have hfirst := (le_bestMatch_score_iff hpos).mpr ⟨hgate, _, hmem, score, hscore, le_rfl⟩
  exact ((le_bestMatch_score_iff hpos).mp (hfirst.trans hle)).2

/-- **When more stable hypotheses do not hurt.** -/
theorem moreStable_not_worse_iff (laws : TokenSetLaws lib) (h : AtLeastAsStable window window') :
    (anchorPresent lib m (buildWeightedText lib window) = true →
        anchorPresent lib m (buildWeightedText lib window') = true) ∧
      (bestMatch lib m window).score ≤ (bestMatch lib m window').score ↔
    AnchorKept lib m window window' ∧ LiftKept lib m window window' := by
  rw [anchorPresent_mono_iff laws h]
  refine and_congr_right fun hanchor => ?_
  exact ⟨liftKept_of_score_le, bestMatch_score_mono laws h hanchor⟩

/-! ## Windows whose repetitions do not matter -/

/-- Every hypothesis is repeated equally often in both combined texts. -/
def SameRepetitions (window window' : List Hypothesis) : Prop :=
  window.map (stabilityWeight ·.stability) = window'.map (stabilityWeight ·.stability)

/-- A variant of several words occurs in the combined text, with or without its
blanks. -/
def HoldsPhraseVariant (lib : TextLib) (m : MatcherState) (window : List Hypothesis) : Prop :=
  ∃ v ∈ m.getVariants, ' ' ∈ v ∧
    (occursIn v (lib.lower (buildWeightedText lib window)) = true ∨
      occursIn (removeSpaces v)
        (split (lib.lower (buildWeightedText lib window))).flatten = true)

instance (m : MatcherState) (window : List Hypothesis) :
    Decidable (HoldsPhraseVariant lib m window) := by
  unfold HoldsPhraseVariant
  infer_instance

/-- Equal repetitions make equal combined texts. -/
theorem buildWeightedText_eq (h : AtLeastAsStable window window')
    (hsame : SameRepetitions window window') :
    buildWeightedText lib window = buildWeightedText lib window' := by
  have hparts : (window.flatMap fun h => List.replicate (stabilityWeight h.stability) h.text) =
      window'.flatMap fun h => List.replicate (stabilityWeight h.stability) h.text := by
    induction h with
    | nil => rfl
    | @cons a b l l' hhead _ ih =>
        obtain ⟨hhere, hrest⟩ := List.cons.inj hsame
        have hweight : stabilityWeight a.stability = stabilityWeight b.stability := hhere
        rw [List.flatMap_cons, List.flatMap_cons, ih hrest, hhead.1, hweight]
  rw [buildWeightedText, buildWeightedText, hparts]

/-- Where no variant of several words occurs, none of the tests on the whole text
succeeds. -/
theorem phraseMatches_eq_false (h : ¬ HoldsPhraseVariant lib m window) {v : Text}
    (hv : v ∈ m.getVariants) : phraseMatches lib (buildWeightedText lib window) v = false := by
  refine eq_false_of_ne_true fun hmatch => h ⟨v, hv, ?_⟩
  simp only [phraseMatches, decide_eq_true_eq] at hmatch
  obtain ⟨hblank, hfits⟩ := hmatch
  exact ⟨hblank, hfits.imp And.right And.right⟩

/-- A variant without a blank occurs in the combined text when it does in a text of
the window. -/
theorem occursIn_combined_iff (laws : TokenSetLaws lib) {v : Text} (hne : v ≠ [])
    (hblank : ' ' ∉ v) (window : List Hypothesis) :
    occursIn v (lib.lower (buildWeightedText lib window)) = true ↔
      ∃ text ∈ window.map (·.text), occursIn v (lib.lower (lib.lower text)) = true := by
  rw [buildWeightedText, laws.lower_join, laws.lower_join, occursIn_join_iff hne hblank]
  simp only [List.map_map, List.mem_map, mem_weightedParts, Function.comp_apply]
  constructor
  · rintro ⟨-, ⟨text, hmem, rfl⟩, hoccurs⟩
    exact ⟨text, hmem, hoccurs⟩
  · rintro ⟨text, hmem, hoccurs⟩
    exact ⟨_, ⟨text, hmem, rfl⟩, hoccurs⟩

/-- The search for the longest variant depends on which variants occur. -/
theorem findMatchedVariant_congr {combined combined' : Text}
    (hoccurs : ∀ v ∈ m.getVariants, v ≠ [] →
      ((combined :: window.map (·.text)).any fun text => occursIn v (lib.lower text)) =
        (combined' :: window'.map (·.text)).any fun text => occursIn v (lib.lower text)) :
    findMatchedVariant lib m combined window = findMatchedVariant lib m combined' window' := by
  unfold findMatchedVariant
  refine List.foldl_ext _ _ _ fun best v hv => ?_
  by_cases hnil : v = []
  · simp [hnil]
  · simp only [hoccurs v hv hnil]

/-- The same variant is found in both windows. -/
theorem matchedVariant_eq (laws : TokenSetLaws lib) (h : AtLeastAsStable window window')
    (hinput : SameRepetitions window window' ∨
      ¬ HoldsPhraseVariant lib m window ∧ ¬ HoldsPhraseVariant lib m window') :
    (matchContext lib m window).matchedVariant = (matchContext lib m window').matchedVariant := by
  refine findMatchedVariant_congr fun v hv hne => ?_
  rw [List.any_cons, List.any_cons, h.texts_eq]
  congr 1
  rcases hinput with hsame | ⟨hfirst, hsecond⟩
  · rw [buildWeightedText_eq h hsame]
  · rw [Bool.eq_iff_iff]
    by_cases hblank : ' ' ∈ v
    · refine iff_of_false (fun hoccurs => ?_) (fun hoccurs => ?_)
      · exact hfirst ⟨v, hv, hblank, Or.inl hoccurs⟩
      · exact hsecond ⟨v, hv, hblank, Or.inl hoccurs⟩
    · rw [occursIn_combined_iff laws hne hblank, occursIn_combined_iff laws hne hblank, h.texts_eq]

end TwoWindows

/-! ## A shipped phrase that stability mutes -/

/-- The matcher after the shipped custom profile was loaded. -/
def shippedMatcher : MatcherState :=
  match MatcherState.empty.loadPhrases AsciiText.lib AsciiText.customWakePhrases with
  | .ok m => m
  | .error _ => .empty

/-- One hypothesis, the profile's phrase itself. -/
def heyAssistantWindow (stability : ℕ) : List Hypothesis :=
  [⟨"hey assistant".toList, stability⟩]

end Matcher
end AvaListener
