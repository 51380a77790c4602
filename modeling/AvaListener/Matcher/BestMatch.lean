import Mathlib.Tactic.Linarith
import Mathlib.Tactic.NormNum
import AvaListener.Matcher.Evaluator

/-!
# What `best_match` can answer

Spec lemmas of the two gates: an anchor test is one on the whole text or one on a
single word, and a phrase is scored exactly when its fuzzy signal reaches the
threshold and the window has as many words as the phrase.

Spec lemmas of `best_match`: the answered phrase is empty exactly when no phrase
became a candidate, and otherwise it is the candidate with the largest key.

The canonical candidate is the one way a phrase outside the active list enters
the loop.  `MutedWins` is the condition on registry, index and window under
which such a phrase is answered: the longest variant found belongs to it, it
passes the same filters as the others, and no active phrase beats its key.
-/

namespace AvaListener
namespace Matcher

open Library Config

variable (lib : TextLib)

/-! ## The two kinds of anchor test -/

/-- The tests on the whole text, made for variants of several words. -/
def phraseMatches (text variant : Text) : Bool :=
  let lowered := lib.lower text
  let tokens := split lowered
  let v := removeSpaces variant
  let textStripped := tokens.flatten
  ' ' ∈ variant ∧
    (gap tokens.length (split variant).length ≤ 2 ∧ occursIn variant lowered ∨
      gap textStripped.length v.length ≤ 3 ∧ occursIn v textStripped)

/-- The tests on the single words of the text. -/
def wordMatches (text variant : Text) : Bool :=
  let v := removeSpaces variant
  (split (lib.lower text)).any fun tok =>
    let tokStripped := removeSpaces tok
    (occursIn v tokStripped || occursIn tokStripped v) ∧ gap tokStripped.length v.length ≤ 2 ∨
      gap tok.length v.length ≤ 2 ∧ jaroThreshold ≤ lib.jaroWinklerSimilarity tok v

theorem anchorMatches_iff (text variant : Text) :
    anchorMatches lib text variant = true ↔
      phraseMatches lib text variant = true ∨ wordMatches lib text variant = true := by
  simp only [anchorMatches, phraseMatches, wordMatches, decide_eq_true_eq, List.any_eq_true]
  refine or_congr_right ?_
  constructor
  · rintro (⟨tok, hmem, htok⟩ | ⟨tok, hmem, htok⟩)
    · exact ⟨tok, hmem, Or.inl htok⟩
    · exact ⟨tok, hmem, Or.inr htok⟩
  · rintro ⟨tok, hmem, htok | htok⟩
    · exact Or.inl ⟨tok, hmem, htok⟩
    · exact Or.inr ⟨tok, hmem, htok⟩

theorem anchorPresent_iff (m : MatcherState) (text : Text) :
    anchorPresent lib m text = true ↔
      ∃ v ∈ m.getVariants, phraseMatches lib text v = true ∨ wordMatches lib text v = true := by
  simp only [anchorPresent, List.any_eq_true, anchorMatches_iff]

/-! ## One phrase -/

section OnePhrase

variable {lib}

/-- The two fuzzy signals that do not depend on the variant found. -/
def directFuzzy (lib : TextLib) (ctx : MatchContext) (phrase : Text) : ℚ :=
  max (lib.tokenSetRatio ctx.combined (lib.lower phrase) / 100)
    (((ctx.window.map fun h => lib.tokenSetRatio h.text (lib.lower phrase) / 100).max?).getD 0)

/-- A phrase the variant found does not belong to has its direct signals only. -/
theorem fuzzyScore_of_ne {ctx : MatchContext} {phrase : Text}
    (h : ctx.canonicalCandidate ≠ phrase) :
    fuzzyScore lib ctx phrase = max (directFuzzy lib ctx phrase) 0 := by
  simp [fuzzyScore, directFuzzy, h]

theorem directFuzzy_le_fuzzyScore (ctx : MatchContext) (phrase : Text) :
    directFuzzy lib ctx phrase ≤ fuzzyScore lib ctx phrase :=
  le_max_left _ _

/-- The words of a window's hypotheses and of a phrase, each counted once. -/
def candidateTokens (lib : TextLib) (window : List Hypothesis) : List Text :=
  (window.flatMap fun h => split (lib.lower h.text)).dedup

def phraseTokens (lib : TextLib) (phrase : Text) : List Text :=
  (split (lib.lower phrase)).dedup

/-- **When a phrase is scored, and how.** -/
theorem scorePhrase_eq_some_iff {ctx : MatchContext} {phrase : Text} {score : ℚ} :
    scorePhrase lib ctx phrase = some score ↔
      fuzzyThreshold / 100 ≤ fuzzyScore lib ctx phrase ∧
      (phraseTokens lib phrase).length ≤ (candidateTokens lib ctx.window).length ∧
      score = fuzzyScore lib ctx phrase * weightMatch
        + contextScore lib ctx.combined phrase * weightContext
        + stabilityScore ctx.window * weightStability := by
  simp only [scorePhrase, candidateTokens, phraseTokens]
  by_cases hfuzzy : fuzzyScore lib ctx phrase < fuzzyThreshold / 100
  · simp [hfuzzy]
  · rw [if_neg hfuzzy]
    by_cases hshort : (ctx.window.flatMap fun h => split (lib.lower h.text)).dedup.length
        < (split (lib.lower phrase)).dedup.length
    · rw [if_pos hshort, if_pos (show requireFullPhrase = true from rfl)]
      simp [hshort]
    · rw [if_neg hshort, Option.some.injEq]
      simp only [not_lt.mp hfuzzy, not_lt.mp hshort, true_and]
      exact eq_comm

theorem contextScore_nonneg (lib : TextLib) (text phrase : Text) :
    0 ≤ contextScore lib text phrase := by
  simp only [contextScore]
  split
  · exact zero_le_one
  · exact div_nonneg (Nat.cast_nonneg _) (Nat.cast_nonneg _)

theorem stabilityScore_nonneg (window : List Hypothesis) : 0 ≤ stabilityScore window := by
  simp only [stabilityScore]
  split
  · exact le_rfl
  · exact div_nonneg (Nat.cast_nonneg _) (Nat.cast_nonneg _)

/-- A phrase that is scored has a positive score. -/
theorem scorePhrase_pos {ctx : MatchContext} {phrase : Text} {score : ℚ}
    (h : scorePhrase lib ctx phrase = some score) : 0 < score := by
  obtain ⟨hfuzzy, -, rfl⟩ := scorePhrase_eq_some_iff.mp h
  have hcontext := contextScore_nonneg lib ctx.combined phrase
  have hstability := stabilityScore_nonneg ctx.window
  norm_num only [fuzzyThreshold] at hfuzzy
  norm_num only [weightMatch, weightContext, weightStability]
  linarith

end OnePhrase

/-! ## The candidates and the answer -/

@[simp] theorem mem_phraseCandidates {m : MatcherState} {ctx : MatchContext} {c : ℚ × Text} :
    c ∈ phraseCandidates lib m ctx ↔
      c.2 ∈ phrasesToScore m ctx ∧ scorePhrase lib ctx c.2 = some c.1 := by
  obtain ⟨score, phrase⟩ := c
  rw [phraseCandidates, List.mem_filterMap]
  constructor
  · rintro ⟨p, hp, hscore⟩
    obtain ⟨s, hs, heq⟩ := Option.map_eq_some_iff.mp hscore
    obtain ⟨rfl, rfl⟩ := Prod.mk.inj heq
    exact ⟨hp, hs⟩
  · rintro ⟨hp, hs⟩
    exact ⟨phrase, hp, by simp [hs]⟩

/-- The loop scores the active phrases and the canonical candidate. -/
theorem mem_phrasesToScore {m : MatcherState} {ctx : MatchContext} {p : Text} :
    p ∈ phrasesToScore m ctx ↔
      p ∈ m.getActivePhrases ∨ ctx.canonicalCandidate ≠ [] ∧ p = ctx.canonicalCandidate := by
  unfold phrasesToScore
  split
  next happend => simp [happend.1]
  next hkept =>
    refine (or_iff_left_of_imp ?_).symm
    rintro ⟨hne, rfl⟩
    by_contra hinactive
    exact hkept ⟨hne, hinactive⟩

/-- The canonical candidate is the canonical phrase of the variant found. -/
theorem canonicalCandidate_eq_iff {m : MatcherState} {window : List Hypothesis} {p : Text}
    (hp : p ≠ []) :
    (matchContext lib m window).canonicalCandidate = p ↔
      (matchContext lib m window).matchedVariant ≠ [] ∧
        m.getCanonical lib (matchContext lib m window).matchedVariant = some p := by
  simp only [matchContext]
  split
  next hnil => exact iff_of_false hp.symm fun h => h.1 hnil
  next hvariant =>
    cases m.getCanonical lib (findMatchedVariant lib m (buildWeightedText lib window) window) with
    | none => exact iff_of_false hp.symm nofun
    | some canonical => simp [hvariant]

/-- No phrase that reaches the loop is empty. -/
theorem ne_nil_of_mem_phrasesToScore {m : MatcherState} {ctx : MatchContext} {p : Text}
    (h : p ∈ phrasesToScore m ctx) : p ≠ [] := by
  rcases mem_phrasesToScore.mp h with hactive | ⟨hne, rfl⟩
  · obtain ⟨cfg, -, rfl⟩ := List.mem_map.mp hactive
    exact cfg.phrase_ne_nil
  · exact hne

/-- Distinct candidates of one loop have distinct phrases, so equal keys mean
equal candidates. -/
theorem candidateKey_injective : Function.Injective candidateKey := by
  rintro ⟨s, p⟩ ⟨t, q⟩ h
  have hpair := congrArg ofLex h
  obtain ⟨hscore, hrest⟩ := Prod.mk.inj hpair
  have htext := congrArg Prod.snd (congrArg ofLex hrest)
  exact Prod.ext hscore htext

/-- **The resolution rule.**  A non-empty answer is the phrase of the candidate
with the largest key. -/
theorem resolvePhraseCandidate_eq_iff {candidates : List (ℚ × Text)} {p : Text} (hp : p ≠ []) :
    resolvePhraseCandidate candidates = p ↔
      ∃ s, (s, p) ∈ candidates ∧ ∀ c ∈ candidates, candidateKey c ≤ candidateKey (s, p) := by
  have hresolve : resolvePhraseCandidate candidates =
      ((candidates.argmax candidateKey).map Prod.snd).getD [] := rfl
  rw [hresolve]
  constructor
  · intro h
    cases hmax : candidates.argmax candidateKey with
    | none =>
        rw [hmax] at h
        exact absurd h.symm hp
    | some best =>
        rw [hmax] at h
        have hbest : best.2 = p := h
        have hspec := List.argmax_eq_some_iff.mp hmax
        refine ⟨best.1, ?_, ?_⟩
        · rw [← hbest]
          exact hspec.1
        · rw [← hbest]
          exact hspec.2.1
  · rintro ⟨s, hmem, hbest⟩
    cases hmax : candidates.argmax candidateKey with
    | none =>
        rw [List.argmax_eq_none.mp hmax] at hmem
        cases hmem
    | some best =>
        have hspec := List.argmax_eq_some_iff.mp hmax
        -- Both keys are maximal, and keys determine candidates.
        have hkey : candidateKey best = candidateKey (s, p) :=
          le_antisymm (hbest best hspec.1) (hspec.2.1 (s, p) hmem)
        rw [candidateKey_injective hkey]
        rfl

theorem resolvePhraseCandidate_eq_nil_iff {candidates : List (ℚ × Text)}
    (hne : ∀ c ∈ candidates, c.2 ≠ []) :
    resolvePhraseCandidate candidates = [] ↔ candidates = [] := by
  have hresolve : resolvePhraseCandidate candidates =
      ((candidates.argmax candidateKey).map Prod.snd).getD [] := rfl
  rw [hresolve]
  constructor
  · intro h
    cases hmax : candidates.argmax candidateKey with
    | none => exact List.argmax_eq_none.mp hmax
    | some best =>
        rw [hmax] at h
        exact absurd h (hne best (List.argmax_mem hmax))
  · rintro rfl
    rfl

theorem phraseCandidates_ne_nil (m : MatcherState) (ctx : MatchContext) :
    ∀ c ∈ phraseCandidates lib m ctx, c.2 ≠ [] := by
  intro c hc
  exact ne_nil_of_mem_phrasesToScore ((mem_phraseCandidates lib).mp hc).1

/-- A call without a phrase scores zero. -/
theorem bestMatch_score_eq_zero {m : MatcherState} {window : List Hypothesis}
    (h : (bestMatch lib m window).phrase = []) : (bestMatch lib m window).score = 0 := by
  unfold bestMatch at h ⊢
  split
  next hgate =>
    rw [if_pos hgate] at h
    have hempty := (resolvePhraseCandidate_eq_nil_iff
      (phraseCandidates_ne_nil lib m (matchContext lib m window))).mp h
    simp only [hempty]
    rfl
  · rfl

/-- **The answer of `best_match`.** -/
theorem bestMatch_phrase_eq_iff {m : MatcherState} {window : List Hypothesis} {p : Text}
    (hp : p ≠ []) :
    (bestMatch lib m window).phrase = p ↔
      passesGates lib m window = true ∧ ∃ s,
        (p ∈ phrasesToScore m (matchContext lib m window) ∧
          scorePhrase lib (matchContext lib m window) p = some s) ∧
        ∀ q ∈ phrasesToScore m (matchContext lib m window), ∀ t,
          scorePhrase lib (matchContext lib m window) q = some t →
            candidateKey (t, q) ≤ candidateKey (s, p) := by
  unfold bestMatch
  by_cases hgate : passesGates lib m window = true
  · rw [if_pos hgate]
    simp only [hgate, true_and]
    rw [resolvePhraseCandidate_eq_iff hp]
    simp only [mem_phraseCandidates, Prod.forall]
    refine exists_congr fun s => and_congr_right fun _ => ?_
    constructor
    · intro h q hq t ht
      exact h t q ⟨hq, ht⟩
    · intro h t q hq
      exact h q hq.1 t hq.2
  · rw [if_neg hgate]
    simp only [hgate, MatchResult.nothing, Bool.false_eq_true, false_and, iff_false]
    exact fun h => hp h.symm

/-- With an up-to-date index only registered phrases are answered. -/
theorem bestMatch_phrase_registered {m : MatcherState} (hsync : m.InSync lib)
    {window : List Hypothesis} (hp : (bestMatch lib m window).phrase ≠ []) :
    ∃ cfg ∈ m.registry.getAll, cfg.phrase = (bestMatch lib m window).phrase := by
  obtain ⟨-, s, ⟨hmem, -⟩, -⟩ := (bestMatch_phrase_eq_iff lib hp).mp rfl
  rcases mem_phrasesToScore.mp hmem with hactive | ⟨hne, heq⟩
  · obtain ⟨cfg, hcfg, heq, -⟩ := (PhraseRegistry.phraseEnabled_iff_mem_active _ _).mpr hactive
    exact ⟨cfg, hcfg, heq⟩
  · obtain ⟨-, hget⟩ := (canonicalCandidate_eq_iff lib hp).mp heq.symm
    rw [MatcherState.getCanonical, hsync] at hget
    exact VariantIndex.build_canon_registered lib m.registry hget

/-- The canonical phrase of the longest variant found is outside the active
list, becomes a candidate, and beats every active candidate. -/
def MutedWins (m : MatcherState) (window : List Hypothesis) : Prop :=
  let ctx := matchContext lib m window
  passesGates lib m window = true ∧
    ctx.canonicalCandidate ≠ [] ∧ ctx.canonicalCandidate ∉ m.getActivePhrases ∧
    ∃ s, scorePhrase lib ctx ctx.canonicalCandidate = some s ∧
      ∀ q ∈ m.getActivePhrases, ∀ t, scorePhrase lib ctx q = some t →
        candidateKey (t, q) < candidateKey (s, ctx.canonicalCandidate)

/-- **When the answer is not muted.**  The phrase answered is empty or enabled
exactly when no phrase outside the active list wins. -/
theorem bestMatch_enabled_iff (m : MatcherState) (window : List Hypothesis) :
    (bestMatch lib m window).phrase = [] ∨
        m.registry.PhraseEnabled (bestMatch lib m window).phrase ↔
      ¬ MutedWins lib m window := by
  constructor
  · rintro hsafe ⟨hgate, hcanon, hmuted, s, hscore, hbeats⟩
    have hwins : (bestMatch lib m window).phrase =
        (matchContext lib m window).canonicalCandidate := by
      rw [bestMatch_phrase_eq_iff lib hcanon]
      refine ⟨hgate, s, ⟨mem_phrasesToScore.mpr (Or.inr ⟨hcanon, rfl⟩), hscore⟩, ?_⟩
      intro q hq t ht
      rcases mem_phrasesToScore.mp hq with hactive | ⟨-, rfl⟩
      · exact (hbeats q hactive t ht).le
      · rw [Option.some.inj (hscore.symm.trans ht)]
    rw [hwins] at hsafe
    rcases hsafe with hnil | henabled
    · exact hcanon hnil
    · exact hmuted ((PhraseRegistry.phraseEnabled_iff_mem_active _ _).mp henabled)
  · intro hnot
    by_cases hnil : (bestMatch lib m window).phrase = []
    · exact Or.inl hnil
    · refine Or.inr ((PhraseRegistry.phraseEnabled_iff_mem_active _ _).mpr ?_)
      by_contra hinactive
      obtain ⟨hgate, s, ⟨hmem, hscore⟩, hbest⟩ := (bestMatch_phrase_eq_iff lib hnil).mp rfl
      -- The answer is scored but not active, so it is the appended candidate.
      obtain ⟨hne, heq⟩ := (mem_phrasesToScore.mp hmem).resolve_left hinactive
      rw [heq] at hscore hbest hinactive
      refine hnot ⟨hgate, hne, hinactive, s, hscore, ?_⟩
      intro q hq t ht
      refine lt_of_le_of_ne (hbest q (mem_phrasesToScore.mpr (Or.inl hq)) t ht) ?_
      intro hkey
      have hsame : q = (matchContext lib m window).canonicalCandidate :=
        congrArg Prod.snd (candidateKey_injective hkey)
      exact hinactive (hsame ▸ hq)

end Matcher
end AvaListener
