import Mathlib.Algebra.Order.Ring.Rat
import Mathlib.Data.Char
import Mathlib.Data.List.Lex
import Mathlib.Data.List.MinMax
import Mathlib.Data.Prod.Lex
import Mathlib.Order.Lex
import AvaListener.Config.Defaults
import AvaListener.Matcher.Variants

/-!
# The wake phrase matcher

`runtime/matcher/evaluator.py`: the anchor gate, the weighted text of a window,
the score of one phrase, and `best_match`, which scores every active phrase and,
where the longest variant found belongs to another phrase, that phrase too.
-/

namespace AvaListener
namespace Matcher

open Library Config

/-- One `(text, stability)` pair of the rolling window. -/
structure Hypothesis where
  text : Text
  stability : ℕ
  deriving DecidableEq

variable (lib : TextLib)

/-! ## Gate 1: anchor presence -/

/-- All words before the last one. -/
def deriveContextWords (phrase : Text) : List Text :=
  (split (strip phrase)).dropLast

/-- The three tests `anchor_present` makes for one registered variant. -/
def anchorMatches (text variant : Text) : Bool :=
  let lowered := lib.lower text
  let tokens := split lowered
  let v := removeSpaces variant
  let textStripped := tokens.flatten
  (' ' ∈ variant ∧
      (gap tokens.length (split variant).length ≤ 2 ∧ occursIn variant lowered ∨
        gap textStripped.length v.length ≤ 3 ∧ occursIn v textStripped)) ∨
    (tokens.any fun tok =>
      let tokStripped := removeSpaces tok
      (occursIn v tokStripped || occursIn tokStripped v) ∧ gap tokStripped.length v.length ≤ 2) ∨
    (tokens.any fun tok =>
      gap tok.length v.length ≤ 2 ∧ jaroThreshold ≤ lib.jaroWinklerSimilarity tok v)

/-- Hard gate: some registered variant is recognisable in `text`. -/
def anchorPresent (m : MatcherState) (text : Text) : Bool :=
  m.getVariants.any (anchorMatches lib text)

/-! ## Gate 2: scoring -/

/-- Share of the context words of `phrase` present in `text`. -/
def contextScore (text phrase : Text) : ℚ :=
  let ctxWords := deriveContextWords phrase
  if ctxWords = [] then 1
  else (ctxWords.countP (· ∈ split (lib.lower text)) : ℚ) / ctxWords.length

/-- Share of the window with stability at least two. -/
def stabilityScore (window : List Hypothesis) : ℚ :=
  if window = [] then 0
  else (window.countP (2 ≤ ·.stability) : ℚ) / window.length

/-- Repetitions of one hypothesis in the combined text. -/
def stabilityWeight (stability : ℕ) : ℕ :=
  1 + min (stability / 2) 3

def buildWeightedText (window : List Hypothesis) : Text :=
  lib.lower (join [' '] (window.flatMap fun h => List.replicate (stabilityWeight h.stability) h.text))

/-- The longest registered variant occurring in the combined text or in a
single hypothesis; of equally long ones the first. -/
def findMatchedVariant (m : MatcherState) (combined : Text) (window : List Hypothesis) : Text :=
  let textsToCheck := combined :: window.map (·.text)
  m.getVariants.foldl (fun bestVariant variant =>
    if (textsToCheck.any fun text => occursIn variant (lib.lower text)) ∧
        bestVariant.length < variant.length then variant
    else bestVariant) []

/-- What `best_match` has computed before its loop over the phrases. -/
structure MatchContext where
  window : List Hypothesis
  combined : Text
  matchedVariant : Text
  /-- `""` when there is no canonical candidate. -/
  canonicalCandidate : Text

def matchContext (m : MatcherState) (window : List Hypothesis) : MatchContext :=
  let combined := buildWeightedText lib window
  let matchedVariant := findMatchedVariant lib m combined window
  { window := window
    combined := combined
    matchedVariant := matchedVariant
    canonicalCandidate :=
      if matchedVariant = [] then [] else (m.getCanonical lib matchedVariant).getD [] }

/-- Best of the three fuzzy signals for one phrase. -/
def fuzzyScore (ctx : MatchContext) (phrase : Text) : ℚ :=
  let fuzzyCombined := lib.tokenSetRatio ctx.combined (lib.lower phrase) / 100
  let fuzzyIndividual :=
    ((ctx.window.map fun h => lib.tokenSetRatio h.text (lib.lower phrase) / 100).max?).getD 0
  let fuzzyViaVariant :=
    if ctx.canonicalCandidate = phrase ∧ ctx.matchedVariant ≠ [] then
      lib.tokenSetRatio ctx.combined ctx.matchedVariant / 100 * 0.85
    else 0
  max (max fuzzyCombined fuzzyIndividual) fuzzyViaVariant

/-- One turn of the scoring loop; `none` where it `continue`s. -/
def scorePhrase (ctx : MatchContext) (phrase : Text) : Option ℚ :=
  let fuzzy := fuzzyScore lib ctx phrase
  if fuzzy < fuzzyThreshold / 100 then none
  else
    let score := fuzzy * weightMatch + contextScore lib ctx.combined phrase * weightContext
      + stabilityScore ctx.window * weightStability
    let candidateTokens := (ctx.window.flatMap fun h => split (lib.lower h.text)).dedup
    let phraseTokens := (split (lib.lower phrase)).dedup
    if candidateTokens.length < phraseTokens.length then
      if requireFullPhrase then none
      else if ¬ allowPrefixMatching then
        some (min score ((candidateTokens.length : ℚ) / phraseTokens.length))
      else some score
    else some score

/-- Sort key of a candidate: score, then length, then text. -/
def candidateKey (c : ℚ × Text) : ℚ ×ₗ ℕ ×ₗ Text :=
  toLex (c.1, toLex (c.2.length, c.2))

/-- The winning candidate.  A stable descending sort followed by `[0]` picks the
first candidate whose key is maximal, as does `max` with a key. -/
def resolvePhraseCandidate (candidates : List (ℚ × Text)) : Text :=
  match phrasePriorityMode with
  | .score => ((candidates.argmax Prod.fst).map Prod.snd).getD []
  | .longest | .canonical => ((candidates.argmax candidateKey).map Prod.snd).getD []

/-- The phrases the loop scores: all active ones, and the canonical candidate
where it is not among them. -/
def phrasesToScore (m : MatcherState) (ctx : MatchContext) : List Text :=
  if ctx.canonicalCandidate ≠ [] ∧ ctx.canonicalCandidate ∉ m.getActivePhrases then
    m.getActivePhrases ++ [ctx.canonicalCandidate]
  else m.getActivePhrases

def phraseCandidates (m : MatcherState) (ctx : MatchContext) : List (ℚ × Text) :=
  (phrasesToScore m ctx).filterMap fun phrase => (scorePhrase lib ctx phrase).map (·, phrase)

/-- `best_match`: `(best_score, canonical_phrase, matched_variant)`. -/
structure MatchResult where
  score : ℚ
  phrase : Text
  matchedVariant : Text
  deriving DecidableEq

def MatchResult.nothing : MatchResult := ⟨0, [], []⟩

/-- The gates in front of the scoring loop: a non-empty window, a non-empty
active list, and an anchor in the combined text. -/
def passesGates (m : MatcherState) (window : List Hypothesis) : Bool :=
  window ≠ [] ∧ m.getActivePhrases ≠ [] ∧ anchorPresent lib m (buildWeightedText lib window)

def bestMatch (m : MatcherState) (window : List Hypothesis) : MatchResult :=
  if passesGates lib m window then
    let ctx := matchContext lib m window
    let candidates := phraseCandidates lib m ctx
    { score := ((candidates.map Prod.fst).max?).getD 0
      phrase := resolvePhraseCandidate candidates
      matchedVariant := ctx.matchedVariant }
  else .nothing

end Matcher
end AvaListener
