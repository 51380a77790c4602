import Mathlib.Algebra.Order.Ring.Rat
import Mathlib.Data.Char
import Mathlib.Data.List.Lex
import Mathlib.Data.List.Sort
import AvaListener.Matcher.PhraseRegistry

/-!
# The matcher's library functions on ASCII text

A computable `TextLib`: lower-casing of ASCII letters, the Jaro–Winkler
similarity and the token-set ratio over the indel distance.  The theorems of the
development hold for every `TextLib`; this one is for running the engine.
-/

namespace AvaListener
namespace Matcher
namespace AsciiText

open Library

/-! ## Jaro–Winkler -/

/-- One character of the first text against the second one: the first unflagged
equal character within the search range is flagged. -/
def flagMatch (t : Text) (range i : ℕ) (c : Char) (flags : List Bool) : Option ℕ :=
  (List.range t.length).find? fun j =>
    i ≤ j + range ∧ j ≤ i + range ∧ flags[j]? = some false ∧ t[j]? = some c

/-- The flags of both texts after all characters of the first one. -/
def flagMatches (s t : Text) (range : ℕ) : List Bool × List Bool :=
  s.zipIdx.foldl (fun (done : List Bool × List Bool) (c, i) =>
    match flagMatch t range i c done.2 with
    | some j => (done.1 ++ [true], done.2.set j true)
    | none => (done.1 ++ [false], done.2)) ([], List.replicate t.length false)

/-- The characters whose flag is set. -/
def flagged (s : Text) (flags : List Bool) : Text :=
  ((s.zip flags).filter (·.2)).map (·.1)

def jaroSimilarity (s t : Text) : ℚ :=
  let flags := flagMatches s t (max s.length t.length / 2 - 1)
  let commonS := flagged s flags.1
  let commonT := flagged t flags.2
  let common : ℚ := commonS.length
  if commonS = [] then 0
  else
    let transpositions := ((commonS.zip commonT).countP fun p => p.1 ≠ p.2) / 2
    (common / s.length + common / t.length + (common - transpositions) / common) / 3

/-- Jaro similarity, boosted by a common prefix of up to four characters. -/
def jaroWinklerSimilarity (s t : Text) : ℚ :=
  let weight := jaroSimilarity s t
  let prefixLength := (((s.zip t).take 4).takeWhile fun p => p.1 = p.2).length
  if 0.7 < weight then weight + prefixLength * 0.1 * (1 - weight) else weight

/-! ## Token sets -/

/-- The next row of the longest-common-subsequence table. -/
def lcsRow (c : Char) : ℕ → ℕ → Text → List ℕ → List ℕ
  | diagonal, left, d :: t, up :: row =>
      let cell := if c = d then diagonal + 1 else max up left
      cell :: lcsRow c up cell t row
  | _, _, _, _ => []

def lcsLength (s t : Text) : ℕ :=
  ((s.foldl (fun row c => lcsRow c 0 0 t row) (List.replicate t.length 0)).getLast?).getD 0

/-- Insertions and deletions that turn one text into the other. -/
def indelDistance (s t : Text) : ℕ :=
  s.length + t.length - 2 * lcsLength s t

/-- A distance as a percentage of the largest possible one, reversed. -/
def normDistance (dist total : ℕ) : ℚ :=
  if total = 0 then 100 else 100 - 100 * dist / total

def tokenSetRatio (s t : Text) : ℚ :=
  let tokensA := (split s).dedup
  let tokensB := (split t).dedup
  let intersect := tokensA.filter (· ∈ tokensB)
  let diffAB := tokensA.filter (· ∉ tokensB)
  let diffBA := tokensB.filter (· ∉ tokensA)
  if tokensA = [] ∨ tokensB = [] then 0
  else if intersect ≠ [] ∧ (diffAB = [] ∨ diffBA = []) then 100
  else
    let joinedAB := join [' '] (diffAB.insertionSort (· ≤ ·))
    let joinedBA := join [' '] (diffBA.insertionSort (· ≤ ·))
    let sectLength := (join [' '] intersect).length
    let gapLength := if sectLength = 0 then 0 else 1
    let lengthAB := sectLength + gapLength + joinedAB.length
    let lengthBA := sectLength + gapLength + joinedBA.length
    let ratio := normDistance (indelDistance joinedAB joinedBA) (lengthAB + lengthBA)
    if sectLength = 0 then ratio
    else
      max ratio (max (normDistance (gapLength + joinedAB.length) (sectLength + lengthAB))
        (normDistance (gapLength + joinedBA.length) (sectLength + lengthBA)))

/-- The library functions on ASCII text. -/
def lib : TextLib where
  lower := List.map Char.toLower
  jaroWinklerSimilarity := jaroWinklerSimilarity
  tokenSetRatio := tokenSetRatio

/-! ## A shipped profile -/

/-- The wake phrases of `profiles/custom.json`. -/
def customWakePhrases : List PhraseEntry :=
  [{ phraseId := "custom_core".toList
     phrase := "hey assistant".toList
     variants := ["hey assistant".toList, "hey assist".toList]
     threshold := 0.72 }]

end AsciiText
end Matcher
end AvaListener
