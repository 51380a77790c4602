import Mathlib.Data.List.Dedup
import Mathlib.Tactic.FinCases
import AvaListener.Matcher.AsciiText
import AvaListener.Matcher.Evaluator

/-!
# Token sets

`token_set_ratio` reads its arguments as sets of words, and lower-casing works
word by word.  `TokenSetLaws` says so of a `TextLib`; under it the combined text
of a window, which repeats each hypothesis by its stability, has the words of
the hypotheses, whatever the stabilities are.

The ASCII library satisfies the laws.
-/

namespace AvaListener
namespace Matcher

open Library

/-- The same set of words. -/
def SameTokens (a b : Text) : Prop :=
  ∀ t, t ∈ split a ↔ t ∈ split b

theorem SameTokens.refl (a : Text) : SameTokens a a :=
  fun _ => Iff.rfl

/-- What the matcher relies on of `str.lower` and `token_set_ratio`. -/
structure TokenSetLaws (lib : TextLib) : Prop where
  lower_nil : lib.lower [] = []
  /-- White space has no case, and no casing rule looks across it. -/
  lower_append_cons : ∀ {c : Char}, isSpace c = true → ∀ a b : Text,
    lib.lower (a ++ c :: b) = lib.lower a ++ c :: lib.lower b
  tokenSetRatio_congr : ∀ {a a' b b' : Text}, SameTokens a a' → SameTokens b b' →
    lib.tokenSetRatio a b = lib.tokenSetRatio a' b'

theorem TokenSetLaws.lower_join {lib : TextLib} (laws : TokenSetLaws lib) (parts : List Text) :
    lib.lower (join [' '] parts) = join [' '] (parts.map lib.lower) := by
  induction parts with
  | nil => exact laws.lower_nil
  | cons part rest ih =>
      cases rest with
      | nil => simp
      | cons next rest =>
          simp only [List.map_cons] at ih ⊢
          rw [join_cons_cons, join_cons_cons, List.append_assoc, List.append_assoc,
            List.singleton_append, List.singleton_append, laws.lower_append_cons (by decide), ih]

section CombinedText

variable {lib : TextLib}

/-- The words of a joined and lowered list of texts are those of the lowered
texts. -/
theorem mem_split_lower_join (laws : TokenSetLaws lib) {parts : List Text} {t : Text} :
    t ∈ split (lib.lower (join [' '] parts)) ↔ ∃ part ∈ parts, t ∈ split (lib.lower part) := by
  rw [laws.lower_join, split_join, List.flatMap_map, List.mem_flatMap]

theorem stabilityWeight_pos (stability : ℕ) : 0 < stabilityWeight stability := by
  unfold stabilityWeight
  omega

/-- The texts the combined text is joined from, without their repetitions. -/
theorem mem_weightedParts {window : List Hypothesis} {text : Text} :
    text ∈ (window.flatMap fun h => List.replicate (stabilityWeight h.stability) h.text) ↔
      text ∈ window.map (·.text) := by
  have hpos : ∀ h : Hypothesis, stabilityWeight h.stability ≠ 0 := fun h =>
    (stabilityWeight_pos h.stability).ne'
  simp only [List.mem_flatMap, List.mem_replicate, List.mem_map]
  constructor
  · rintro ⟨h, hmem, -, rfl⟩
    exact ⟨h, hmem, rfl⟩
  · rintro ⟨h, hmem, rfl⟩
    exact ⟨h, hmem, hpos h, rfl⟩

theorem mem_split_buildWeightedText (laws : TokenSetLaws lib) {window : List Hypothesis}
    {t : Text} :
    t ∈ split (buildWeightedText lib window) ↔
      ∃ text ∈ window.map (·.text), t ∈ split (lib.lower text) := by
  rw [buildWeightedText, mem_split_lower_join laws]
  simp only [mem_weightedParts]

/-- `anchor_present` lowers the combined text once more. -/
theorem mem_split_lower_buildWeightedText (laws : TokenSetLaws lib) {window : List Hypothesis}
    {t : Text} :
    t ∈ split (lib.lower (buildWeightedText lib window)) ↔
      ∃ text ∈ window.map (·.text), t ∈ split (lib.lower (lib.lower text)) := by
  rw [buildWeightedText, laws.lower_join, mem_split_lower_join laws]
  simp only [List.mem_map, mem_weightedParts]
  constructor
  · rintro ⟨-, ⟨text, hmem, rfl⟩, ht⟩
    exact ⟨text, hmem, ht⟩
  · rintro ⟨text, hmem, ht⟩
    exact ⟨lib.lower text, ⟨text, hmem, rfl⟩, ht⟩

end CombinedText

namespace AsciiText

/-- The length of joined texts does not depend on their order. -/
theorem length_join (parts : List Text) :
    (join [' '] parts).length = parts.flatten.length + (parts.length - 1) := by
  induction parts with
  | nil => rfl
  | cons part rest ih =>
      cases rest with
      | nil => simp
      | cons next rest =>
          rw [join_cons_cons, List.length_append, List.length_append, ih]
          simp only [List.length_cons, List.length_nil, List.flatten_cons, List.length_append]
          omega

theorem length_join_perm {parts parts' : List Text} (h : parts.Perm parts') :
    (join [' '] parts).length = (join [' '] parts').length := by
  rw [length_join, length_join, h.length_eq, h.flatten.length_eq]

theorem insertionSort_perm {parts parts' : List Text} (h : parts.Perm parts') :
    parts.insertionSort (· ≤ ·) = parts'.insertionSort (· ≤ ·) := by
  refine List.Perm.eq_of_pairwise' (r := (· ≤ ·)) (List.pairwise_insertionSort _ _)
    (List.pairwise_insertionSort _ _) ?_
  exact (List.perm_insertionSort _ _).trans (h.trans (List.perm_insertionSort _ _).symm)

theorem dedup_perm {a a' : Text} (h : SameTokens a a') :
    (split a).dedup.Perm (split a').dedup := by
  rw [List.perm_ext_iff_of_nodup (List.nodup_dedup _) (List.nodup_dedup _)]
  intro t
  rw [List.mem_dedup, List.mem_dedup]
  exact h t

theorem filter_perm {l l' k k' : List Text} (h : l.Perm l') (hk : k.Perm k') :
    (l.filter (· ∈ k)).Perm (l'.filter (· ∈ k')) ∧
      (l.filter (· ∉ k)).Perm (l'.filter (· ∉ k')) := by
  have hmem : ∀ t, t ∈ k ↔ t ∈ k' := fun t => hk.mem_iff
  simp only [hmem]
  exact ⟨h.filter _, h.filter _⟩

theorem tokenSetRatio_congr {a a' b b' : Text} (ha : SameTokens a a') (hb : SameTokens b b') :
    tokenSetRatio a b = tokenSetRatio a' b' := by
  obtain ⟨hboth, honlyA⟩ := filter_perm (dedup_perm ha) (dedup_perm hb)
  obtain ⟨-, honlyB⟩ := filter_perm (dedup_perm hb) (dedup_perm ha)
  have hnil : ∀ {l l' : List Text}, l.Perm l' → (l = [] ↔ l' = []) := by
    intro l l' h
    exact ⟨fun hl => (hl ▸ h).nil_eq.symm, fun hl => (hl ▸ h.symm).nil_eq.symm⟩
  simp only [tokenSetRatio, ne_eq, hnil (dedup_perm ha), hnil (dedup_perm hb), hnil hboth,
    hnil honlyA, hnil honlyB, length_join_perm hboth, insertionSort_perm honlyA,
    insertionSort_perm honlyB]

theorem toLower_of_isSpace {c : Char} (h : isSpace c = true) : c.toLower = c := by
  have hmem := of_decide_eq_true h
  fin_cases hmem <;> rfl

/-- The ASCII library reads texts as token sets. -/
theorem lib_tokenSetLaws : TokenSetLaws lib where
  lower_nil := rfl
  lower_append_cons := by
    intro c hc a b
    show (a ++ c :: b).map Char.toLower = a.map Char.toLower ++ c :: b.map Char.toLower
    rw [List.map_append, List.map_cons, toLower_of_isSpace hc]
  tokenSetRatio_congr := tokenSetRatio_congr

end AsciiText

end Matcher
end AvaListener
