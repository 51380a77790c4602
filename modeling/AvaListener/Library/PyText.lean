import Mathlib.Data.List.Infix
import Mathlib.Data.List.TakeWhile

/-!
# Text operations of the host language

Strings are lists of Unicode scalar values.  The operations are the ones the
modelled programs call: `str.strip`, `str.split`, `sep.join`, `str.startswith`,
substring search and `str.splitlines`, with the documented white-space and
line-boundary sets.
-/

namespace AvaListener
namespace Library

/-- A string as the sequence of its characters. -/
abbrev Text := List Char

instance : LawfulBEq Text := inferInstance

/-- `str.isspace` on one character: the characters `str.strip` and `str.split`
remove. -/
def isSpace (c : Char) : Bool :=
  c ∈ [' ', '\t', '\n', '\u000b', '\u000c', '\r', '\u001c', '\u001d', '\u001e', '\u001f',
    '\u0085', '\u00a0', '\u1680', '\u2000', '\u2001', '\u2002', '\u2003', '\u2004', '\u2005',
    '\u2006', '\u2007', '\u2008', '\u2009', '\u200a', '\u2028', '\u2029', '\u202f', '\u205f',
    '\u3000']

/-- The line boundaries of `str.splitlines`. -/
def isLineBreak (c : Char) : Bool :=
  c ∈ ['\n', '\r', '\u000b', '\u000c', '\u001c', '\u001d', '\u001e', '\u0085', '\u2028',
    '\u2029']

/-- `s.strip()`. -/
def strip (s : Text) : Text :=
  ((s.dropWhile isSpace).reverse.dropWhile isSpace).reverse

/-- `s.split()`: maximal runs of non-space characters. -/
def split (s : Text) : List Text :=
  (s.splitOnP isSpace).filter (· ≠ [])

/-- `s.splitlines()`, up to empty lines, which no caller keeps. -/
def splitLines (s : Text) : List Text :=
  s.splitOnP isLineBreak

/-- `sep.join(parts)`. -/
def join (sep : Text) (parts : List Text) : Text :=
  sep.intercalate parts

/-- `s.replace(" ", "")`. -/
def removeSpaces (s : Text) : Text :=
  s.filter (· ≠ ' ')

/-- `needle in s`. -/
def occursIn (needle s : Text) : Bool :=
  needle <:+: s

/-- `s.startswith(head)`. -/
def startsWith (s head : Text) : Bool :=
  head <+: s

/-- `abs(a - b)` on lengths. -/
def gap (a b : ℕ) : ℕ :=
  ((a : ℤ) - b).natAbs

/-- A text with no white space at either end is its own `strip`. -/
theorem strip_eq_self {s : Text} (hhead : ∀ c ∈ s.head?, isSpace c = false)
    (hlast : ∀ c ∈ s.getLast?, isSpace c = false) : strip s = s := by
  cases s with
  | nil => rfl
  | cons c rest =>
      have hc : isSpace c = false := hhead c (by simp)
      have hdrop : (c :: rest).dropWhile isSpace = c :: rest := by simp [hc]
      rw [strip, hdrop]
      have hrev : ((c :: rest).reverse).dropWhile isSpace = (c :: rest).reverse := by
        cases hr : (c :: rest).reverse with
        | nil => simp
        | cons d tail =>
            have hd : isSpace d = false := by
              refine hlast d ?_
              rw [← List.head?_reverse, hr]
              rfl
            simp [hd]
      rw [hrev, List.reverse_reverse]

/-- Stripping twice is stripping once. -/
theorem strip_strip (s : Text) : strip (strip s) = strip s := by
  refine strip_eq_self ?_ ?_
  · intro c hc
    have hstart : strip s <+: s.dropWhile isSpace := by
      rw [strip, ← List.reverse_suffix, List.reverse_reverse]
      exact List.dropWhile_suffix isSpace
    obtain ⟨rest, hrest⟩ := hstart
    have hhead : (s.dropWhile isSpace).head? = some c := by
      rw [← hrest, List.head?_append, hc]
      rfl
    have hfirst := List.head?_dropWhile_not isSpace s
    rw [hhead] at hfirst
    simpa using hfirst
  · intro c hc
    rw [strip, List.getLast?_reverse] at hc
    have hfirst := List.head?_dropWhile_not isSpace (s.dropWhile isSpace).reverse
    rw [hc] at hfirst
    simpa using hfirst

/-- White space in front is stripped. -/
theorem strip_append_of_space {lead s : Text} (h : ∀ c ∈ lead, isSpace c = true) :
    strip (lead ++ s) = strip s := by
  rw [strip, strip, List.dropWhile_append_of_pos h]

/-- White space behind is stripped. -/
theorem strip_append_of_space_right {s tail : Text} (h : ∀ c ∈ tail, isSpace c = true) :
    strip (s ++ tail) = strip s := by
  have hrev : ∀ c ∈ tail.reverse, isSpace c = true := by simpa using h
  have hcore : ∀ body : Text, ((body ++ tail).reverse.dropWhile isSpace)
      = body.reverse.dropWhile isSpace := by
    intro body
    rw [List.reverse_append, List.dropWhile_append_of_pos hrev]
  by_cases hall : ∀ c ∈ s, isSpace c = true
  · have hboth : ∀ c ∈ s ++ tail, isSpace c = true := by
      intro c hc
      rcases List.mem_append.mp hc with hc | hc
      · exact hall c hc
      · exact h c hc
    rw [strip, strip, List.dropWhile_eq_nil_iff.mpr hboth, List.dropWhile_eq_nil_iff.mpr hall]
  · have hdrop : (s ++ tail).dropWhile isSpace = s.dropWhile isSpace ++ tail := by
      rw [List.dropWhile_append]
      have hne : (s.dropWhile isSpace).isEmpty = false := by
        cases hs : s.dropWhile isSpace with
        | nil => exact absurd (List.dropWhile_eq_nil_iff.mp hs) hall
        | cons _ _ => rfl
      simp [hne]
    rw [strip, strip, hdrop, hcore]

/-- A text is its `strip` with white space on both sides. -/
theorem exists_eq_append_strip (s : Text) :
    ∃ lead trail, s = lead ++ strip s ++ trail ∧ (∀ c ∈ lead, isSpace c = true) ∧
      ∀ c ∈ trail, isSpace c = true := by
  have hback : s.dropWhile isSpace =
      strip s ++ ((s.dropWhile isSpace).reverse.takeWhile isSpace).reverse := by
    rw [strip, ← List.reverse_append, List.takeWhile_append_dropWhile, List.reverse_reverse]
  refine ⟨s.takeWhile isSpace, ((s.dropWhile isSpace).reverse.takeWhile isSpace).reverse,
    ?_, ?_, ?_⟩
  · rw [List.append_assoc, ← hback, List.takeWhile_append_dropWhile]
  · exact fun c hc => List.mem_takeWhile_imp hc
  · exact fun c hc => List.mem_takeWhile_imp (List.mem_reverse.mp hc)

/-- Stripping only removes characters at the two ends. -/
theorem strip_isInfix (s : Text) : strip s <:+: s := by
  have hleft : s.dropWhile isSpace <:+ s := List.dropWhile_suffix isSpace
  have hright : strip s <+: s.dropWhile isSpace := by
    rw [strip, ← List.reverse_suffix, List.reverse_reverse]
    exact List.dropWhile_suffix isSpace
  exact hright.isInfix.trans hleft.isInfix

/-- The first piece of a split is a prefix, the others are inner pieces, and no
piece contains a separator. -/
theorem splitOnP_pieces (p : Char → Bool) (s : Text) :
    ∃ first rest, s.splitOnP p = first :: rest ∧ first <+: s ∧
      (∀ piece ∈ rest, piece <:+: s) ∧ ∀ piece ∈ first :: rest, ∀ c ∈ piece, p c = false := by
  induction s with
  | nil => exact ⟨[], [], by simp, by simp, by simp, by simp⟩
  | cons x xs ih =>
      obtain ⟨first, rest, hsplit, hfirst, hrest, hclean⟩ := ih
      rw [List.splitOnP_cons_eq_if_modifyHead, hsplit]
      by_cases hx : p x = true
      · refine ⟨[], first :: rest, by simp [hx], List.nil_prefix, ?_, ?_⟩
        · intro piece hpiece
          rcases List.mem_cons.mp hpiece with rfl | hpiece
          · exact hfirst.isInfix.trans (List.suffix_cons x xs).isInfix
          · exact (hrest piece hpiece).trans (List.suffix_cons x xs).isInfix
        · intro piece hpiece
          rcases List.mem_cons.mp hpiece with rfl | hpiece
          · simp
          · exact hclean piece hpiece
      · have hxFalse : p x = false := by simpa using hx
        refine ⟨x :: first, rest, by simp [hxFalse], ?_, ?_, ?_⟩
        · exact List.prefix_cons_inj x |>.mpr hfirst
        · intro piece hpiece
          exact (hrest piece hpiece).trans (List.suffix_cons x xs).isInfix
        · intro piece hpiece c hc
          rcases List.mem_cons.mp hpiece with rfl | hpiece
          · rcases List.mem_cons.mp hc with rfl | hc
            · exact hxFalse
            · exact hclean first (List.mem_cons_self ..) c hc
          · exact hclean piece (List.mem_cons_of_mem _ hpiece) c hc

/-- Every line is an unbroken piece of the text. -/
theorem mem_splitLines {s line : Text} (h : line ∈ splitLines s) :
    line <:+: s ∧ ∀ c ∈ line, isLineBreak c = false := by
  obtain ⟨first, rest, hsplit, hfirst, hrest, hclean⟩ := splitOnP_pieces isLineBreak s
  rw [splitLines, hsplit] at h
  refine ⟨?_, hclean line h⟩
  rcases List.mem_cons.mp h with rfl | h
  · exact hfirst.isInfix
  · exact hrest line h

/-! ## Words of joined texts -/

@[simp] theorem split_nil : split [] = [] := by
  simp [split]

/-- A white-space character separates the words on its two sides. -/
theorem split_append_cons {c : Char} (hc : isSpace c = true) (a b : Text) :
    split (a ++ c :: b) = split a ++ split b := by
  rw [split, List.splitOnP_append_cons a b hc, List.filter_append]
  rfl

theorem join_cons_cons (sep a b : Text) (rest : List Text) :
    join sep (a :: b :: rest) = a ++ sep ++ join sep (b :: rest) :=
  List.intercalate_cons_cons

@[simp] theorem join_singleton (sep a : Text) : join sep [a] = a :=
  List.intercalate_singleton

/-- The words of texts joined by a blank are the words of the texts, in order. -/
theorem split_join (parts : List Text) : split (join [' '] parts) = parts.flatMap split := by
  induction parts with
  | nil => simp [join]
  | cons part rest ih =>
      cases rest with
      | nil => simp
      | cons next rest =>
          rw [join_cons_cons, List.append_assoc, List.singleton_append,
            split_append_cons (by decide), ih]
          rfl

/-- A word holds no white space. -/
theorem isSpace_of_mem_split {s word : Text} (h : word ∈ split s) :
    ∀ c ∈ word, isSpace c = false := by
  obtain ⟨first, rest, hpieces, -, -, hclean⟩ := splitOnP_pieces isSpace s
  rw [split, hpieces] at h
  exact hclean word (List.mem_of_mem_filter h)

theorem removeSpaces_of_mem_split {s word : Text} (h : word ∈ split s) :
    removeSpaces word = word := by
  rw [removeSpaces, List.filter_eq_self]
  intro c hc
  rw [decide_eq_true_eq]
  rintro rfl
  have hfalse := isSpace_of_mem_split h ' ' hc
  revert hfalse
  decide

/-- A text with a character that is no white space has a word. -/
theorem split_ne_nil {s : Text} {c : Char} (hmem : c ∈ s) (hc : isSpace c = false) :
    split s ≠ [] := by
  induction s with
  | nil => cases hmem
  | cons x xs ih =>
      by_cases hx : isSpace x = true
      · have hsplit : split (x :: xs) = split xs := by
          simpa using split_append_cons hx [] xs
        rw [hsplit]
        refine ih ?_
        rcases List.mem_cons.mp hmem with rfl | hrest
        · rw [hx] at hc
          cases hc
        · exact hrest
      · -- The word that starts with `x` is not empty.
        obtain ⟨first, rest, hpieces⟩ :=
          List.exists_cons_of_ne_nil (List.splitOnP_ne_nil isSpace xs)
        rw [split, List.splitOnP_cons_eq_if_modifyHead, if_neg hx, hpieces]
        simp

theorem exists_of_split_ne_nil {s : Text} (h : split s ≠ []) : ∃ c ∈ s, isSpace c = false := by
  by_contra hnone
  have hspace : ∀ c ∈ s, isSpace c = true := by
    intro c hc
    by_contra hfalse
    exact hnone ⟨c, hc, eq_false_of_ne_true hfalse⟩
  apply h
  clear h hnone
  induction s with
  | nil => exact split_nil
  | cons c s ih =>
      obtain ⟨hc, hs⟩ := List.forall_mem_cons.mp hspace
      have hsplit : split (c :: s) = split s := by
        simpa using split_append_cons hc [] s
      rw [hsplit, ih hs]

/-- A stripped text that is not empty has a word: its last character is no white
space. -/
theorem split_strip_ne_nil {s : Text} (h : strip s ≠ []) : split (strip s) ≠ [] := by
  have hdrop : (s.dropWhile isSpace).reverse.dropWhile isSpace ≠ [] := by
    intro hnil
    exact h (by rw [strip, hnil, List.reverse_nil])
  refine split_ne_nil (c := ((s.dropWhile isSpace).reverse.dropWhile isSpace).head hdrop) ?_ ?_
  · rw [strip, List.mem_reverse]
    exact List.head_mem hdrop
  · exact List.head_dropWhile_not isSpace hdrop

/-- A prefix without the separator ends before it. -/
theorem prefix_of_prefix_append_cons {v a b : Text} {c : Char} (hc : c ∉ v)
    (h : v <+: a ++ c :: b) : v <+: a := by
  rcases List.prefix_or_prefix_of_prefix h (List.prefix_append a (c :: b)) with hv | ⟨rest, rfl⟩
  · exact hv
  · -- What is left of the prefix would begin with the separator.
    have hrest : rest <+: c :: b := (List.prefix_append_right_inj a).mp h
    cases rest with
    | nil => rw [List.append_nil]
    | cons d rest =>
        obtain ⟨rfl, -⟩ := List.cons_prefix_cons.mp hrest
        exact absurd (by simp) hc

/-- What holds no separator occurs on one side of it. -/
theorem infix_append_cons_iff {v a b : Text} {c : Char} (hc : c ∉ v) :
    v <:+: a ++ c :: b ↔ v <:+: a ∨ v <:+: b := by
  constructor
  · induction a with
    | nil =>
        rw [List.nil_append, List.infix_cons_iff]
        rintro (hstart | hinfix)
        · exact Or.inl (prefix_of_prefix_append_cons (a := []) hc hstart).isInfix
        · exact Or.inr hinfix
    | cons x a ih =>
        rw [List.cons_append, List.infix_cons_iff, List.infix_cons_iff]
        rintro (hstart | hinfix)
        · exact Or.inl (Or.inl (prefix_of_prefix_append_cons (a := x :: a) hc hstart))
        · exact (ih hinfix).imp_left Or.inr
  · rintro (hleft | hright)
    · exact hleft.trans (List.infix_append_left ..)
    · exact hright.trans ((List.suffix_cons c b).isInfix.trans (List.infix_append_right ..))

/-- What holds no blank occurs in texts joined by blanks exactly when it occurs in
one of them. -/
theorem occursIn_join_iff {v : Text} (hne : v ≠ []) (hblank : ' ' ∉ v) (parts : List Text) :
    occursIn v (join [' '] parts) = true ↔ ∃ part ∈ parts, occursIn v part = true := by
  simp only [occursIn, decide_eq_true_eq]
  induction parts with
  | nil => simp [join, hne]
  | cons part rest ih =>
      cases rest with
      | nil => simp
      | cons next rest =>
          rw [join_cons_cons, List.append_assoc, List.singleton_append,
            infix_append_cons_iff hblank, ih]
          exact (List.exists_mem_cons_iff ..).symm

end Library
end AvaListener
