import Mathlib.Data.List.Infix
import Mathlib.Data.List.TakeWhile

/-!
# Searching a text that comes in pieces

Lists over any type, split at separators or cut at arbitrary places.

* `mem_splitOnP_iff`: the pieces of a split are the runs without a separator that cannot be
  extended on either side.
* `Once`: a pattern with a single occurrence.  Of a text that is cut into chunks, a chunk that
  shows the pattern shows the one occurrence, and so fixes what is around it
  (`Once.of_chunk`).
* `findSome?_eq_some_of_forall`: a search whose hits all agree finds what they agree on.
-/

namespace AvaListener
namespace Library

variable {α β : Type*}

/-! ## Splitting -/

theorem head?_dropWhile_sep (p : α → Bool) (xs : List α) :
    ∀ x ∈ (xs.dropWhile fun y => !p y).head?, p x = true := by
  intro x hx
  have hhead := List.head?_dropWhile_not (fun y => !p y) xs
  rw [Option.mem_def.mp hx] at hhead
  simpa using hhead

/-- Between a piece and its neighbours there is a separator. -/
theorem mem_splitOnP_iff {p : α → Bool} {text piece : List α} :
    piece ∈ text.splitOnP p ↔ (∀ x ∈ piece, p x = false) ∧
      ∃ before after, text = before ++ piece ++ after ∧
        (∀ x ∈ before.getLast?, p x = true) ∧ ∀ x ∈ after.head?, p x = true := by
  constructor
  · intro hmem
    induction hlength : text.length using Nat.strong_induction_on generalizing text with
    | _ n ih =>
        by_cases hclean : ∀ x ∈ text, p x = false
        · rw [List.splitOnP_eq_singleton hclean, List.mem_singleton] at hmem
          subst hmem
          exact ⟨hclean, [], [], by simp, by simp, by simp⟩
        · -- Up to the first separator there is a piece, and behind it the shorter text.
          obtain ⟨x, hx, hsep⟩ : ∃ x ∈ text, p x = true := by simpa using hclean
          obtain ⟨sep, rest, hdrop⟩ : ∃ sep rest, text.dropWhile (fun y => !p y) = sep :: rest := by
            refine List.exists_cons_of_ne_nil fun hnil => ?_
            have hall := List.dropWhile_eq_nil_iff.mp hnil x hx
            simp [hsep] at hall
          have hcut : text.takeWhile (fun y => !p y) ++ sep :: rest = text := by
            rw [← hdrop, List.takeWhile_append_dropWhile]
          have hfirst : ∀ y ∈ text.takeWhile (fun y => !p y), p y = false := by
            intro y hy
            simpa using List.mem_takeWhile_imp hy
          have hsepTrue : p sep = true :=
            head?_dropWhile_sep p text sep (by rw [hdrop]; rfl)
          rw [← hcut, List.splitOnP_append_cons_of_forall_mem hfirst sep hsepTrue,
            List.mem_cons] at hmem
          rcases hmem with rfl | hmem
          · exact ⟨hfirst, [], sep :: rest, by simp [hcut], by simp, by simp [hsepTrue]⟩
          · have hshorter : rest.length < n := by
              have hlen := congrArg List.length hcut
              simp only [List.length_append, List.length_cons] at hlen
              omega
            obtain ⟨hpiece, before, after, hrest, hbefore, hafter⟩ := ih _ hshorter hmem rfl
            refine ⟨hpiece, text.takeWhile (fun y => !p y) ++ sep :: before, after, ?_, ?_, hafter⟩
            · conv_lhs => rw [← hcut, hrest]
              simp
            · intro y hy
              rw [List.getLast?_append_cons, List.getLast?_cons] at hy
              cases hlast : before.getLast? with
              | none =>
                  rw [hlast] at hy
                  obtain rfl := Option.some.inj hy
                  exact hsepTrue
              | some z =>
                  rw [hlast] at hy
                  obtain rfl := Option.some.inj hy
                  exact hbefore z hlast
  · rintro ⟨hpiece, before, after, rfl, hbefore, hafter⟩
    have htail : piece ∈ (piece ++ after).splitOnP p := by
      cases after with
      | nil =>
          rw [List.append_nil, List.splitOnP_eq_singleton hpiece]
          exact List.mem_singleton_self piece
      | cons sep rest =>
          rw [List.splitOnP_append_cons_of_forall_mem hpiece sep (hafter sep rfl)]
          exact List.mem_cons_self ..
    rcases List.eq_nil_or_concat before with rfl | ⟨start, sep, rfl⟩
    · exact htail
    · rw [List.concat_eq_append] at hbefore ⊢
      rw [List.append_assoc, List.append_assoc, List.singleton_append,
        List.splitOnP_append_cons _ _ (hbefore sep (by simp))]
      exact List.mem_append_right _ htail

/-- A run without separators is inside one piece, and what follows it there is what
follows it in the text, up to a separator. -/
theorem exists_piece {p : α → Bool} {run : List α} (hrun : ∀ x ∈ run, p x = false)
    (before after : List α) :
    ∃ start, start ++ run ++ (after.takeWhile fun x => !p x) ∈
      (before ++ run ++ after).splitOnP p := by
  have hclean : ∀ (xs : List α), ∀ x ∈ xs.takeWhile (fun y => !p y), p x = false := by
    intro xs x hx
    simpa using List.mem_takeWhile_imp hx
  refine ⟨(before.reverse.takeWhile fun x => !p x).reverse, mem_splitOnP_iff.mpr ⟨?_,
    (before.reverse.dropWhile fun x => !p x).reverse, after.dropWhile fun x => !p x, ?_, ?_,
    head?_dropWhile_sep p after⟩⟩
  · intro x hx
    rcases List.mem_append.mp hx with hx | hx
    · rcases List.mem_append.mp hx with hx | hx
      · exact hclean _ x (List.mem_reverse.mp hx)
      · exact hrun x hx
    · exact hclean _ x hx
  · have hbefore : (before.reverse.dropWhile fun x => !p x).reverse ++
        (before.reverse.takeWhile fun x => !p x).reverse = before := by
      rw [← List.reverse_append, List.takeWhile_append_dropWhile, List.reverse_reverse]
    have hafter := List.takeWhile_append_dropWhile (p := fun x => !p x) (l := after)
    conv_lhs => rw [← hbefore, ← hafter]
    simp only [List.append_assoc]
  · rw [List.getLast?_reverse]
    exact head?_dropWhile_sep p before.reverse

/-! ## Prefixes of runs -/

theorem takeWhile_append_of_head {p : α → Bool} (xs : List α) {ys : List α}
    (h : ∀ y ∈ ys.head?, p y = false) : (xs ++ ys).takeWhile p = xs.takeWhile p := by
  induction xs with
  | nil =>
      cases ys with
      | nil => rfl
      | cons y ys => simp [h y rfl]
  | cons x xs ih => simp only [List.cons_append, List.takeWhile_cons, ih]

theorem takeWhile_prefix_append {p : α → Bool} (xs ys : List α) :
    xs.takeWhile p <+: (xs ++ ys).takeWhile p := by
  induction xs with
  | nil => exact List.nil_prefix
  | cons x xs ih =>
      rw [List.cons_append, List.takeWhile_cons, List.takeWhile_cons]
      split
      · exact (List.prefix_cons_inj x).mpr ih
      · exact List.prefix_rfl

/-! ## Patterns that occur once -/

/-- The pattern occurs in the text, and only behind `before`. -/
def Once (pattern text before : List α) : Prop :=
  ∀ a b, text = a ++ pattern ++ b → a = before

theorem once_iff {pattern text before : List α} :
    Once pattern text before ↔
      ∀ k ≤ text.length, pattern <+: text.drop k → text.take k = before := by
  constructor
  · rintro h k - ⟨rest, hrest⟩
    refine h (text.take k) rest ?_
    rw [List.append_assoc, hrest, List.take_append_drop]
  · rintro h a b rfl
    have hdrop : (a ++ pattern ++ b).drop a.length = pattern ++ b := by
      rw [List.append_assoc, List.drop_left]
    have htake := h a.length (by simp) (hdrop ▸ List.prefix_append pattern b)
    rwa [List.append_assoc, List.take_left] at htake

instance [DecidableEq α] (pattern text before : List α) : Decidable (Once pattern text before) :=
  decidable_of_iff _ once_iff.symm

/-- A chunk that shows the pattern. -/
theorem Once.of_chunk {pattern before after : List α} {xs ys : List (List α)} {u v : List α}
    (h : Once pattern (before ++ pattern ++ after) before)
    (htext : (xs ++ (u ++ pattern ++ v) :: ys).flatten = before ++ pattern ++ after) :
    xs.flatten ++ u = before ∧ v ++ ys.flatten = after := by
  have hsplit : before ++ pattern ++ after = (xs.flatten ++ u) ++ pattern ++ (v ++ ys.flatten) := by
    rw [← htext]
    simp
  have hbefore := h _ _ hsplit
  refine ⟨hbefore, ?_⟩
  rw [hbefore] at hsplit
  exact (List.append_cancel_left hsplit).symm

/-- One chunk at most shows the pattern. -/
theorem Once.chunk_unique {pattern before after : List α} {chunks : List (List α)} {c d : List α}
    (h : Once pattern (before ++ pattern ++ after) before) (hpattern : pattern ≠ [])
    (htext : chunks.flatten = before ++ pattern ++ after) (hc : c ∈ chunks) (hd : d ∈ chunks)
    (hcIn : pattern <:+: c) (hdIn : pattern <:+: d) : c = d := by
  -- A chunk behind another one that shows the pattern has too much before it.
  have hbehind : ∀ {xs mid ys : List (List α)} {c d : List α},
      chunks = xs ++ c :: (mid ++ d :: ys) → pattern <:+: c → ¬ pattern <:+: d := by
    rintro xs mid ys c d rfl ⟨u, v, rfl⟩ ⟨u', v', rfl⟩
    have hfirst := (h.of_chunk htext).1
    have hsplit : xs ++ (u ++ pattern ++ v) :: (mid ++ (u' ++ pattern ++ v') :: ys) =
        (xs ++ (u ++ pattern ++ v) :: mid) ++ (u' ++ pattern ++ v') :: ys := by
      simp
    rw [hsplit] at htext
    have hsecond := (h.of_chunk htext).1
    have hlength := congrArg List.length (hfirst.trans hsecond.symm)
    have hpos := List.length_pos_iff.mpr hpattern
    simp only [List.length_append, List.flatten_append, List.flatten_cons] at hlength
    omega
  obtain ⟨xs, ys, hxs⟩ := List.append_of_mem hc
  rw [hxs] at hd
  rcases List.mem_append.mp hd with hbefore | hafter
  · obtain ⟨start, mid, rfl⟩ := List.append_of_mem hbefore
    have hsplit : chunks = start ++ d :: (mid ++ c :: ys) := by
      rw [hxs]
      simp
    exact absurd hcIn (hbehind hsplit hdIn)
  · rcases List.mem_cons.mp hafter with heq | hafter
    · exact heq.symm
    · obtain ⟨mid, rest, rfl⟩ := List.append_of_mem hafter
      exact absurd hdIn (hbehind hxs hcIn)

/-! ## Searches -/

theorem findSome?_eq_some_of_forall {f : α → Option β} {xs : List α} {b : β} {x : α}
    (hall : ∀ y ∈ xs, ∀ c, f y = some c → c = b) (hx : x ∈ xs) (hfx : f x = some b) :
    xs.findSome? f = some b := by
  cases hfind : xs.findSome? f with
  | none =>
      rw [List.findSome?_eq_none_iff] at hfind
      cases hfx.symm.trans (hfind x hx)
  | some c =>
      obtain ⟨y, hy, hfy⟩ := List.exists_of_findSome?_eq_some hfind
      rw [hall y hy c hfy]

end Library
end AvaListener
