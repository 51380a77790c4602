import AvaListener.Library.JsonRoundTrip

/-!
# JSON texts on the wire

What `dumps` writes is printable ASCII, so neither a line break nor white space
at its ends can be confused with the framing around it.

`weight` counts the characters of a text that are not digits, hexadecimal
letters, number signs or line feeds.  Decoding does not gain weight: a value read
from ASCII text is serialised with at most the weight of the characters it was
read from.  The count ignores how a number is spelled, so nothing is asked of the
number conversions.
-/

namespace AvaListener
namespace Library
namespace Json

variable {ν : Type} (N : Numbers ν)

/-! ## Printable text -/

def isPrintable (c : Char) : Bool := 0x20 ≤ c.toNat ∧ c.toNat ≤ 0x7E

theorem isNumChar_printable {c : Char} (h : isNumChar c = true) : isPrintable c = true := by
  simp only [isNumChar, decide_eq_true_eq] at h
  rcases h with hdigit | hsign
  · simp only [isDigit, isPrintable, decide_eq_true_eq] at hdigit ⊢
    omega
  · revert hsign
    simp only [List.mem_cons, List.not_mem_nil, or_false]
    rintro (rfl | rfl | rfl | rfl | rfl)
    all_goals decide

section Parts

theorem takeDigits_parts (cs : Text) :
    (takeDigits cs).1 ++ (takeDigits cs).2 = cs ∧ ∀ c ∈ (takeDigits cs).1, isNumChar c = true := by
  refine ⟨List.takeWhile_append_dropWhile, ?_⟩
  intro c hc
  have hdigit : isDigit c = true := List.mem_takeWhile_imp hc
  simp [isNumChar, hdigit]

theorem takeSign_parts (signs : List Char) (hsigns : ∀ c ∈ signs, isNumChar c = true) (cs : Text) :
    (takeSign signs cs).1 ++ (takeSign signs cs).2 = cs ∧
      ∀ c ∈ (takeSign signs cs).1, isNumChar c = true := by
  cases cs with
  | nil => simp [takeSign]
  | cons c rest =>
      by_cases hc : c ∈ signs
      · simp [takeSign, hc, hsigns c hc]
      · simp [takeSign, hc]

theorem takeInt_parts {cs int rest : Text} (h : takeInt cs = some (int, rest)) :
    int ++ rest = cs ∧ ∀ c ∈ int, isNumChar c = true := by
  cases cs with
  | nil => simp [takeInt] at h
  | cons c tail =>
      simp only [takeInt] at h
      split at h
      next hzero =>
        obtain ⟨rfl, rfl⟩ := Prod.mk.inj (Option.some.inj h)
        subst hzero
        exact ⟨rfl, List.all_eq_true.mp (by decide)⟩
      · split at h
        next hdigit =>
          obtain ⟨rfl, rfl⟩ := Prod.mk.inj (Option.some.inj h)
          obtain ⟨hparts, hnum⟩ := takeDigits_parts tail
          refine ⟨by rw [List.cons_append, hparts], ?_⟩
          intro d hd
          rcases List.mem_cons.mp hd with rfl | hd
          · simp [isNumChar, hdigit]
          · exact hnum d hd
        · cases h

theorem takeMarked_parts (marks signs : List Char) (hmarks : ∀ c ∈ marks, isNumChar c = true)
    (hsigns : ∀ c ∈ signs, isNumChar c = true) (cs : Text) :
    (takeMarked marks signs cs).1 ++ (takeMarked marks signs cs).2 = cs ∧
      ∀ c ∈ (takeMarked marks signs cs).1, isNumChar c = true := by
  cases cs with
  | nil => simp [takeMarked]
  | cons c rest =>
      simp only [takeMarked]
      split
      next hmark =>
        obtain ⟨hsign, hsignNum⟩ := takeSign_parts signs hsigns rest
        obtain ⟨hdigits, hdigitsNum⟩ := takeDigits_parts (takeSign signs rest).2
        refine ⟨?_, ?_⟩
        · rw [List.cons_append, List.cons_append, List.append_assoc, hdigits, hsign]
        · intro d hd
          rcases List.mem_cons.mp hd with rfl | hd
          · exact hmarks d hmark.1
          · rcases List.mem_append.mp hd with hd | hd
            · exact hsignNum d hd
            · exact hdigitsNum d hd
      · simp

/-- A scanned token is a front part made of number characters. -/
theorem scanToken_parts {cs t rest : Text} (h : scanToken cs = some (t, rest)) :
    t ++ rest = cs ∧ ∀ c ∈ t, isNumChar c = true := by
  simp only [scanToken] at h
  obtain ⟨hsign, hsignNum⟩ := takeSign_parts ['-'] minus_numChar cs
  cases hint : takeInt (takeSign ['-'] cs).2 with
  | none => simp [hint] at h
  | some parts =>
      obtain ⟨int, after⟩ := parts
      obtain ⟨hintParts, hintNum⟩ := takeInt_parts hint
      obtain ⟨hfrac, hfracNum⟩ :=
        takeMarked_parts ['.'] [] point_numChar (List.forall_mem_nil _) after
      obtain ⟨hexp, hexpNum⟩ := takeMarked_parts ['e', 'E'] ['+', '-'] exponent_numChar
        sign_numChar (takeMarked ['.'] [] after).2
      simp only [hint, Option.some.injEq, Prod.mk.injEq] at h
      obtain ⟨rfl, rfl⟩ := h
      refine ⟨?_, ?_⟩
      · simp only [List.append_assoc]
        rw [hexp, hfrac, hintParts, hsign]
      · intro c hc
        simp only [List.mem_append] at hc
        rcases hc with ((hc | hc) | hc) | hc
        · exact hsignNum c hc
        · exact hintNum c hc
        · exact hfracNum c hc
        · exact hexpNum c hc

end Parts

theorem repr_numChars (x : ν) : ∀ c ∈ N.repr x, isNumChar c = true :=
  (scanToken_parts (N.repr_isToken x)).2

theorem hexChar_printable : ∀ d < 16, isPrintable (hexChar d) = true := by decide

theorem escapeUnit_printable (u : ℕ) : ∀ c ∈ escapeUnit u, isPrintable c = true := by
  intro c hc
  unfold escapeUnit at hc
  split at hc
  next e hshort =>
    rcases List.mem_cons.mp hc with rfl | hc
    · decide
    · obtain rfl := List.mem_singleton.mp hc
      unfold shortEscape at hshort
      repeat' split at hshort
      all_goals first
        | (obtain rfl := Option.some.inj hshort; decide)
        | cases hshort
  · split at hc
    next hprint =>
      obtain rfl := List.mem_singleton.mp hc
      rw [isPrintable, toNat_ofNat_printable hprint.1 hprint.2]
      exact decide_eq_true hprint
    · have hhex (d : ℕ) : isPrintable (hexChar (d % 16)) = true :=
        hexChar_printable _ (Nat.mod_lt d (by omega))
      simp only [hexText, List.mem_cons, List.not_mem_nil, or_false] at hc
      rcases hc with rfl | rfl | rfl | rfl | rfl | rfl
      · decide
      · decide
      all_goals exact hhex _

theorem quote_printable (s : List ℕ) : ∀ c ∈ quote s, isPrintable c = true := by
  intro c hc
  simp only [quote, List.cons_append, List.mem_cons, List.mem_append, List.not_mem_nil,
    or_false] at hc
  rcases hc with rfl | hc | rfl
  · decide
  · obtain ⟨u, -, hu⟩ := List.mem_flatMap.mp hc
    exact escapeUnit_printable u c hu
  · decide

mutual

theorem dumps_printable : ∀ (v : Value ν), ∀ c ∈ dumps N v, isPrintable c = true
  | .lit l => by
      rw [dumps]
      cases l
      all_goals exact List.all_eq_true.mp (by decide)
  | .num x => by
      rw [dumps]
      exact fun c hc => isNumChar_printable (repr_numChars N x c hc)
  | .str s => by
      rw [dumps]
      exact quote_printable s
  | .arr elements => by
      intro c hc
      simp only [dumps, List.cons_append, List.mem_cons, List.mem_append, List.not_mem_nil,
        or_false] at hc
      rcases hc with rfl | hc | rfl
      · decide
      · exact dumpsElements_printable elements c hc
      · decide
  | .obj members => by
      intro c hc
      simp only [dumps, List.cons_append, List.mem_cons, List.mem_append, List.not_mem_nil,
        or_false] at hc
      rcases hc with rfl | hc | rfl
      · decide
      · exact dumpsMembers_printable members c hc
      · decide

theorem dumpsElements_printable : ∀ (elements : List (Value ν)),
    ∀ c ∈ dumpsElements N elements, isPrintable c = true
  | [] => by simp [dumpsElements]
  | [v] => by
      rw [dumpsElements]
      exact dumps_printable v
  | v :: w :: rest => by
      intro c hc
      simp only [dumpsElements, List.mem_append, List.mem_cons] at hc
      rcases hc with hc | rfl | hc
      · exact dumps_printable v c hc
      · decide
      · exact dumpsElements_printable (w :: rest) c hc

theorem dumpsMembers_printable : ∀ (members : List (List ℕ × Value ν)),
    ∀ c ∈ dumpsMembers N members, isPrintable c = true
  | [] => by simp [dumpsMembers]
  | [(k, v)] => by
      intro c hc
      simp only [dumpsMembers, List.mem_append, List.mem_cons] at hc
      rcases hc with hc | rfl | hc
      · exact quote_printable k c hc
      · decide
      · exact dumps_printable v c hc
  | (k, v) :: m :: rest => by
      intro c hc
      simp only [dumpsMembers, List.mem_append, List.mem_cons] at hc
      rcases hc with (hc | rfl | hc) | rfl | hc
      · exact quote_printable k c hc
      · decide
      · exact dumps_printable v c hc
      · decide
      · exact dumpsMembers_printable (m :: rest) c hc

end

/-- **Round trip.** -/
theorem loads_dumps {v : Value ν} (hwf : WF v) : loads N (dumps N v) = some v := by
  obtain ⟨c, tail, htext, -⟩ := dumps_head N v
  have hbom : ¬ (dumps N v).head? = some '\ufeff' := by
    intro heq
    have hmem : '\ufeff' ∈ dumps N v := List.mem_of_mem_head? heq
    exact absurd (dumps_printable N v _ hmem) (by decide)
  have hskip := skipWs_dumps N v []
  have hscan := scanOnce_dumps N v hwf [] stops_nil ((dumps N v).length + 1) (Nat.le_succ _)
  rw [List.append_nil] at hskip hscan
  rw [loads, if_neg hbom, hskip, hscan]
  rfl

/-! ## Weight -/

/-- Characters that do not count: those of numbers and hexadecimal digits, and the
line feed. -/
def isLight (c : Char) : Bool :=
  isNumChar c ∨ (97 ≤ c.toNat ∧ c.toNat ≤ 102) ∨ (65 ≤ c.toNat ∧ c.toNat ≤ 70) ∨ c = '\n'

def weight (cs : Text) : ℕ := cs.countP fun c => ¬ isLight c

@[simp] theorem weight_nil : weight [] = 0 := rfl

@[simp] theorem weight_append (cs ds : Text) : weight (cs ++ ds) = weight cs + weight ds :=
  List.countP_append

theorem weight_cons (c : Char) (cs : Text) :
    weight (c :: cs) = (if isLight c then 0 else 1) + weight cs := by
  rw [weight, List.countP_cons, ← weight]
  cases isLight c with
  | true => simp
  | false => simp [Nat.add_comm]

theorem weight_cons_heavy {c : Char} (h : isLight c = false) (cs : Text) :
    weight (c :: cs) = weight cs + 1 := by
  rw [weight_cons, h, Nat.add_comm]
  rfl

theorem weight_le_of_sublist {cs ds : Text} (h : cs.Sublist ds) : weight cs ≤ weight ds :=
  List.Sublist.countP_le h

theorem weight_eq_zero {cs : Text} (h : ∀ c ∈ cs, isLight c = true) : weight cs = 0 := by
  rw [weight, List.countP_eq_zero]
  intro c hc
  simp [h c hc]

theorem weight_repr (x : ν) : weight (N.repr x) = 0 := by
  refine weight_eq_zero ?_
  intro c hc
  simp [isLight, repr_numChars N x c hc]

theorem hexChar_light : ∀ d < 16, isLight (hexChar d) = true := by decide

/-- A unit is written with at most the weight of any of its escapes. -/
theorem weight_escapeUnit_le (u : ℕ) : weight (escapeUnit u) ≤ 2 := by
  unfold escapeUnit
  split
  · exact List.countP_le_length
  · split
    · exact le_trans List.countP_le_length (by simp)
    · have hhex : weight (hexText u) = 0 := by
        refine weight_eq_zero ?_
        intro c hc
        simp only [hexText, List.mem_cons, List.not_mem_nil, or_false] at hc
        rcases hc with rfl | rfl | rfl | rfl
        all_goals exact hexChar_light _ (Nat.mod_lt _ (by omega))
      have hescape : weight ('\\' :: 'u' :: hexText u) = 2 + weight (hexText u) := by
        rw [weight_cons, weight_cons, ← Nat.add_assoc]
        rfl
      rw [hescape, hhex]

theorem weight_escapeUnit_of_unescape {c : Char} {u : ℕ} (h : unescape c = some u) :
    u < 0x10000 ∧ weight (escapeUnit u) ≤ weight ['\\', c] := by
  unfold unescape at h
  repeat' split at h
  all_goals first
    | (rename_i hc; subst hc; obtain rfl := Option.some.inj h; decide)
    | cases h

/-- Texts as they travel: printable ASCII and line feeds. -/
def OnWire (cs : Text) : Prop := ∀ c ∈ cs, isPrintable c = true ∨ c = '\n'

theorem OnWire.of_suffix {cs ds : Text} (h : OnWire ds) (hsuffix : cs <:+ ds) : OnWire cs :=
  fun c hc => h c (hsuffix.subset hc)

theorem escapeUnit_raw {c : Char} (hprint : isPrintable c = true) (hquote : c ≠ '"')
    (hslash : c ≠ '\\') : escapeUnit c.toNat = [c] := by
  simp only [isPrintable, decide_eq_true_eq] at hprint
  have hchar (d : Char) (hd : c.toNat = d.toNat) : c = d := by
    rw [← Char.ofNat_toNat c, hd, Char.ofNat_toNat]
  have h34 : c.toNat ≠ 34 := fun h => hquote (hchar '"' h)
  have h92 : c.toNat ≠ 92 := fun h => hslash (hchar '\\' h)
  have hnone : shortEscape c.toNat = none := by
    unfold shortEscape
    rw [if_neg h34, if_neg h92, if_neg (by omega), if_neg (by omega), if_neg (by omega),
      if_neg (by omega), if_neg (by omega)]
  simp only [escapeUnit, hnone]
  rw [if_pos hprint, Char.ofNat_toNat]

theorem ofHex_lt {a b c d : Char} {u : ℕ} (h : ofHex a b c d = some u) : u < 0x10000 := by
  have hval {e : Char} {x : ℕ} (he : hexVal e = some x) : x < 16 := by
    unfold hexVal at he
    repeat' split at he
    all_goals first
      | (obtain rfl := Option.some.inj he; omega)
      | cases he
  simp only [ofHex, Option.bind_eq_bind, Option.pure_def, Option.bind_eq_some_iff,
    Option.some.injEq] at h
  obtain ⟨x, hx, y, hy, z, hz, w, hw, rfl⟩ := h
  have hx' := hval hx
  have hy' := hval hy
  have hz' := hval hz
  have hw' := hval hw
  omega

theorem scanUnits_weight {cs rest : Text} {us : List ℕ} (hwire : OnWire cs)
    (h : scanUnits cs = some (us, rest)) :
    rest <:+ cs ∧ (∀ u ∈ us, u < 0x10000) ∧
      weight (us.flatMap escapeUnit) + 1 + weight rest ≤ weight cs := by
  induction cs using scanUnits.induct generalizing us with
  | case1 => cases h
  | case2 tail =>
      simp only [scanUnits, Option.some.injEq, Prod.mk.injEq] at h
      obtain ⟨rfl, rfl⟩ := h
      refine ⟨List.suffix_cons _ _, by simp, ?_⟩
      rw [weight_cons_heavy (by decide)]
      simp [Nat.add_comm]
  | case3 a b c d tail hhex => simp [scanUnits, hhex] at h
  | case4 a b c d tail u hhex ih =>
      simp only [scanUnits, hhex, Option.map_eq_some_iff, Prod.exists, Prod.mk.injEq] at h
      obtain ⟨vs, rest', hscan, rfl, rfl⟩ := h
      have hsuffix : tail <:+ '\\' :: 'u' :: a :: b :: c :: d :: tail :=
        ⟨['\\', 'u', a, b, c, d], rfl⟩
      obtain ⟨hrest, hlt, hweight⟩ := ih (hwire.of_suffix hsuffix) hscan
      refine ⟨hrest.trans hsuffix, ?_, ?_⟩
      · intro v hv
        rcases List.mem_cons.mp hv with rfl | hv
        · exact ofHex_lt hhex
        · exact hlt v hv
      · have hle := weight_escapeUnit_le u
        have htail : weight tail + 2 ≤ weight ('\\' :: 'u' :: a :: b :: c :: d :: tail) := by
          rw [weight_cons_heavy (by decide), weight_cons_heavy (by decide)]
          have hsub := weight_le_of_sublist (List.sublist_append_right [a, b, c, d] tail)
          exact Nat.add_le_add_right hsub 2
        rw [List.flatMap_cons, weight_append]
        omega
  | case5 c tail hshape hescape => simp [scanUnits, hescape] at h
  | case6 c tail hshape u hescape ih =>
      simp only [scanUnits, hescape, Option.map_eq_some_iff, Prod.exists, Prod.mk.injEq] at h
      obtain ⟨vs, rest', hscan, rfl, rfl⟩ := h
      have hsuffix : tail <:+ '\\' :: c :: tail := ⟨['\\', c], rfl⟩
      obtain ⟨hrest, hlt, hweight⟩ := ih (hwire.of_suffix hsuffix) hscan
      obtain ⟨hu, hle⟩ := weight_escapeUnit_of_unescape hescape
      refine ⟨hrest.trans hsuffix, ?_, ?_⟩
      · intro v hv
        rcases List.mem_cons.mp hv with rfl | hv
        · exact hu
        · exact hlt v hv
      · have htail : weight ('\\' :: c :: tail) = weight ['\\', c] + weight tail :=
          weight_append ['\\', c] tail
        rw [List.flatMap_cons, weight_append, htail]
        omega
  | case7 c tail hquote hu hslash hbad => simp [scanUnits, hbad] at h
  | case8 c tail hquote hu hslash hgood ih =>
      rw [scanUnits, if_neg hgood] at h
      · simp only [Option.map_eq_some_iff, Prod.exists, Prod.mk.injEq] at h
        obtain ⟨vs, rest', hscan, rfl, rfl⟩ := h
        have hsuffix : tail <:+ c :: tail := List.suffix_cons c tail
        obtain ⟨hrest, hlt, hweight⟩ := ih (hwire.of_suffix hsuffix) hscan
        obtain ⟨hnoslash, hcontrol⟩ := not_or.mp hgood
        have hprint : isPrintable c = true := by
          rcases hwire c (List.mem_cons_self ..) with hprint | rfl
          · exact hprint
          · exact absurd (show ('\n'.toNat < 0x20) by decide) hcontrol
        refine ⟨hrest.trans hsuffix, ?_, ?_⟩
        · intro v hv
          rcases List.mem_cons.mp hv with rfl | hv
          · simp only [isPrintable, decide_eq_true_eq] at hprint
            omega
          · exact hlt v hv
        · have hself : weight (c :: tail) = weight [c] + weight tail := weight_append [c] tail
          rw [List.flatMap_cons, weight_append, escapeUnit_raw hprint hquote hnoslash, hself]
          omega
      · exact hquote
      · exact hu
      · exact hslash

theorem unitsOf_joinPair {u v : ℕ} (hu : isHigh u = true) (hv : isLow v = true) :
    unitsOf (joinPair u v) = [u, v] := by
  simp only [isHigh, decide_eq_true_eq] at hu
  simp only [isLow, decide_eq_true_eq] at hv
  obtain ⟨a, rfl⟩ := Nat.exists_eq_add_of_le hu.1
  obtain ⟨b, rfl⟩ := Nat.exists_eq_add_of_le hv.1
  have hb : b < 0x400 := by omega
  have hback : 0x10000 + a * 0x400 + b - 0x10000 = a * 0x400 + b := by omega
  have hquot : (a * 0x400 + b) / 0x400 = a := by omega
  have hrem : (a * 0x400 + b) % 0x400 = b := by omega
  rw [joinPair_eq, unitsOf, if_neg (by omega), hback, hquot, hrem]

/-- Splitting undoes joining. -/
theorem units_joinSurrogates {us : List ℕ} (h : ∀ u ∈ us, u < 0x10000) :
    (joinSurrogates us).flatMap unitsOf = us := by
  induction us using joinSurrogates.induct with
  | case1 u v rest hpair ih =>
      rw [joinSurrogates_pair hpair.1 hpair.2, List.flatMap_cons,
        ih fun w hw => h w (by simp [hw])]
      have hunits : unitsOf (joinPair u v) = [u, v] := unitsOf_joinPair hpair.1 hpair.2
      rw [hunits]
      rfl
  | case2 u v rest hpair ih =>
      have hu : unitsOf u = [u] := if_pos (h u (by simp))
      rw [joinSurrogates_cons (by
        intro w hw
        obtain rfl : v = w := Option.some.inj hw
        exact hpair), List.flatMap_cons, hu, ih fun w hw => h w (List.mem_cons_of_mem _ hw)]
      rfl
  | case3 us hshape =>
      cases us with
      | nil => simp [joinSurrogates]
      | cons u rest =>
          cases rest with
          | nil =>
              have hu : unitsOf u = [u] := if_pos (h u (by simp))
              simp [joinSurrogates, hu]
          | cons v rest => exact absurd rfl (hshape u v rest)

theorem scanString_weight {cs rest : Text} {s : List ℕ} (hwire : OnWire cs)
    (h : scanString cs = some (s, rest)) :
    rest <:+ cs ∧ weight (quote s) + weight rest ≤ weight cs + 1 := by
  simp only [scanString, Option.map_eq_some_iff, Prod.exists, Prod.mk.injEq] at h
  obtain ⟨us, rest', hscan, rfl, rfl⟩ := h
  obtain ⟨hsuffix, hlt, hweight⟩ := scanUnits_weight hwire hscan
  refine ⟨hsuffix, ?_⟩
  have hquote : weight (quote (joinSurrogates us)) = weight (us.flatMap escapeUnit) + 2 := by
    rw [quote, units_joinSurrogates hlt, List.cons_append, weight_cons_heavy (by decide),
      weight_append]
    rfl
  omega

/-! ### Decoded values -/

theorem skipWs_suffix (cs : Text) : skipWs cs <:+ cs :=
  List.dropWhile_suffix isWs

theorem weight_skipWs_le (cs : Text) : weight (skipWs cs) ≤ weight cs :=
  weight_le_of_sublist (List.dropWhile_sublist isWs)

/-- One more heavy character in front of what `skipWs` leaves. -/
theorem skipWs_eq_cons {cs rest : Text} {c : Char} (hc : isLight c = false)
    (h : skipWs cs = c :: rest) : rest <:+ cs ∧ weight rest + 1 ≤ weight cs := by
  have hsuffix := skipWs_suffix cs
  have hweight := weight_skipWs_le cs
  rw [h] at hsuffix hweight
  rw [weight_cons_heavy hc] at hweight
  exact ⟨(List.suffix_cons c rest).trans hsuffix, hweight⟩

/-- Weight of array elements and of object members, each with one separator. -/
def elementsWeight (elements : List (Value ν)) : ℕ :=
  (elements.map fun v => weight (dumps N v) + 1).sum

def memberWeight (m : List ℕ × Value ν) : ℕ :=
  weight (quote m.1) + weight (dumps N m.2) + 2

def membersWeight (members : List (List ℕ × Value ν)) : ℕ :=
  (members.map (memberWeight N)).sum

theorem weight_dumpsElements {elements : List (Value ν)} (h : elements ≠ []) :
    weight (dumpsElements N elements) + 1 = elementsWeight N elements := by
  induction elements with
  | nil => exact absurd rfl h
  | cons v rest ih =>
      by_cases hrest : rest = []
      · subst hrest
        simp [dumpsElements, elementsWeight]
      · have hrest' := ih hrest
        rw [dumpsElements_cons N v hrest, weight_append, weight_cons_heavy (by decide)]
        simp only [elementsWeight, List.map_cons, List.sum_cons] at hrest' ⊢
        omega

theorem weight_dumpsMembers {members : List (List ℕ × Value ν)} (h : members ≠ []) :
    weight (dumpsMembers N members) + 1 = membersWeight N members := by
  induction members with
  | nil => exact absurd rfl h
  | cons m rest ih =>
      obtain ⟨k, v⟩ := m
      by_cases hrest : rest = []
      · subst hrest
        rw [dumpsMembers, weight_append, weight_cons_heavy (by decide)]
        simp only [membersWeight, memberWeight, List.map_cons, List.map_nil, List.sum_cons,
          List.sum_nil]
        omega
      · have hrest' := ih hrest
        rw [dumpsMembers_cons N k v hrest, weight_append, weight_append,
          weight_cons_heavy (by decide), weight_cons_heavy (by decide)]
        simp only [membersWeight, memberWeight, List.map_cons, List.sum_cons] at hrest' ⊢
        omega

/-- Overwriting a member gains nothing over appending it. -/
theorem membersWeight_setEntry_le {members : List (List ℕ × Value ν)}
    (hkeys : (members.map Prod.fst).Nodup) (k : List ℕ) (v : Value ν) :
    membersWeight N (setEntry members k v) ≤ membersWeight N members + memberWeight N (k, v) := by
  have hreplace : ∀ ms : List (List ℕ × Value ν), (ms.map Prod.fst).Nodup →
      membersWeight N (ms.map fun e => if e.1 = k then (k, v) else e) ≤
        membersWeight N ms + memberWeight N (k, v) := by
    intro ms
    induction ms with
    | nil => simp [membersWeight]
    | cons e rest ih =>
        intro hnodup
        simp only [List.map_cons, List.nodup_cons] at hnodup
        by_cases hkey : e.1 = k
        · -- The key occurs nowhere else.
          have hrest : (rest.map fun e => if e.1 = k then (k, v) else e) = rest := by
            refine List.map_congr_left (fun e' he' => ?_) |>.trans (List.map_id _)
            have hne : e'.1 ≠ k := by
              rintro rfl
              exact hnodup.1 (hkey ▸ List.mem_map_of_mem he')
            simp [hne]
          simp only [List.map_cons, hrest, hkey, if_true, membersWeight, List.sum_cons]
          omega
        · have hrest := ih hnodup.2
          simp only [membersWeight, List.map_cons, hkey, if_false, List.sum_cons] at hrest ⊢
          omega
  unfold setEntry
  split
  · exact hreplace members hkeys
  · simp [membersWeight]

/-- A decoder of values gains no weight and leaves a suffix. -/
def Lossy (value : Text → Option (Value ν × Text)) : Prop :=
  ∀ cs v rest, OnWire cs → value cs = some (v, rest) →
    rest <:+ cs ∧ weight (dumps N v) + weight rest ≤ weight cs

theorem scanElements_weight {value : Text → Option (Value ν × Text)} (hvalue : Lossy N value)
    {count : ℕ} {done : List (Value ν)} {cs rest : Text} {w : Value ν} (hwire : OnWire cs)
    (h : scanElements value count done cs = some (w, rest)) :
    ∃ elements, w = .arr elements ∧ elements ≠ [] ∧ rest <:+ cs ∧
      elementsWeight N elements + weight rest ≤ elementsWeight N done + weight cs := by
  induction count generalizing done cs with
  | zero => cases h
  | succ count ih =>
      simp only [scanElements, Option.bind_eq_some_iff, Prod.exists] at h
      obtain ⟨v, after, hv, h⟩ := h
      obtain ⟨hsuffix, hweight⟩ := hvalue cs v after hwire hv
      have hdone : elementsWeight N (done ++ [v]) =
          elementsWeight N done + (weight (dumps N v) + 1) := by
        simp [elementsWeight]
      split at h
      next tail heq =>
        obtain ⟨rfl, rfl⟩ := Prod.mk.inj (Option.some.inj h)
        obtain ⟨hrest, hlight⟩ := skipWs_eq_cons (by decide) heq
        refine ⟨done ++ [v], rfl, by simp, hrest.trans hsuffix, ?_⟩
        omega
      next tail heq =>
        obtain ⟨hrest, hlight⟩ := skipWs_eq_cons (by decide) heq
        have htail : skipWs tail <:+ cs := (skipWs_suffix tail).trans (hrest.trans hsuffix)
        have hskip := weight_skipWs_le tail
        obtain ⟨elements, rfl, hne, hend, htotal⟩ := ih (hwire.of_suffix htail) h
        refine ⟨elements, rfl, hne, hend.trans htail, ?_⟩
        omega
      · cases h

theorem scanMembers_weight {value : Text → Option (Value ν × Text)} (hvalue : Lossy N value)
    {count : ℕ} {done : List (List ℕ × Value ν)} {cs rest : Text} {w : Value ν}
    (hkeys : (done.map Prod.fst).Nodup) (hwire : OnWire cs)
    (h : scanMembers value count done cs = some (w, rest)) :
    ∃ members, w = .obj members ∧ members ≠ [] ∧ rest <:+ cs ∧
      membersWeight N members + weight rest ≤ membersWeight N done + weight cs := by
  induction count generalizing done cs with
  | zero => cases h
  | succ count ih =>
      unfold scanMembers at h
      split at h
      next afterQuote =>
        simp only [Option.bind_eq_some_iff, Prod.exists] at h
        obtain ⟨k, afterKey, hk, h⟩ := h
        have hquote : afterQuote <:+ '"' :: afterQuote := List.suffix_cons _ _
        obtain ⟨hkSuffix, hkWeight⟩ := scanString_weight (hwire.of_suffix hquote) hk
        have hheavy := weight_cons_heavy (show isLight '"' = false by decide) afterQuote
        split at h
        next afterColon hcolon =>
          obtain ⟨hcSuffix, hcWeight⟩ := skipWs_eq_cons (by decide) hcolon
          simp only [Option.bind_eq_some_iff, Prod.exists] at h
          obtain ⟨v, after, hv, h⟩ := h
          have hstart : skipWs afterColon <:+ '"' :: afterQuote :=
            (skipWs_suffix _).trans (hcSuffix.trans (hkSuffix.trans hquote))
          have hskip := weight_skipWs_le afterColon
          obtain ⟨hsuffix, hweight⟩ := hvalue _ v after (hwire.of_suffix hstart) hv
          have hset := membersWeight_setEntry_le N hkeys k v
          have hmember : memberWeight N (k, v) = weight (quote k) + weight (dumps N v) + 2 := rfl
          have hne : setEntry done k v ≠ [] := by
            intro hnil
            have hself := mem_setEntry_self done k v
            rw [hnil] at hself
            cases hself
          split at h
          next tail heq =>
            obtain ⟨rfl, rfl⟩ := Prod.mk.inj (Option.some.inj h)
            obtain ⟨hrest, hlight⟩ := skipWs_eq_cons (by decide) heq
            refine ⟨_, rfl, hne, hrest.trans (hsuffix.trans hstart), ?_⟩
            omega
          next tail heq =>
            obtain ⟨hrest, hlight⟩ := skipWs_eq_cons (by decide) heq
            have htail : skipWs tail <:+ '"' :: afterQuote :=
              (skipWs_suffix tail).trans (hrest.trans (hsuffix.trans hstart))
            have hskipTail := weight_skipWs_le tail
            obtain ⟨members, rfl, hmem, hend, htotal⟩ :=
              ih (setEntry_nodup hkeys k v) (hwire.of_suffix htail) h
            refine ⟨members, rfl, hmem, hend.trans htail, ?_⟩
            omega
          · cases h
        · cases h
      · cases h

theorem scanNumber_weight {cs rest : Text} {v : Value ν}
    (h : scanNumber N cs = some (v, rest)) :
    rest <:+ cs ∧ weight (dumps N v) + weight rest ≤ weight cs := by
  simp only [scanNumber, Option.bind_eq_some_iff, Option.map_eq_some_iff, Prod.exists,
    Prod.mk.injEq] at h
  obtain ⟨token, rest', hscan, x, -, rfl, rfl⟩ := h
  obtain ⟨rfl, -⟩ := scanToken_parts hscan
  refine ⟨List.suffix_append _ _, ?_⟩
  rw [dumps, weight_repr, weight_append]
  omega

theorem scanLiteral_weight {cs rest : Text} {v : Value ν}
    (h : scanLiteral cs = some (v, rest)) :
    rest <:+ cs ∧ weight (dumps N v) + weight rest ≤ weight cs := by
  obtain ⟨l, -, hl⟩ := List.exists_of_findSome?_eq_some h
  split at hl
  next hstart =>
    obtain ⟨rfl, rfl⟩ := Prod.mk.inj (Option.some.inj hl)
    obtain ⟨tail, rfl⟩ := of_decide_eq_true hstart
    rw [List.drop_left, dumps, weight_append]
    exact ⟨List.suffix_append _ _, le_refl _⟩
  · cases hl

theorem scanOnce_weight (fuel : ℕ) : Lossy N (scanOnce N fuel) := by
  induction fuel with
  | zero =>
      intro cs v rest _ h
      cases h
  | succ fuel ih =>
      intro cs v rest hwire h
      unfold scanOnce at h
      split at h
      next tail =>
        simp only [Option.map_eq_some_iff, Prod.exists, Prod.mk.injEq] at h
        obtain ⟨s, rest', hscan, rfl, rfl⟩ := h
        have hquote : tail <:+ '"' :: tail := List.suffix_cons _ _
        obtain ⟨hsuffix, hweight⟩ := scanString_weight (hwire.of_suffix hquote) hscan
        rw [dumps, weight_cons_heavy (by decide)]
        exact ⟨hsuffix.trans hquote, hweight⟩
      next tail =>
        have hopen : tail <:+ '[' :: tail := List.suffix_cons _ _
        have hheavy := weight_cons_heavy (show isLight '[' = false by decide) tail
        split at h
        next rest' heq =>
          obtain ⟨rfl, rfl⟩ := Prod.mk.inj (Option.some.inj h)
          obtain ⟨hsuffix, hlight⟩ := skipWs_eq_cons (by decide) heq
          refine ⟨hsuffix.trans hopen, ?_⟩
          have hempty : weight (dumps N (.arr [])) = 2 := by rw [dumps, dumpsElements]; rfl
          omega
        next =>
          have hbody := (skipWs_suffix tail).trans hopen
          have hskip := weight_skipWs_le tail
          obtain ⟨elements, rfl, hne, hsuffix, htotal⟩ :=
            scanElements_weight N ih (hwire.of_suffix hbody) h
          have hparts := weight_dumpsElements N hne
          have hdone : elementsWeight N ([] : List (Value ν)) = 0 := rfl
          have htext : weight (dumps N (.arr elements)) = weight (dumpsElements N elements) + 2 := by
            rw [dumps, List.cons_append, weight_cons_heavy (by decide), weight_append]
            rfl
          refine ⟨hsuffix.trans hbody, ?_⟩
          omega
      next tail =>
        have hopen : tail <:+ '\x7b' :: tail := List.suffix_cons _ _
        have hheavy := weight_cons_heavy (show isLight '\x7b' = false by decide) tail
        split at h
        next rest' heq =>
          obtain ⟨rfl, rfl⟩ := Prod.mk.inj (Option.some.inj h)
          obtain ⟨hsuffix, hlight⟩ := skipWs_eq_cons (by decide) heq
          refine ⟨hsuffix.trans hopen, ?_⟩
          have hempty : weight (dumps N (.obj [])) = 2 := by rw [dumps, dumpsMembers]; rfl
          omega
        next =>
          have hbody := (skipWs_suffix tail).trans hopen
          have hskip := weight_skipWs_le tail
          obtain ⟨members, rfl, hne, hsuffix, htotal⟩ :=
            scanMembers_weight N ih (by simp) (hwire.of_suffix hbody) h
          have hparts := weight_dumpsMembers N hne
          have hdone : membersWeight N ([] : List (List ℕ × Value ν)) = 0 := rfl
          have htext : weight (dumps N (.obj members)) = weight (dumpsMembers N members) + 2 := by
            rw [dumps, List.cons_append, weight_cons_heavy (by decide), weight_append]
            rfl
          refine ⟨hsuffix.trans hbody, ?_⟩
          omega
      next =>
        rcases Option.or_eq_some_iff.mp h with hnumber | ⟨-, hliteral⟩
        · exact scanNumber_weight N hnumber
        · exact scanLiteral_weight N hliteral

/-- **Decoding gains no weight.** -/
theorem loads_weight {text : Text} {v : Value ν} (hwire : OnWire text)
    (h : loads N text = some v) : weight (dumps N v) ≤ weight text := by
  rw [loads] at h
  split at h
  · cases h
  · split at h
    next w rest hscan =>
      split at h
      · obtain rfl := Option.some.inj h
        have hweight := (scanOnce_weight N (text.length + 1) _ w rest
          (hwire.of_suffix (skipWs_suffix text)) hscan).2
        have hskip := weight_skipWs_le text
        omega
      · cases h
    · cases h

end Json
end Library
end AvaListener
