import Mathlib.Data.List.TakeWhile
import Mathlib.Tactic.IntervalCases
import AvaListener.Library.JsonText

/-!
# JSON round trips

`loads (dumps v) = v` for every well-formed value: object keys are distinct and
no string holds a high surrogate in front of a low one.

Decoding is compositional: a serialised value is read back from the front of any
text, whatever follows, as long as it does not continue a number.
-/

namespace AvaListener
namespace Library
namespace Json

variable {ν : Type} (N : Numbers ν)

/-! ## Number tokens -/

/-- The characters of number tokens. -/
def isNumChar (c : Char) : Bool :=
  isDigit c ∨ c ∈ ['+', '-', '.', 'e', 'E']

theorem minus_numChar : ∀ c ∈ ['-'], isNumChar c = true := List.all_eq_true.mp (by decide)

theorem point_numChar : ∀ c ∈ ['.'], isNumChar c = true := List.all_eq_true.mp (by decide)

theorem exponent_numChar : ∀ c ∈ ['e', 'E'], isNumChar c = true := List.all_eq_true.mp (by decide)

theorem sign_numChar : ∀ c ∈ ['+', '-'], isNumChar c = true := List.all_eq_true.mp (by decide)

/-- What follows does not continue a number token. -/
def Stops (rest : Text) : Prop := ∀ c ∈ rest.head?, isNumChar c = false

theorem stops_nil : Stops [] := by
  intro c hc
  cases hc

theorem stops_cons {c : Char} (h : isNumChar c = false) (rest : Text) : Stops (c :: rest) := by
  intro d hd
  obtain rfl := Option.some.inj hd
  exact h

section Tokens

variable {rest : Text} (hstop : Stops rest)

include hstop

theorem takeDigits_append (cs : Text) :
    takeDigits (cs ++ rest) = ((takeDigits cs).1, (takeDigits cs).2 ++ rest) := by
  induction cs with
  | nil =>
      cases rest with
      | nil => rfl
      | cons c tail =>
          have hc : isDigit c = false := by
            have hnum := hstop c rfl
            simp [isNumChar] at hnum
            exact hnum.1
          simp [takeDigits, hc]
  | cons c tail ih =>
      simp only [takeDigits, Prod.mk.injEq] at ih
      by_cases hc : isDigit c
      · simp [takeDigits, hc, ih.1, ih.2]
      · simp [takeDigits, hc]

theorem takeSign_append {signs : List Char} (hsigns : ∀ c ∈ signs, isNumChar c = true) (cs : Text) :
    takeSign signs (cs ++ rest) = ((takeSign signs cs).1, (takeSign signs cs).2 ++ rest) := by
  cases cs with
  | nil =>
      cases rest with
      | nil => rfl
      | cons c tail =>
          have hc : c ∉ signs := by
            intro hmem
            have hnum := hsigns c hmem
            rw [hstop c rfl] at hnum
            cases hnum
          simp [takeSign, hc]
  | cons c tail =>
      by_cases hc : c ∈ signs
      · simp [takeSign, hc]
      · simp [takeSign, hc]

theorem takeInt_append (cs : Text) :
    takeInt (cs ++ rest) = (takeInt cs).map fun p => (p.1, p.2 ++ rest) := by
  cases cs with
  | nil =>
      cases rest with
      | nil => rfl
      | cons c tail =>
          have hnum := hstop c rfl
          have hc : isDigit c = false := by
            simp [isNumChar] at hnum
            exact hnum.1
          have hzero : c ≠ '0' := by
            rintro rfl
            exact absurd hc (by decide)
          simp [takeInt, hc, hzero]
  | cons c tail =>
      by_cases hzero : c = '0'
      · simp [takeInt, hzero]
      · by_cases hc : isDigit c
        · simp [takeInt, hzero, hc, takeDigits_append hstop]
        · simp [takeInt, hzero, hc]

theorem takeMarked_append {marks signs : List Char} (hmarks : ∀ c ∈ marks, isNumChar c = true)
    (hsigns : ∀ c ∈ signs, isNumChar c = true) (cs : Text) :
    takeMarked marks signs (cs ++ rest) =
      ((takeMarked marks signs cs).1, (takeMarked marks signs cs).2 ++ rest) := by
  cases cs with
  | nil =>
      cases rest with
      | nil => rfl
      | cons c tail =>
          have hc : c ∉ marks := by
            intro hmem
            have hnum := hmarks c hmem
            rw [hstop c rfl] at hnum
            cases hnum
          simp [takeMarked, hc]
  | cons c tail =>
      simp only [List.cons_append, takeMarked, takeSign_append hstop hsigns,
        takeDigits_append hstop]
      split
      · rfl
      · rfl

theorem scanToken_append (cs : Text) :
    scanToken (cs ++ rest) = (scanToken cs).map fun p => (p.1, p.2 ++ rest) := by
  simp only [scanToken]
  rw [takeSign_append hstop minus_numChar]
  dsimp only
  rw [takeInt_append hstop]
  cases takeInt (takeSign ['-'] cs).2 with
  | none => rfl
  | some int =>
      simp only [Option.map_some]
      rw [takeMarked_append hstop point_numChar (List.forall_mem_nil _)]
      dsimp only
      rw [takeMarked_append hstop exponent_numChar sign_numChar]

/-- A number is read back in front of anything that does not continue it. -/
theorem scanNumber_repr (x : ν) : scanNumber N (N.repr x ++ rest) = some (.num x, rest) := by
  have htoken : scanToken (N.repr x) = some (N.repr x, []) := N.repr_isToken x
  simp [scanNumber, scanToken_append hstop, htoken, N.ofToken_repr]

end Tokens

/-- A number token starts with a digit or a minus sign. -/
theorem IsToken.head {t : Text} (h : IsToken t) :
    ∃ c tail, t = c :: tail ∧ (isDigit c = true ∨ c = '-') := by
  cases t with
  | nil => simp [IsToken, scanToken, takeSign, takeInt] at h
  | cons c tail =>
      refine ⟨c, tail, rfl, ?_⟩
      by_cases hminus : c = '-'
      · exact Or.inr hminus
      · left
        by_contra hdigit
        have hzero : c ≠ '0' := by
          rintro rfl
          exact hdigit (by decide)
        simp [IsToken, scanToken, takeSign, hminus, takeInt, hzero, hdigit] at h

/-! ## Strings -/

theorem hexVal_hexChar : ∀ d < 16, hexVal (hexChar d) = some d := by decide

theorem ofHex_hexText {u : ℕ} (h : u < 0x10000) :
    ofHex (hexChar (u / 0x1000 % 16)) (hexChar (u / 0x100 % 16)) (hexChar (u / 0x10 % 16))
      (hexChar (u % 16)) = some u := by
  have hval (d : ℕ) : hexVal (hexChar (d % 16)) = some (d % 16) :=
    hexVal_hexChar _ (Nat.mod_lt d (by omega))
  simp only [ofHex, hval, Option.bind_eq_bind, Option.bind_some, Option.pure_def,
    Option.some.injEq]
  omega

/-- A printable unit is written as itself. -/
theorem toNat_ofNat_printable {u : ℕ} (hlow : 0x20 ≤ u) (hhigh : u ≤ 0x7E) :
    (Char.ofNat u).toNat = u := by
  have hvalid : u.isValidChar := Or.inl (by omega)
  rw [Char.ofNat, dif_pos hvalid]
  rfl

theorem scanUnits_escapeUnit {u : ℕ} (h : u < 0x10000) (rest : Text) :
    scanUnits (escapeUnit u ++ rest) = (scanUnits rest).map fun done => (u :: done.1, done.2) := by
  by_cases hshort : (shortEscape u).isSome
  · -- The seven two-character escapes.
    have hcases : u = 34 ∨ u = 92 ∨ u = 8 ∨ u = 12 ∨ u = 10 ∨ u = 13 ∨ u = 9 := by
      by_contra hnone
      simp only [not_or] at hnone
      obtain ⟨h1, h2, h3, h4, h5, h6, h7⟩ := hnone
      simp [shortEscape, h1, h2, h3, h4, h5, h6, h7] at hshort
    rcases hcases with rfl | rfl | rfl | rfl | rfl | rfl | rfl
    all_goals simp [escapeUnit, shortEscape, scanUnits, unescape]
  · have hnone : shortEscape u = none := by simpa using hshort
    by_cases hprint : 0x20 ≤ u ∧ u ≤ 0x7E
    · have hnat := toNat_ofNat_printable hprint.1 hprint.2
      have hquote : Char.ofNat u ≠ '"' := by
        intro heq
        have h34 : u = 34 := by rw [← hnat, heq]; rfl
        simp [h34, shortEscape] at hnone
      have hslash : Char.ofNat u ≠ '\\' := by
        intro heq
        have h92 : u = 92 := by rw [← hnat, heq]; rfl
        simp [h92, shortEscape] at hnone
      have htext : escapeUnit u = [Char.ofNat u] := by simp [escapeUnit, hnone, hprint]
      have hcontrol : ¬ (Char.ofNat u).toNat < 0x20 := by omega
      rw [htext, List.singleton_append, scanUnits]
      · rw [if_neg (by simp [hslash, hcontrol]), hnat]
      · exact hquote
      · intro a b c d tail heq
        exact absurd heq hslash
      · intro c tail heq
        exact absurd heq hslash
    · have htext : escapeUnit u = '\\' :: 'u' :: hexText u := by
        simp only [escapeUnit, hnone]
        rw [if_neg hprint]
      rw [htext]
      simp only [hexText, List.cons_append, List.nil_append, scanUnits, ofHex_hexText h]

theorem scanUnits_escaped {us : List ℕ} (h : ∀ u ∈ us, u < 0x10000) (rest : Text) :
    scanUnits (us.flatMap escapeUnit ++ '"' :: rest) = some (us, rest) := by
  induction us with
  | nil => rfl
  | cons u us ih =>
      rw [List.flatMap_cons, List.append_assoc, scanUnits_escapeUnit (h u (List.mem_cons_self ..)),
        ih fun v hv => h v (List.mem_cons_of_mem _ hv)]
      rfl

/-- Code points in range, and no high surrogate in front of a low one. -/
def WFString (s : List ℕ) : Prop :=
  (∀ c ∈ s, c < 0x110000) ∧ s.IsChain fun u v => ¬ (isHigh u = true ∧ isLow v = true)

theorem unitsOf_lt {c : ℕ} (h : c < 0x110000) : ∀ u ∈ unitsOf c, u < 0x10000 := by
  intro u hu
  unfold unitsOf at hu
  split at hu
  · simp only [List.mem_singleton] at hu
    omega
  · simp only [List.mem_cons, List.not_mem_nil, or_false] at hu
    omega

theorem units_lt {s : List ℕ} (h : WFString s) : ∀ u ∈ s.flatMap unitsOf, u < 0x10000 := by
  intro u hu
  obtain ⟨c, hc, hu⟩ := List.mem_flatMap.mp hu
  exact unitsOf_lt (h.1 c hc) u hu

theorem joinPair_eq (a b : ℕ) :
    joinPair (0xD800 + a) (0xDC00 + b) = 0x10000 + a * 0x400 + b := by
  unfold joinPair
  rw [Nat.add_sub_cancel_left, Nat.add_sub_cancel_left]

/-- A code point beyond the basic plane is a surrogate pair. -/
theorem exists_units_pair {c : ℕ} (hbeyond : ¬ c < 0x10000) (h : c < 0x110000) :
    ∃ u v, unitsOf c = [u, v] ∧ isHigh u = true ∧ isLow v = true ∧ isLow u = false ∧
      joinPair u v = c := by
  refine ⟨0xD800 + (c - 0x10000) / 0x400, 0xDC00 + (c - 0x10000) % 0x400, ?_, ?_, ?_, ?_, ?_⟩
  · rw [unitsOf, if_neg hbeyond]
  · simp only [isHigh, decide_eq_true_eq]
    omega
  · simp only [isLow, decide_eq_true_eq]
    omega
  · simp only [isLow, decide_eq_false_iff_not]
    omega
  · rw [joinPair_eq]
    omega

/-- A unit that does not open a pair stays. -/
theorem joinSurrogates_cons {u : ℕ} {us : List ℕ}
    (h : ∀ v ∈ us.head?, ¬ (isHigh u = true ∧ isLow v = true)) :
    joinSurrogates (u :: us) = u :: joinSurrogates us := by
  cases us with
  | nil => simp [joinSurrogates]
  | cons v rest =>
      have hpair := h v rfl
      simp only [joinSurrogates, if_neg hpair]

/-- A surrogate pair is joined. -/
theorem joinSurrogates_pair {u v : ℕ} (hu : isHigh u = true) (hv : isLow v = true)
    (us : List ℕ) : joinSurrogates (u :: v :: us) = joinPair u v :: joinSurrogates us := by
  simp [joinSurrogates, hu, hv]

theorem joinSurrogates_units {s : List ℕ} (h : WFString s) :
    joinSurrogates (s.flatMap unitsOf) = s := by
  induction s with
  | nil => simp [joinSurrogates]
  | cons c s ih =>
      obtain ⟨hrange, hchain⟩ := h
      have hc := hrange c (List.mem_cons_self ..)
      have hs : WFString s := ⟨fun d hd => hrange d (List.mem_cons_of_mem _ hd), hchain.of_cons⟩
      rw [List.flatMap_cons]
      by_cases hbmp : c < 0x10000
      · have hunits : unitsOf c = [c] := if_pos hbmp
        rw [hunits, List.singleton_append, joinSurrogates_cons, ih hs]
        intro v hv
        cases s with
        | nil => cases hv
        | cons d rest =>
            have hnext : ¬ (isHigh c = true ∧ isLow d = true) := by
              have hpair := List.isChain_cons_cons.mp hchain
              exact hpair.1
            rw [List.flatMap_cons] at hv
            by_cases hd : d < 0x10000
            · have hd' : unitsOf d = [d] := if_pos hd
              rw [hd'] at hv
              obtain rfl : d = v := Option.some.inj hv
              exact hnext
            · -- The next character starts with a high surrogate.
              obtain ⟨u, w, hd', -, -, hlow, -⟩ := exists_units_pair hd (hrange d (by simp))
              rw [hd'] at hv
              obtain rfl : u = v := Option.some.inj hv
              simp [hlow]
      · obtain ⟨u, v, hunits, hhigh, hlow, -, hjoin⟩ := exists_units_pair hbmp hc
        rw [hunits, List.cons_append, List.singleton_append, joinSurrogates_pair hhigh hlow,
          hjoin, ih hs]

theorem scanString_quoted {s : List ℕ} (h : WFString s) (rest : Text) :
    scanString ((s.flatMap unitsOf).flatMap escapeUnit ++ '"' :: rest) = some (s, rest) := by
  rw [scanString, scanUnits_escaped (units_lt h)]
  simp [joinSurrogates_units h]

/-! ## Values -/

mutual

/-- What `dumps` and `loads` keep: well-formed strings and distinct keys. -/
def WF : Value ν → Prop
  | .lit _ => True
  | .num _ => True
  | .str s => WFString s
  | .arr elements => WFElements elements
  | .obj members => WFMembers members ∧ (members.map Prod.fst).Nodup

def WFElements : List (Value ν) → Prop
  | [] => True
  | v :: rest => WF v ∧ WFElements rest

def WFMembers : List (List ℕ × Value ν) → Prop
  | [] => True
  | (k, v) :: rest => WFString k ∧ WF v ∧ WFMembers rest

end

/-- A serialised value starts with a character that is neither white space nor a
closing bracket. -/
theorem dumps_head (v : Value ν) :
    ∃ c tail, dumps N v = c :: tail ∧ isWs c = false ∧ c ≠ ']' ∧ c ≠ '\x7d' := by
  cases v with
  | lit l =>
      cases l
      all_goals exact ⟨_, _, by rw [dumps, Literal.text], by decide, by decide, by decide⟩
  | num x =>
      obtain ⟨c, tail, htext, hhead⟩ := IsToken.head (N.repr_isToken x)
      refine ⟨c, tail, by rw [dumps, htext], ?_⟩
      rcases hhead with hdigit | rfl
      · refine ⟨?_, ?_, ?_⟩
        · by_contra hws
          simp only [isWs, Bool.not_eq_false, decide_eq_true_eq] at hws
          rcases hws with rfl | rfl | rfl | rfl
          all_goals exact absurd hdigit (by decide)
        · rintro rfl
          exact absurd hdigit (by decide)
        · rintro rfl
          exact absurd hdigit (by decide)
      · exact ⟨by decide, by decide, by decide⟩
  | str s => exact ⟨_, _, by rw [dumps, quote, List.cons_append], by decide, by decide, by decide⟩
  | arr elements => exact ⟨_, _, by rw [dumps, List.cons_append], by decide, by decide, by decide⟩
  | obj members => exact ⟨_, _, by rw [dumps, List.cons_append], by decide, by decide, by decide⟩

theorem dumps_length_pos (v : Value ν) : 0 < (dumps N v).length := by
  obtain ⟨c, tail, htext, -⟩ := dumps_head N v
  rw [htext]
  exact Nat.succ_pos _

/-- No white space in front of a serialised value. -/
theorem skipWs_dumps (v : Value ν) (rest : Text) : skipWs (dumps N v ++ rest) = dumps N v ++ rest := by
  obtain ⟨c, tail, htext, hws, -⟩ := dumps_head N v
  rw [htext, List.cons_append, skipWs, List.dropWhile_cons_of_neg (by simp [hws])]

theorem skipWs_cons {c : Char} (h : isWs c = false) (rest : Text) :
    skipWs (c :: rest) = c :: rest := by
  rw [skipWs, List.dropWhile_cons_of_neg (by simp [h])]

theorem dumpsElements_cons (v : Value ν) {rest : List (Value ν)} (h : rest ≠ []) :
    dumpsElements N (v :: rest) = dumps N v ++ ',' :: dumpsElements N rest := by
  cases rest with
  | nil => exact absurd rfl h
  | cons w rest => rw [dumpsElements]

theorem dumpsMembers_cons (k : List ℕ) (v : Value ν) {rest : List (List ℕ × Value ν)}
    (h : rest ≠ []) :
    dumpsMembers N ((k, v) :: rest) =
      quote k ++ ':' :: dumps N v ++ ',' :: dumpsMembers N rest := by
  cases rest with
  | nil => exact absurd rfl h
  | cons m rest => rw [dumpsMembers]

theorem length_le_dumpsElements (elements : List (Value ν)) :
    elements.length ≤ (dumpsElements N elements).length := by
  induction elements with
  | nil => exact Nat.zero_le _
  | cons v rest ih =>
      have hpos := dumps_length_pos N v
      by_cases hrest : rest = []
      · subst hrest
        rw [dumpsElements]
        exact hpos
      · rw [dumpsElements_cons N v hrest]
        simp only [List.length_cons, List.length_append]
        omega

theorem length_le_dumpsMembers (members : List (List ℕ × Value ν)) :
    members.length ≤ (dumpsMembers N members).length := by
  induction members with
  | nil => exact Nat.zero_le _
  | cons m rest ih =>
      obtain ⟨k, v⟩ := m
      by_cases hrest : rest = []
      · subst hrest
        rw [dumpsMembers]
        simp only [List.length_cons, List.length_append, List.length_nil]
        omega
      · rw [dumpsMembers_cons N k v hrest]
        simp only [List.length_cons, List.length_append]
        omega

theorem scanOnce_lit (l : Literal) (rest : Text) (fuel : ℕ) :
    scanOnce N (fuel + 1) (l.text ++ rest) = some (.lit l, rest) := by
  cases l
  all_goals
    simp [scanOnce, Literal.text, scanNumber, scanToken, takeSign, takeInt, isDigit, scanLiteral,
      startsWith]

theorem scanOnce_num (x : ν) {rest : Text} (hstop : Stops rest) (fuel : ℕ) :
    scanOnce N (fuel + 1) (N.repr x ++ rest) = some (.num x, rest) := by
  obtain ⟨c, tail, htext, hhead⟩ := IsToken.head (N.repr_isToken x)
  have hother : c ≠ '"' ∧ c ≠ '[' ∧ c ≠ '\x7b' := by
    rcases hhead with hdigit | rfl
    · refine ⟨?_, ?_, ?_⟩
      all_goals
        rintro rfl
        exact absurd hdigit (by decide)
    · decide
  have hnumber := scanNumber_repr N hstop x
  rw [htext, List.cons_append] at hnumber ⊢
  rw [scanOnce]
  · rw [hnumber]
    rfl
  · intro tail' heq
    exact hother.1 (List.cons.inj heq).1
  · intro tail' heq
    exact hother.2.1 (List.cons.inj heq).1
  · intro tail' heq
    exact hother.2.2 (List.cons.inj heq).1

theorem dumpsElements_head (v : Value ν) (elements : List (Value ν)) :
    ∃ c tail, dumpsElements N (v :: elements) = c :: tail ∧ isWs c = false ∧ c ≠ ']' ∧
      c ≠ '\x7d' := by
  obtain ⟨c, tail, htext, hhead⟩ := dumps_head N v
  cases elements with
  | nil => exact ⟨c, tail, by rw [dumpsElements, htext], hhead⟩
  | cons w rest => exact ⟨c, _, by rw [dumpsElements, htext, List.cons_append], hhead⟩

theorem dumpsMembers_head (k : List ℕ) (v : Value ν) (members : List (List ℕ × Value ν)) :
    ∃ tail, dumpsMembers N ((k, v) :: members) = '"' :: tail := by
  cases members with
  | nil => exact ⟨_, by rw [dumpsMembers, quote]; rfl⟩
  | cons m rest => exact ⟨_, by rw [dumpsMembers, quote]; rfl⟩

/-- One member in front of a text, up to the decoding of its value. -/
theorem scanMembers_member {value : Text → Option (Value ν × Text)} {k : List ℕ}
    (hk : WFString k) (v : Value ν) (rest : Text) (count : ℕ)
    (done : List (List ℕ × Value ν)) :
    scanMembers value (count + 1) done (quote k ++ ':' :: dumps N v ++ rest) =
      (value (dumps N v ++ rest)).bind fun element =>
        match skipWs element.2 with
        | '\x7d' :: rest => some (.obj (setEntry done k element.1), rest)
        | ',' :: rest => scanMembers value count (setEntry done k element.1) (skipWs rest)
        | _ => none := by
  have htext : quote k ++ ':' :: dumps N v ++ rest =
      '"' :: ((k.flatMap unitsOf).flatMap escapeUnit ++ '"' :: (':' :: (dumps N v ++ rest))) := by
    simp [quote]
  rw [htext, scanMembers, scanString_quoted hk]
  rw [Option.bind_some, skipWs_cons (show isWs ':' = false by decide)]
  exact congrArg (fun text => (value text).bind _) (skipWs_dumps N v rest)

/-- Assigning a new key to a dictionary under construction. -/
theorem setEntry_fresh {done : List (List ℕ × Value ν)} {k : List ℕ} (v : Value ν)
    (h : k ∉ done.map Prod.fst) : setEntry done k v = done ++ [(k, v)] :=
  if_neg h

mutual

/-- **Compositional decoding.**  A serialised well-formed value is read back from
the front of every text that does not continue a number. -/
theorem scanOnce_dumps : ∀ (v : Value ν), WF v → ∀ (rest : Text), Stops rest → ∀ (fuel : ℕ),
    (dumps N v).length ≤ fuel → scanOnce N fuel (dumps N v ++ rest) = some (v, rest)
  | v, hwf, rest, hstop, 0, hfuel => absurd hfuel (by
      have hpos := dumps_length_pos N v
      omega)
  | .lit l, _, rest, _, fuel + 1, _ => by
      rw [dumps]
      exact scanOnce_lit N l rest fuel
  | .num x, _, rest, hstop, fuel + 1, _ => by
      rw [dumps]
      exact scanOnce_num N x hstop fuel
  | .str s, hwf, rest, _, fuel + 1, _ => by
      rw [WF] at hwf
      rw [dumps, quote, List.cons_append, List.cons_append, List.append_assoc,
        List.singleton_append, scanOnce, scanString_quoted hwf]
      rfl
  | .arr [], _, rest, _, fuel + 1, _ => by
      simp [dumps, dumpsElements, scanOnce, skipWs_cons (show isWs ']' = false by decide)]
  | .arr (v :: elements), hwf, rest, hstop, fuel + 1, hfuel => by
      rw [WF] at hwf
      have hlen := length_le_dumpsElements N (v :: elements)
      have hbody : (dumpsElements N (v :: elements)).length ≤ fuel := by
        rw [dumps] at hfuel
        simp only [List.length_cons, List.length_append, List.length_nil] at hfuel
        omega
      have hscan := scanElements_dumps (v :: elements) hwf (by simp) rest hstop fuel hbody
        (dumpsElements N (v :: elements) ++ ']' :: rest).length
        (by
          rw [List.length_append]
          exact le_trans hlen (Nat.le_add_right _ _)) []
      obtain ⟨c, tail, htext, hws, hclose, -⟩ := dumpsElements_head N v elements
      rw [dumps, List.cons_append, List.cons_append, List.append_assoc, List.singleton_append,
        scanOnce]
      rw [htext, List.cons_append] at hscan ⊢
      rw [skipWs_cons hws]
      split
      next rest' heq => exact absurd (List.cons.inj heq).1 hclose
      next => simpa using hscan
  | .obj [], _, rest, _, fuel + 1, _ => by
      simp [dumps, dumpsMembers, scanOnce, skipWs_cons (show isWs '\x7d' = false by decide)]
  | .obj ((k, v) :: members), hwf, rest, hstop, fuel + 1, hfuel => by
      rw [WF] at hwf
      have hlen := length_le_dumpsMembers N ((k, v) :: members)
      have hbody : (dumpsMembers N ((k, v) :: members)).length ≤ fuel := by
        rw [dumps] at hfuel
        simp only [List.length_cons, List.length_append, List.length_nil] at hfuel
        omega
      have hscan := scanMembers_dumps ((k, v) :: members) hwf.1 (by simp) rest hstop fuel hbody
        (dumpsMembers N ((k, v) :: members) ++ '\x7d' :: rest).length
        (by
          rw [List.length_append]
          exact le_trans hlen (Nat.le_add_right _ _)) [] (by simpa using hwf.2)
      obtain ⟨tail, htext⟩ := dumpsMembers_head N k v members
      rw [dumps, List.cons_append, List.cons_append, List.append_assoc, List.singleton_append,
        scanOnce]
      rw [htext, List.cons_append] at hscan ⊢
      rw [skipWs_cons (by decide)]
      split
      next rest' heq => exact absurd (List.cons.inj heq).1 (by decide)
      next => simpa using hscan

theorem scanElements_dumps : ∀ (elements : List (Value ν)), WFElements elements → elements ≠ [] →
    ∀ (rest : Text), Stops rest → ∀ (fuel : ℕ), (dumpsElements N elements).length ≤ fuel →
      ∀ (count : ℕ), elements.length ≤ count → ∀ (done : List (Value ν)),
        scanElements (scanOnce N fuel) count done (dumpsElements N elements ++ ']' :: rest) =
          some (.arr (done ++ elements), rest)
  | [], _, hne, _, _, _, _, _, _, _ => absurd rfl hne
  | v :: elements, hwf, _, rest, hstop, fuel, hfuel, 0, hcount, _ => absurd hcount (by simp)
  | [v], hwf, _, rest, hstop, fuel, hfuel, count + 1, _, done => by
      rw [WFElements] at hwf
      rw [dumpsElements] at hfuel ⊢
      have hclose : Stops (']' :: rest) := stops_cons (by decide) rest
      rw [scanElements, scanOnce_dumps v hwf.1 (']' :: rest) hclose fuel hfuel]
      simp [skipWs_cons (show isWs ']' = false by decide)]
  | v :: w :: elements, hwf, _, rest, hstop, fuel, hfuel, count + 1, hcount, done => by
      rw [WFElements] at hwf
      rw [dumpsElements_cons N v (by simp)] at hfuel ⊢
      simp only [List.length_append, List.length_cons] at hfuel hcount
      rw [List.append_assoc, List.cons_append]
      have hcomma : Stops (',' :: (dumpsElements N (w :: elements) ++ ']' :: rest)) :=
        stops_cons (by decide) _
      rw [scanElements, scanOnce_dumps v hwf.1 _ hcomma fuel (by omega)]
      obtain ⟨c, tail, htext, hws, -⟩ := dumpsElements_head N w elements
      have hskip : skipWs (dumpsElements N (w :: elements) ++ ']' :: rest) =
          dumpsElements N (w :: elements) ++ ']' :: rest := by
        rw [htext, List.cons_append, skipWs_cons hws]
      simp only [Option.bind_some, skipWs_cons (show isWs ',' = false by decide), hskip]
      rw [scanElements_dumps (w :: elements) hwf.2 (by simp) rest hstop fuel (by omega) count
        (by simpa using hcount) (done ++ [v])]
      simp

theorem scanMembers_dumps : ∀ (members : List (List ℕ × Value ν)), WFMembers members →
    members ≠ [] → ∀ (rest : Text), Stops rest → ∀ (fuel : ℕ),
      (dumpsMembers N members).length ≤ fuel → ∀ (count : ℕ), members.length ≤ count →
        ∀ (done : List (List ℕ × Value ν)), ((done ++ members).map Prod.fst).Nodup →
          scanMembers (scanOnce N fuel) count done (dumpsMembers N members ++ '\x7d' :: rest) =
            some (.obj (done ++ members), rest)
  | [], _, hne, _, _, _, _, _, _, _, _ => absurd rfl hne
  | (k, v) :: members, hwf, _, rest, hstop, fuel, hfuel, 0, hcount, _, _ =>
      absurd hcount (by simp)
  | [(k, v)], hwf, _, rest, hstop, fuel, hfuel, count + 1, _, done, hkeys => by
      rw [WFMembers] at hwf
      rw [dumpsMembers] at hfuel ⊢
      simp only [List.length_append, List.length_cons] at hfuel
      have hclose : Stops ('\x7d' :: rest) := stops_cons (by decide) rest
      have hfresh : k ∉ done.map Prod.fst := by
        simp only [List.map_append, List.map_cons, List.map_nil] at hkeys
        exact fun hmem => (List.nodup_append.mp hkeys).2.2 k hmem k (by simp) rfl
      rw [scanMembers_member N hwf.1 v _ count done,
        scanOnce_dumps v hwf.2.1 ('\x7d' :: rest) hclose fuel (by omega)]
      simp [skipWs_cons (show isWs '\x7d' = false by decide), setEntry_fresh v hfresh]
  | (k, v) :: m :: members, hwf, _, rest, hstop, fuel, hfuel, count + 1, hcount, done, hkeys => by
      rw [WFMembers] at hwf
      obtain ⟨k', v'⟩ := m
      rw [dumpsMembers_cons N k v (by simp)] at hfuel ⊢
      simp only [List.length_append, List.length_cons] at hfuel hcount
      have hcomma : Stops (',' :: (dumpsMembers N ((k', v') :: members) ++ '\x7d' :: rest)) :=
        stops_cons (by decide) _
      have hfresh : k ∉ done.map Prod.fst := by
        simp only [List.map_append, List.map_cons] at hkeys
        exact fun hmem => (List.nodup_append.mp hkeys).2.2 k hmem k (by simp) rfl
      have htext' : quote k ++ ':' :: dumps N v ++ ',' :: dumpsMembers N ((k', v') :: members) ++
          '\x7d' :: rest = quote k ++ ':' :: dumps N v ++
            (',' :: (dumpsMembers N ((k', v') :: members) ++ '\x7d' :: rest)) := by
        simp
      rw [htext', scanMembers_member N hwf.1 v _ count done,
        scanOnce_dumps v hwf.2.1 _ hcomma fuel (by omega)]
      obtain ⟨tail, htext⟩ := dumpsMembers_head N k' v' members
      have hskip : skipWs (dumpsMembers N ((k', v') :: members) ++ '\x7d' :: rest) =
          dumpsMembers N ((k', v') :: members) ++ '\x7d' :: rest := by
        rw [htext, List.cons_append, skipWs_cons (by decide)]
      simp only [Option.bind_some, skipWs_cons (show isWs ',' = false by decide), hskip,
        setEntry_fresh v hfresh]
      rw [scanMembers_dumps ((k', v') :: members) hwf.2.2 (by simp) rest hstop fuel (by omega) count
        (by simpa using hcount) (done ++ [(k, v)]) (by simpa using hkeys)]
      simp

end

end Json
end Library
end AvaListener
