import AvaListener.Library.OrderedDict
import AvaListener.Library.PyText

/-!
# JSON texts

A JSON library in the manner of Python's `json`: compact ASCII serialisation
(`dumps` with separators `","` and `":"`) and a decoder (`loads`) with maximal
munch for numbers, the literals `NaN`, `Infinity` and `-Infinity`, strict
strings, joined surrogate escapes, and last-one-wins object keys.

Strings are lists of code points.  Numbers are a parameter: a type with the
conversions from and to number tokens.

The decoder recurses on fuel; `loads` gives it more than the length of the text.
-/

namespace AvaListener
namespace Library
namespace Json

/-- The literals, among them those that are not standard JSON. -/
inductive Literal where
  | null
  | true
  | false
  | nan
  | infinity
  | negInfinity
  deriving DecidableEq, Repr

def Literal.text : Literal → Text
  | .null => ['n', 'u', 'l', 'l']
  | .true => ['t', 'r', 'u', 'e']
  | .false => ['f', 'a', 'l', 's', 'e']
  | .nan => ['N', 'a', 'N']
  | .infinity => ['I', 'n', 'f', 'i', 'n', 'i', 't', 'y']
  | .negInfinity => ['-', 'I', 'n', 'f', 'i', 'n', 'i', 't', 'y']

/-- JSON values over numbers `ν`; an object lists its members in insertion
order. -/
inductive Value (ν : Type) where
  | lit (l : Literal)
  | num (x : ν)
  | str (s : List ℕ)
  | arr (elements : List (Value ν))
  | obj (members : List (List ℕ × Value ν))

/-! ## Strings -/

def isHigh (u : ℕ) : Bool := 0xD800 ≤ u ∧ u < 0xDC00

def isLow (u : ℕ) : Bool := 0xDC00 ≤ u ∧ u < 0xE000

/-- A code point as one escape unit or as a surrogate pair. -/
def unitsOf (c : ℕ) : List ℕ :=
  if c < 0x10000 then [c]
  else [0xD800 + (c - 0x10000) / 0x400, 0xDC00 + (c - 0x10000) % 0x400]

def joinPair (u v : ℕ) : ℕ :=
  0x10000 + (u - 0xD800) * 0x400 + (v - 0xDC00)

def joinSurrogates : List ℕ → List ℕ
  | u :: v :: rest =>
      if isHigh u ∧ isLow v then joinPair u v :: joinSurrogates rest
      else u :: joinSurrogates (v :: rest)
  | us => us

def hexChar (d : ℕ) : Char :=
  if d < 10 then Char.ofNat (48 + d) else Char.ofNat (87 + d)

def hexVal (c : Char) : Option ℕ :=
  if 48 ≤ c.toNat ∧ c.toNat ≤ 57 then some (c.toNat - 48)
  else if 97 ≤ c.toNat ∧ c.toNat ≤ 102 then some (c.toNat - 87)
  else if 65 ≤ c.toNat ∧ c.toNat ≤ 70 then some (c.toNat - 55)
  else none

/-- Four hexadecimal digits, most significant first. -/
def hexText (u : ℕ) : Text :=
  [hexChar (u / 0x1000 % 16), hexChar (u / 0x100 % 16), hexChar (u / 0x10 % 16), hexChar (u % 16)]

def ofHex (a b c d : Char) : Option ℕ := do
  let a ← hexVal a
  let b ← hexVal b
  let c ← hexVal c
  let d ← hexVal d
  return a * 0x1000 + b * 0x100 + c * 0x10 + d

/-- The two-character escapes that `dumps` writes. -/
def shortEscape (u : ℕ) : Option Char :=
  if u = 34 then some '"'
  else if u = 92 then some '\\'
  else if u = 8 then some 'b'
  else if u = 12 then some 'f'
  else if u = 10 then some 'n'
  else if u = 13 then some 'r'
  else if u = 9 then some 't'
  else none

/-- The two-character escapes that `loads` reads. -/
def unescape (c : Char) : Option ℕ :=
  if c = '"' then some 34
  else if c = '\\' then some 92
  else if c = '/' then some 47
  else if c = 'b' then some 8
  else if c = 'f' then some 12
  else if c = 'n' then some 10
  else if c = 'r' then some 13
  else if c = 't' then some 9
  else none

def escapeUnit (u : ℕ) : Text :=
  match shortEscape u with
  | some c => ['\\', c]
  | none => if 0x20 ≤ u ∧ u ≤ 0x7E then [Char.ofNat u] else '\\' :: 'u' :: hexText u

def quote (s : List ℕ) : Text :=
  '"' :: (s.flatMap unitsOf).flatMap escapeUnit ++ ['"']

/-- The units of a string up to its closing quote, and the text behind it. -/
def scanUnits : Text → Option (List ℕ × Text)
  | [] => none
  | '"' :: rest => some ([], rest)
  | '\\' :: 'u' :: a :: b :: c :: d :: rest =>
      match ofHex a b c d with
      | none => none
      | some u => (scanUnits rest).map fun done => (u :: done.1, done.2)
  | '\\' :: c :: rest =>
      match unescape c with
      | none => none
      | some u => (scanUnits rest).map fun done => (u :: done.1, done.2)
  | c :: rest =>
      -- A lone backslash at the end, or a control character.
      if c = '\\' ∨ c.toNat < 0x20 then none
      else (scanUnits rest).map fun done => (c.toNat :: done.1, done.2)

def scanString (cs : Text) : Option (List ℕ × Text) :=
  (scanUnits cs).map fun done => (joinSurrogates done.1, done.2)

/-! ## Numbers -/

def isDigit (c : Char) : Bool := 48 ≤ c.toNat ∧ c.toNat ≤ 57

/-- What a part of a number token takes, and what it leaves. -/
def takeDigits (cs : Text) : Text × Text :=
  (cs.takeWhile isDigit, cs.dropWhile isDigit)

def takeSign (signs : List Char) : Text → Text × Text
  | c :: rest => if c ∈ signs then ([c], rest) else ([], c :: rest)
  | [] => ([], [])

def takeInt : Text → Option (Text × Text)
  | c :: rest =>
      if c = '0' then some (['0'], rest)
      else if isDigit c then some (c :: (takeDigits rest).1, (takeDigits rest).2)
      else none
  | [] => none

/-- A part that is present only with at least one digit: `.123`, `e+12`. -/
def takeMarked (marks signs : List Char) : Text → Text × Text
  | c :: rest =>
      let signed := takeSign signs rest
      let digits := takeDigits signed.2
      if c ∈ marks ∧ digits.1 ≠ [] then (c :: signed.1 ++ digits.1, digits.2) else ([], c :: rest)
  | [] => ([], [])

/-- The longest number token at the front. -/
def scanToken (cs : Text) : Option (Text × Text) :=
  let sign := takeSign ['-'] cs
  match takeInt sign.2 with
  | none => none
  | some (int, rest) =>
      let frac := takeMarked ['.'] [] rest
      let exp := takeMarked ['e', 'E'] ['+', '-'] frac.2
      some (sign.1 ++ int ++ frac.1 ++ exp.1, exp.2)

/-- The text is a number token as a whole. -/
def IsToken (t : Text) : Prop := scanToken t = some (t, [])

/-- The numbers of a JSON library: the conversion of a token may fail, and every
number is written as a token that is read back as that number. -/
structure Numbers (ν : Type) where
  ofToken : Text → Option ν
  repr : ν → Text
  repr_isToken : ∀ x, IsToken (repr x)
  ofToken_repr : ∀ x, ofToken (repr x) = some x

instance (t : Text) : Decidable (IsToken t) := inferInstanceAs (Decidable (_ = _))

/-- Numbers kept as their own tokens. -/
def tokenNumbers : Numbers {t : Text // IsToken t} where
  ofToken t := if h : IsToken t then some ⟨t, h⟩ else none
  repr x := x.1
  repr_isToken x := x.2
  ofToken_repr x := dif_pos x.2

variable {ν : Type} (N : Numbers ν)

/-! ## Serialisation -/

mutual

def dumps : Value ν → Text
  | .lit l => l.text
  | .num x => N.repr x
  | .str s => quote s
  | .arr elements => '[' :: dumpsElements elements ++ [']']
  | .obj members => '\x7b' :: dumpsMembers members ++ ['\x7d']

def dumpsElements : List (Value ν) → Text
  | [] => []
  | [v] => dumps v
  | v :: w :: rest => dumps v ++ ',' :: dumpsElements (w :: rest)

def dumpsMembers : List (List ℕ × Value ν) → Text
  | [] => []
  | [(k, v)] => quote k ++ ':' :: dumps v
  | (k, v) :: m :: rest => quote k ++ ':' :: dumps v ++ ',' :: dumpsMembers (m :: rest)

end

/-! ## Decoding -/

def isWs (c : Char) : Bool := c = ' ' ∨ c = '\t' ∨ c = '\n' ∨ c = '\r'

def skipWs (cs : Text) : Text := cs.dropWhile isWs

/-- The literals that need no number scan, tried in turn. -/
def scanLiteral (cs : Text) : Option (Value ν × Text) :=
  [Literal.null, .true, .false, .nan, .infinity, .negInfinity].findSome? fun l =>
    if startsWith cs l.text then some (.lit l, cs.drop l.text.length) else none

def scanNumber (cs : Text) : Option (Value ν × Text) :=
  (scanToken cs).bind fun token => (N.ofToken token.1).map fun x => (.num x, token.2)

/-- The elements of an array, after `[` and white space, given a decoder of
values. -/
def scanElements (value : Text → Option (Value ν × Text)) :
    ℕ → List (Value ν) → Text → Option (Value ν × Text)
  | 0, _, _ => none
  | fuel + 1, done, cs =>
      (value cs).bind fun element =>
        match skipWs element.2 with
        | ']' :: rest => some (.arr (done ++ [element.1]), rest)
        | ',' :: rest => scanElements value fuel (done ++ [element.1]) (skipWs rest)
        | _ => none

/-- The members of an object, after the brace and white space. -/
def scanMembers (value : Text → Option (Value ν × Text)) :
    ℕ → List (List ℕ × Value ν) → Text → Option (Value ν × Text)
  | 0, _, _ => none
  | fuel + 1, done, cs =>
      match cs with
      | '"' :: afterQuote =>
          (scanString afterQuote).bind fun key =>
            match skipWs key.2 with
            | ':' :: afterColon =>
                (value (skipWs afterColon)).bind fun element =>
                  let done := setEntry done key.1 element.1
                  match skipWs element.2 with
                  | '\x7d' :: rest => some (.obj done, rest)
                  | ',' :: rest => scanMembers value fuel done (skipWs rest)
                  | _ => none
            | _ => none
      | _ => none

/-- `scan_once`: one value at the front of the text. -/
def scanOnce : ℕ → Text → Option (Value ν × Text)
  | 0, _ => none
  | fuel + 1, cs =>
      match cs with
      | '"' :: rest => (scanString rest).map fun done => (.str done.1, done.2)
      | '[' :: rest =>
          match skipWs rest with
          | ']' :: rest => some (.arr [], rest)
          | body => scanElements (scanOnce fuel) body.length [] body
      | '\x7b' :: rest =>
          match skipWs rest with
          | '\x7d' :: rest => some (.obj [], rest)
          | body => scanMembers (scanOnce fuel) body.length [] body
      | _ => (scanNumber N cs).or (scanLiteral cs)

/-- `json.loads`: one value with white space around it. -/
def loads (text : Text) : Option (Value ν) :=
  if text.head? = some '\ufeff' then none
  else
    match scanOnce N (text.length + 1) (skipWs text) with
    | some (v, rest) => if skipWs rest = [] then some v else none
    | none => none

end Json
end Library
end AvaListener
