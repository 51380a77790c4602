import Mathlib.Data.Rat.Defs
import Mathlib.Algebra.Order.Ring.Rat
import AvaListener.Library.OrderedDict
import AvaListener.Library.PyText

/-!
# Dynamically typed values

The values that a JSON document becomes in Python, and the operations of the
language that fail on a value of the wrong type: comparison with a number, `in`,
iteration, attribute and item access, hashing, and the conversions `float`, `int`
and `bool`.
-/

namespace AvaListener
namespace Library

/-- The exceptions that the operations below raise. -/
inductive PyError where
  | typeError
  | attributeError
  | keyError (key : Text)
  | valueError
  | overflowError
  deriving DecidableEq

/-- A float: a finite number, or one of the values that are none. -/
inductive PyFloat where
  | finite (x : ℚ)
  | nan
  | infinity
  | negInfinity
  deriving DecidableEq

namespace PyFloat

/-- `x < bound`; `nan` is not below anything. -/
def lt (x : PyFloat) (bound : ℚ) : Bool :=
  match x with
  | .finite x => x < bound
  | .negInfinity => true
  | .nan | .infinity => false

/-- `x > bound`. -/
def gt (x : PyFloat) (bound : ℚ) : Bool :=
  match x with
  | .finite x => bound < x
  | .infinity => true
  | .nan | .negInfinity => false

/-- `x <= bound`. -/
def le (x : PyFloat) (bound : ℚ) : Bool :=
  match x with
  | .finite x => x ≤ bound
  | .negInfinity => true
  | .nan | .infinity => false

/-- `x >= bound`. -/
def ge (x : PyFloat) (bound : ℚ) : Bool :=
  match x with
  | .finite x => bound ≤ x
  | .infinity => true
  | .nan | .negInfinity => false

/-- Only a finite number is between two bounds. -/
theorem between_iff {x : PyFloat} {lower upper : ℚ} :
    (x.gt lower && x.le upper) = true ↔ ∃ q, x = .finite q ∧ lower < q ∧ q ≤ upper := by
  cases x with
  | finite q => simp [gt, le]
  | nan => simp [gt]
  | infinity => simp [le]
  | negInfinity => simp [gt]

/-- What is not below a bound is at or above it, or is no number. -/
theorem ge_iff {x : PyFloat} {bound : ℚ} : x.ge bound = true ↔ x.lt bound = false ∧ x ≠ .nan := by
  cases x with
  | finite q => simp [ge, lt]
  | nan => simp [ge]
  | infinity => simp [ge, lt]
  | negInfinity => simp [ge, lt]

end PyFloat

/-- A value.  A `dict` lists its items in insertion order. -/
inductive PyValue where
  | none
  | bool (b : Bool)
  | int (n : ℤ)
  | float (x : PyFloat)
  | str (s : Text)
  | list (elements : List PyValue)
  | dict (items : List (Text × PyValue))

/-- What equality of hashable values compares: `1`, `1.0` and `True` are one key. -/
inductive PyKey where
  | none
  | number (x : PyFloat)
  | str (s : Text)
  deriving DecidableEq

/-- The conversions between numbers and texts. -/
structure PyNumbers where
  /-- `float(n)`; `none` when the integer is too large. -/
  floatOfInt : ℤ → Option PyFloat
  /-- `float(s)`; `none` when the text is not a number. -/
  floatOfText : Text → Option PyFloat
  /-- `int(s)`; `none` when the text is not an integer. -/
  intOfText : Text → Option ℤ

/-- Integers that are floats as they are, and texts that are no numbers. -/
def PyNumbers.exact : PyNumbers :=
  ⟨fun n => some (.finite n), fun _ => none, fun _ => none⟩

namespace PyValue

/-- The value of a key among the items of a `dict`. -/
def item? (items : List (Text × PyValue)) (key : Text) : Option PyValue :=
  (items.find? fun e => e.1 = key).map Prod.snd

theorem item?_setEntry (items : List (Text × PyValue)) (key : Text) (value : PyValue)
    (other : Text) :
    item? (setEntry items key value) other = if other = key then some value else item? items other :=
  find?_setEntry items key value other

/-- `isinstance(v, dict)`. -/
def isDict : PyValue → Bool
  | .dict _ => true
  | _ => false

/-- No object in the value repeats a key, as in everything that `json.load`
returns. -/
inductive DistinctKeys : PyValue → Prop
  | none : DistinctKeys .none
  | bool (b : Bool) : DistinctKeys (.bool b)
  | int (n : ℤ) : DistinctKeys (.int n)
  | float (x : PyFloat) : DistinctKeys (.float x)
  | str (s : Text) : DistinctKeys (.str s)
  | list {elements : List PyValue} (members : ∀ v ∈ elements, DistinctKeys v) :
      DistinctKeys (.list elements)
  | dict {items : List (Text × PyValue)} (nodup : (items.map Prod.fst).Nodup)
      (members : ∀ e ∈ items, DistinctKeys e.2) : DistinctKeys (.dict items)

/-- `bool(v)`. -/
def truthy : PyValue → Bool
  | .none => false
  | .bool b => b
  | .int n => n ≠ 0
  | .float x => x ≠ .finite 0
  | .str s => s ≠ []
  | .list elements => !elements.isEmpty
  | .dict items => !items.isEmpty

/-- The number that `<` and `>` compare with another number. -/
def number : PyValue → Except PyError PyFloat
  | .bool b => .ok (.finite (if b then 1 else 0))
  | .int n => .ok (.finite n)
  | .float x => .ok x
  | _ => .error .typeError

/-- `hash(v)`, as the key the value is in a `dict` or a `set`. -/
def hash : PyValue → Except PyError PyKey
  | .none => .ok .none
  | .bool b => .ok (.number (.finite (if b then 1 else 0)))
  | .int n => .ok (.number (.finite n))
  | .float x => .ok (.number x)
  | .str s => .ok (.str s)
  | .list _ | .dict _ => .error .typeError

/-- `for x in v`. -/
def iterate : PyValue → Except PyError (List PyValue)
  | .list elements => .ok elements
  | .dict items => .ok (items.map fun e => .str e.1)
  | .str s => .ok (s.map fun c => .str [c])
  | _ => .error .typeError

/-- `needle in v`. -/
def contains (needle : Text) : PyValue → Except PyError Bool
  | .list elements => .ok (elements.any fun v => match v with
      | .str s => s = needle
      | _ => false)
  | .dict items => .ok (items.any fun e => e.1 = needle)
  | .str s => .ok (occursIn needle s)
  | _ => .error .typeError

/-- The items of a `dict`, for its methods. -/
def items : PyValue → Except PyError (List (Text × PyValue))
  | .dict items => .ok items
  | _ => .error .attributeError

/-- The characters of a `str`, for its methods. -/
def text : PyValue → Except PyError Text
  | .str s => .ok s
  | _ => .error .attributeError

/-- `float(v)`. -/
def toFloat (numbers : PyNumbers) : PyValue → Except PyError PyFloat
  | .bool b => .ok (.finite (if b then 1 else 0))
  | .int n => (numbers.floatOfInt n).elim (.error .overflowError) .ok
  | .float x => .ok x
  | .str s => (numbers.floatOfText s).elim (.error .valueError) .ok
  | _ => .error .typeError

/-- `int(v)`: a float is cut off towards zero. -/
def toInt (numbers : PyNumbers) : PyValue → Except PyError ℤ
  | .bool b => .ok (if b then 1 else 0)
  | .int n => .ok n
  | .float (.finite x) => .ok (x.num.tdiv x.den)
  | .float .nan => .error .valueError
  | .float _ => .error .overflowError
  | .str s => (numbers.intOfText s).elim (.error .valueError) .ok
  | _ => .error .typeError

/-- Whether a value can be a key. -/
def hashable (v : PyValue) : Bool :=
  v.hash.isOk

theorem hashable_iff {v : PyValue} : v.hashable = true ↔ ∃ key, v.hash = .ok key := by
  unfold hashable
  cases v.hash with
  | error e => exact ⟨nofun, nofun⟩
  | ok key => exact ⟨fun _ => ⟨key, rfl⟩, fun _ => rfl⟩

end PyValue

end Library
end AvaListener
