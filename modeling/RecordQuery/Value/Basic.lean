import RecordQuery.Binary64.Arithmetic

set_option autoImplicit false

/-!
# Values

The values that records hold, rows carry and expressions compute. Records have no schema, so one
name may hold different kinds of values in different records.

## Main definitions

* `Value`, `Kind` — the values and the kinds they are of.
* `Value.equal` — equality of values: same kind and same content, floats by number.
* `Value.isTruthy` — whether a value counts as true.
-/

namespace RecordQuery

/-- A value. -/
inductive Value where
  /-- The absent value. -/
  | null
  /-- A truth value. -/
  | boolean (b : Bool)
  /-- A 64-bit integer. -/
  | integer (i : Int64)
  /-- A floating-point number. -/
  | float (x : Binary64)
  /-- A text. -/
  | text (s : String)
  /-- A sequence of bytes. -/
  | blob (bs : List UInt8)
  /-- A list of values. -/
  | list (vs : List Value)
  deriving Inhabited

/-- The kinds of values. -/
inductive Kind where
  | null
  | boolean
  | integer
  | float
  | text
  | blob
  | list
  deriving DecidableEq

/-- The name of a kind in messages. -/
def Kind.name : Kind → String
  | .null => "null"
  | .boolean => "boolean"
  | .integer => "integer"
  | .float => "float"
  | .text => "string"
  | .blob => "blob"
  | .list => "list"

/-- The integer `0` or `1` that stands for a truth value. -/
def boolInt (b : Bool) : Int64 := if b then 1 else 0

namespace Value

/-- The kind of a value. -/
def kind : Value → Kind
  | null => .null
  | boolean _ => .boolean
  | integer _ => .integer
  | float _ => .float
  | text _ => .text
  | blob _ => .blob
  | list _ => .list

/-- Whether a value is the absent one. -/
def isNull : Value → Bool
  | null => true
  | _ => false

/-- The integer that an integer or a truth value stands for. -/
def asInt? : Value → Option Int64
  | integer i => some i
  | boolean b => some (boolInt b)
  | _ => none

/-- The floating-point number that a number stands for. -/
def asFloat? : Value → Option Binary64
  | integer i => some (Binary64.ofInt64 i)
  | float x => some x
  | _ => none

/-- The characters of a text. -/
def asText? : Value → Option String
  | text s => some s
  | _ => none

/-- Whether a value counts as true: the truth value itself, and every integer but zero. -/
def isTruthy : Value → Bool
  | boolean b => b
  | integer i => i != 0
  | _ => false

mutual

/-- Equality of values. The kinds must agree; floats are compared as numbers, so that a NaN differs
from itself and the two zeros are equal. -/
def equal : Value → Value → Bool
  | null, null => true
  | boolean a, boolean b => a == b
  | integer a, integer b => a == b
  | float x, float y => x.equal y
  | text s, text t => s == t
  | blob a, blob b => a == b
  | list xs, list ys => equalList xs ys
  | _, _ => false

/-- Equality of lists of values. -/
def equalList : List Value → List Value → Bool
  | [], [] => true
  | x :: xs, y :: ys => equal x y && equalList xs ys
  | _, _ => false

end

mutual

/-- Sameness of values down to the bits of floats. -/
def identical : Value → Value → Bool
  | null, null => true
  | boolean a, boolean b => a == b
  | integer a, integer b => a == b
  | float x, float y => decide (x = y)
  | text s, text t => s == t
  | blob a, blob b => a == b
  | list xs, list ys => identicalList xs ys
  | _, _ => false

/-- Sameness of lists of values down to the bits of floats. -/
def identicalList : List Value → List Value → Bool
  | [], [] => true
  | x :: xs, y :: ys => identical x y && identicalList xs ys
  | _, _ => false

end

end Value

end RecordQuery
