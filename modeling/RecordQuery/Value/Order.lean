import RecordQuery.StableSort
import RecordQuery.Value.Basic

set_option autoImplicit false

/-!
# Orders on values

Three comparisons of values. `Value.compare?` is the comparison of expressions: it compares values
of one kind and numbers of both kinds, puts null below everything, and says nothing about other
pairs. `Value.sortOrder` extends it to all pairs, for sorting records without a schema.

## Main definitions

* `Value.compare?` — comparison where one is defined.
* `Value.rank` — the order of the kinds.
* `Value.sortOrder` — comparison of any two values; `Value.sort` — values in that order.
-/

namespace RecordQuery

/-- Lexicographic order of lists of bytes. -/
def compareBytes : List UInt8 → List UInt8 → Ordering
  | [], [] => .eq
  | [], _ :: _ => .lt
  | _ :: _, [] => .gt
  | a :: as, b :: bs => (compare a.toNat b.toNat).then (compareBytes as bs)

namespace Value

mutual

/-- Comparison of two values where one is defined. Null is below everything. An integer is rounded
to the nearest floating-point number before it is compared with one. -/
def compare? : Value → Value → Option Ordering
  | null, null => some .eq
  | null, _ => some .lt
  | _, null => some .gt
  | integer a, integer b => some (compare a.toInt b.toInt)
  | float x, float y => x.compare? y
  | integer a, float y => (Binary64.ofInt64 a).compare? y
  | float x, integer b => x.compare? (Binary64.ofInt64 b)
  | text s, text t => some (compare s t)
  | boolean a, boolean b => some (compare (boolInt a).toInt (boolInt b).toInt)
  | blob a, blob b => some (compareBytes a b)
  | list xs, list ys => compareList? xs ys
  | _, _ => none

/-- Lexicographic comparison of two lists; undefined as soon as a pair before the first difference
has no order. -/
def compareList? : List Value → List Value → Option Ordering
  | [], [] => some .eq
  | [], _ :: _ => some .lt
  | _ :: _, [] => some .gt
  | x :: xs, y :: ys =>
    match compare? x y with
    | some .eq => compareList? xs ys
    | other => other

end

/-- The place of a value's kind in the sort order. -/
def rank : Value → Nat
  | null => 0
  | boolean _ => 1
  | integer _ => 2
  | float _ => 2
  | text _ => 3
  | blob _ => 4
  | list _ => 5

/-- The order of two numbers by the total order of floating-point bits; equal if one is not a
number. -/
def compareFloats (v w : Value) : Ordering :=
  match v.asFloat?, w.asFloat? with
  | some x, some y => x.compareTotal y
  | _, _ => .eq

/-- The order of two values of one rank that are neither two integers nor two lists. -/
def sortAlike (v w : Value) : Ordering := (compare? v w).getD (compareFloats v w)

mutual

/-- The order of any two values. Kinds rank null, truth value, number, text, bytes, list; numbers
are compared across the two kinds of numbers, and lists element by element. -/
def sortOrder : Value → Value → Ordering
  | integer a, integer b => compare a.toInt b.toInt
  | list xs, list ys => sortOrderList xs ys
  | v, w => if v.rank = w.rank then sortAlike v w else compare v.rank w.rank

/-- The order of two lists: that of the first pair that differs, else of the lengths. -/
def sortOrderList : List Value → List Value → Ordering
  | [], [] => .eq
  | [], _ :: _ => .lt
  | _ :: _, [] => .gt
  | x :: xs, y :: ys => (sortOrder x y).then (sortOrderList xs ys)

end

/-- Values in order. -/
def sort (vs : List Value) : List Value := stableSort (fun v w => sortOrder v w == .lt) vs

end Value

end RecordQuery
