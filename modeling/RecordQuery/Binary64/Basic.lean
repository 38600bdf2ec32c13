set_option autoImplicit false

/-!
# Binary64 numbers

Floating-point values as their 64 bits. Every finite value is a whole multiple of the smallest
subnormal `2 ^ (-1074)`, so a finite value is here an integer, `Binary64.units`, and order and
arithmetic are exact integer computations with one rounding at the end.

## Main definitions

* `Binary64` — the bits.
* `Binary64.isNaN`, `Binary64.isInfinite`, `Binary64.units` — what the bits stand for.
* `Binary64.orderKey`, `Binary64.compare?` — numeric order, in which `0` and `-0` are equal and a
  NaN has no place.
* `Binary64.totalKey`, `Binary64.compareTotal` — the total order on all bit patterns that agrees
  with the numeric order on numbers, puts `-0` before `0`, and the NaNs at both ends.

## Main results

* `Binary64.compare?_eq_none_iff` — only a NaN is incomparable.
-/

namespace RecordQuery

/-- A floating-point value, given by its 64 bits. -/
structure Binary64 where
  /-- Sign, exponent and fraction, from the highest bit to the lowest. -/
  bits : UInt64
  deriving DecidableEq, Inhabited

namespace Binary64

/-- The weight of the sign bit. -/
def signWeight : Nat := 0x8000000000000000

/-- The number of fractions. The fraction is what the bits leave over it, the exponent how often
they hold it. -/
def fractionCount : Nat := 0x10000000000000

/-- The sign bit. -/
def isNegative (x : Binary64) : Bool := decide (signWeight ≤ x.bits.toNat)

/-- The bits without the sign. -/
def magnitude (x : Binary64) : Nat := x.bits.toNat % signWeight

/-- The magnitude of the infinities; everything above is a NaN. -/
def infinityMagnitude : Nat := 2047 * fractionCount

/-- The value with the given sign and magnitude bits. -/
def ofMagnitude (negative : Bool) (m : Nat) : Binary64 :=
  ⟨UInt64.ofNat (if negative then signWeight + m else m)⟩

/-- The zero of the given sign. -/
def zero (negative : Bool) : Binary64 := ofMagnitude negative 0

/-- The infinity of the given sign. -/
def infinity (negative : Bool) : Binary64 := ofMagnitude negative infinityMagnitude

/-- The quiet NaN of the given sign. -/
def nan (negative : Bool) : Binary64 := ofMagnitude negative (infinityMagnitude + fractionCount / 2)

/-- The NaN that an operation without a value produces. -/
def invalid : Binary64 := nan true

/-- Whether the value is not a number. -/
def isNaN (x : Binary64) : Bool := decide (infinityMagnitude < x.magnitude)

/-- Whether the value is one of the two infinities. -/
def isInfinite (x : Binary64) : Bool := decide (x.magnitude = infinityMagnitude)

/-- The significand of a finite value. -/
def significand (x : Binary64) : Nat :=
  if x.magnitude < fractionCount then x.magnitude
  else fractionCount + x.magnitude % fractionCount

/-- The power of two that scales the significand, counted from `2 ^ (-1074)`. -/
def scale (x : Binary64) : Nat := x.magnitude / fractionCount - 1

/-- The size of a finite value, in multiples of `2 ^ (-1074)`. -/
def absUnits (x : Binary64) : Nat := x.significand <<< x.scale

/-- A finite value in multiples of `2 ^ (-1074)`. -/
def units (x : Binary64) : Int := if x.isNegative then -(x.absUnits : Int) else x.absUnits

/-- The number of units in one. -/
def unitsPerOne : Nat := 1 <<< 1074

/-! ## Order -/

/-- An integer that orders numbers as their values are ordered; both zeros have key zero. -/
def orderKey (x : Binary64) : Int := if x.isNegative then -(x.magnitude : Int) else x.magnitude

/-- Numeric order; a NaN is not comparable. -/
def compare? (x y : Binary64) : Option Ordering :=
  if x.isNaN || y.isNaN then none else some (compare x.orderKey y.orderKey)

/-- Numeric equality: the zeros are equal, a NaN equals nothing. -/
def equal (x y : Binary64) : Bool := !x.isNaN && !y.isNaN && decide (x.orderKey = y.orderKey)

/-- Whether the value is one of the two zeros. -/
def isZero (x : Binary64) : Bool := decide (x.magnitude = 0)

/-- An integer that orders all bit patterns. -/
def totalKey (x : Binary64) : Int :=
  if x.isNegative then -(x.magnitude : Int) - 1 else x.magnitude

/-- The total order on all bit patterns. -/
def compareTotal (x y : Binary64) : Ordering := compare x.totalKey y.totalKey

/-- Only a NaN is incomparable. -/
theorem compare?_eq_none_iff (x y : Binary64) :
    x.compare? y = none ↔ x.isNaN = true ∨ y.isNaN = true := by
  unfold compare?
  split <;> simp_all

/-! ## Sign -/

/-- The value with the opposite sign bit. -/
def neg (x : Binary64) : Binary64 := ofMagnitude (!x.isNegative) x.magnitude

/-- The value with the sign bit cleared. -/
def abs (x : Binary64) : Binary64 := ofMagnitude false x.magnitude

end Binary64

end RecordQuery
