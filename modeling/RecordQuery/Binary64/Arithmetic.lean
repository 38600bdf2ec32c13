import RecordQuery.Binary64.Basic

set_option autoImplicit false

/-!
# Arithmetic on binary64 numbers

Each operation computes its exact result as a quotient of two natural numbers and rounds once, to
the nearest value and on a tie to the one with an even significand. An operation on a NaN returns
the first NaN among its operands; an operation without a value returns `Binary64.invalid`.

## Main definitions

* `roundHalfEven` — the whole number nearest to a quotient, even on a tie.
* `clampInt64` — the 64-bit integer nearest to an integer.
* `Binary64.ofUnits` — the value nearest to a quotient of units.
* `Binary64.ofInt` — the value nearest to an integer.
* `Binary64.toInt64` — truncation toward zero, clamped to the 64-bit integers.
* `Binary64.add`, `Binary64.sub`, `Binary64.mul`, `Binary64.div`, `Binary64.rem`.
-/

namespace RecordQuery

/-- The whole number nearest to `num / den`; of two equally near ones the even one. -/
def roundHalfEven (num den : Nat) : Nat :=
  let q := num / den
  match compare (2 * (num % den)) den with
  | .lt => q
  | .gt => q + 1
  | .eq => if q % 2 = 0 then q else q + 1

/-- The 64-bit integer nearest to an integer. -/
def clampInt64 (i : Int) : Int64 :=
  Int64.ofInt (max Int64.minValue.toInt (min i Int64.maxValue.toInt))

namespace Binary64

/-- The magnitude bits nearest to `num / den` units. The significand has 53 bits where the value is
large enough; below that the grid is the units themselves. Consecutive binades have consecutive
bit patterns, so a significand rounded up to `2 ^ 53` needs no correction. -/
def roundMagnitude (num den : Nat) : Nat :=
  let shift := (num / den).log2 - 52
  min (shift * fractionCount + roundHalfEven num (den <<< shift)) infinityMagnitude

/-- The value of the given sign nearest to `num / den` units. -/
def ofUnits (negative : Bool) (num den : Nat) : Binary64 :=
  ofMagnitude negative (roundMagnitude num den)

/-- The value nearest to an integer. -/
def ofInt (i : Int) : Binary64 := ofUnits (decide (i < 0)) (i.natAbs * unitsPerOne) 1

/-- The value nearest to a 64-bit integer. -/
def ofInt64 (i : Int64) : Binary64 := ofInt i.toInt

/-- Truncates toward zero and clamps to the 64-bit integers; a NaN becomes zero. -/
def toInt64 (x : Binary64) : Int64 :=
  if x.isNaN then 0
  else if x.isInfinite then (if x.isNegative then Int64.minValue else Int64.maxValue)
  else clampInt64 (x.units.tdiv unitsPerOne)

/-- The sum. The sum of two opposite numbers is the positive zero, that of two negative zeros the
negative one. -/
def add (x y : Binary64) : Binary64 :=
  if x.isNaN then x
  else if y.isNaN then y
  else if x.isInfinite then
    if y.isInfinite && x.isNegative != y.isNegative then invalid else x
  else if y.isInfinite then y
  else
    let s := x.units + y.units
    if s = 0 then zero (x.isNegative && y.isNegative) else ofUnits (decide (s < 0)) s.natAbs 1

/-- The difference. -/
def sub (x y : Binary64) : Binary64 :=
  if x.isNaN then x else if y.isNaN then y else x.add y.neg

/-- The product. -/
def mul (x y : Binary64) : Binary64 :=
  let negative := x.isNegative != y.isNegative
  if x.isNaN then x
  else if y.isNaN then y
  else if x.isInfinite || y.isInfinite then
    if x.isZero || y.isZero then invalid else infinity negative
  else ofUnits negative (x.absUnits * y.absUnits) unitsPerOne

/-- The quotient. -/
def div (x y : Binary64) : Binary64 :=
  let negative := x.isNegative != y.isNegative
  if x.isNaN then x
  else if y.isNaN then y
  else if x.isInfinite then if y.isInfinite then invalid else infinity negative
  else if y.isInfinite then zero negative
  else if y.isZero then if x.isZero then invalid else infinity negative
  else ofUnits negative (x.absUnits * unitsPerOne) y.absUnits

/-- The remainder of the division that truncates toward zero. It is exact and has the sign of the
dividend. -/
def rem (x y : Binary64) : Binary64 :=
  if x.isNaN then x
  else if y.isNaN then y
  else if x.isInfinite || y.isZero then invalid
  else if y.isInfinite then x
  else ofUnits x.isNegative (x.absUnits % y.absUnits) 1

end Binary64

end RecordQuery
