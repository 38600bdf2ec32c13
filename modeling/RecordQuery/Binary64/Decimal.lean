import RecordQuery.Binary64.Basic

set_option autoImplicit false

/-!
# Decimal text of binary64 numbers

A number is written with the fewest decimal digits that read back as the same number, and among
those with the digits nearest to it. Where two decimals are equally near, the larger is taken. The
point stands where it belongs; there is never an exponent, and a whole number has no point.

## Main definitions

* `Decimal` — a whole number times a power of ten.
* `Binary64.shortest` — the shortest decimal that reads back.
* `Decimal.positional` — a decimal written out.
* `Binary64.toText` — the text of any value.
-/

namespace RecordQuery

/-- The decimal `digits * 10 ^ exponent`. -/
structure Decimal where
  /-- The digits, as a whole number. -/
  digits : Nat
  /-- The power of ten of the last digit. -/
  exponent : Int
  deriving DecidableEq

namespace Decimal

/-- Removes trailing zero digits, at most `fuel` of them. -/
def trim : Nat → Decimal → Decimal
  | 0, d => d
  | fuel + 1, d => if d.digits % 10 = 0 then trim fuel ⟨d.digits / 10, d.exponent + 1⟩ else d

/-- The digits with the point at its place, without an exponent. -/
def positional (d : Decimal) : String :=
  let ds := Nat.toDigits 10 d.digits
  match d.exponent with
  | .ofNat n => String.ofList (ds ++ List.replicate n '0')
  | .negSucc m =>
    let places := m + 1
    if places < ds.length then
      String.ofList (ds.take (ds.length - places) ++ '.' :: ds.drop (ds.length - places))
    else
      String.ofList ('0' :: '.' :: (List.replicate (places - ds.length) '0' ++ ds))

end Decimal

/-- The real numbers that round to a value: those between `low` and `high`, measured like the
value itself in `num / den`. The ends belong to it if the significand is even. -/
structure RoundingInterval where
  /-- Four times the significand. -/
  value : Nat
  /-- The lower end. -/
  low : Nat
  /-- The upper end. -/
  high : Nat
  /-- Whether the ends round to the value too. -/
  closed : Bool
  /-- Numerator of the unit of measure. -/
  num : Nat
  /-- Denominator of the unit of measure. -/
  den : Nat

namespace RoundingInterval

/-- The numerator of the grid of multiples of `10 ^ exponent`. -/
def gridNum (exponent : Int) : Nat := Nat.pow 10 exponent.toNat

/-- The denominator of the grid of multiples of `10 ^ exponent`. -/
def gridDen (exponent : Int) : Nat := Nat.pow 10 (-exponent).toNat

/-- The order of a decimal and the end or value `bound`. -/
def compareWith (i : RoundingInterval) (d : Decimal) (bound : Nat) : Ordering :=
  compare (d.digits * gridNum d.exponent * i.den) (bound * i.num * gridDen d.exponent)

/-- Whether a decimal lies in the interval. -/
def holds (i : RoundingInterval) (d : Decimal) : Bool :=
  match i.compareWith d i.low, i.compareWith d i.high with
  | .gt, .lt => true
  | .eq, _ => i.closed
  | _, .eq => i.closed
  | _, _ => false

/-- The last multiple of `10 ^ exponent` that is not above the value. -/
def floorOn (i : RoundingInterval) (exponent : Int) : Nat :=
  (i.value * i.num * gridDen exponent) / (i.den * gridNum exponent)

/-- The distances of the value from `digits` and from `digits + 1` on a grid, compared. -/
def compareDistances (i : RoundingInterval) (digits : Nat) (exponent : Int) : Ordering :=
  compare (2 * (i.value * i.num * gridDen exponent))
    ((2 * digits + 1) * (i.den * gridNum exponent))

/-- The neighbour of the value on a grid that reads back, and of two the nearer; a tie goes to the
larger. -/
def onGrid (i : RoundingInterval) (exponent : Int) : Option Decimal :=
  let below : Decimal := ⟨i.floorOn exponent, exponent⟩
  let above : Decimal := ⟨i.floorOn exponent + 1, exponent⟩
  match i.holds below, i.holds above with
  | false, false => none
  | true, false => some below
  | false, true => some above
  | true, true =>
    match i.compareDistances below.digits exponent with
    | .lt => some below
    | _ => some above

/-- The first grid with a hit, going through finer and finer ones. -/
def firstHit (i : RoundingInterval) : Nat → Int → Option Decimal
  | 0, _ => none
  | fuel + 1, exponent =>
    match i.onGrid exponent with
    | some d => some d
    | none => firstHit i fuel (exponent - 1)

/-- The exponent of the grid on which the value has one digit before its fraction. -/
def topExponent (i : RoundingInterval) : Int :=
  let whole := i.value * i.num / i.den
  if whole ≠ 0 then ((Nat.toDigits 10 whole).length : Int) - 1
  else -((Nat.toDigits 10 (i.den / (i.value * i.num))).length : Int)

end RoundingInterval

namespace Binary64

/-- The real numbers that round to a finite positive value. Below a power of two the next value is
only half as far away as above it. -/
def roundingInterval (x : Binary64) : RoundingInterval where
  value := 4 * x.significand
  low := 4 * x.significand - (if x.significand = fractionCount ∧ 0 < x.scale then 1 else 2)
  high := 4 * x.significand + 2
  closed := decide (x.significand % 2 = 0)
  num := 1 <<< (x.scale - 1076)
  den := 1 <<< (1076 - x.scale)

/-- The decimal with the fewest digits that reads back as a finite positive value. Seventeen digits
always suffice. -/
def shortest (x : Binary64) : Decimal :=
  let i := x.roundingInterval
  match i.firstHit 20 i.topExponent with
  | some d => d.trim 400
  | none => ⟨0, 0⟩

/-- The text of a value. -/
def toText (x : Binary64) : String :=
  if x.isNaN then "NaN"
  else
    (if x.isNegative then "-" else "") ++
      (if x.isInfinite then "inf" else if x.isZero then "0" else x.shortest.positional)

end Binary64

end RecordQuery
