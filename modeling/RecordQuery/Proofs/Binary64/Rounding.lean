import Mathlib.Tactic.Ring
import RecordQuery.Binary64.Arithmetic

set_option autoImplicit false

/-!
# Rounding is monotone

The conversion of integers to floating-point numbers rounds to the nearest value. It never reverses
two integers, though it may bring different ones together, and it never makes a NaN.

A comparison that falls back from the numeric order to the total order on bits, once a NaN takes
part, is the comparison of one integer for each bit pattern, `Binary64.sortKey`.

## Main definitions

* `Binary64.sortKey` — the key of a bit pattern under that comparison.

## Main results

* `roundHalfEven_mono`, `Binary64.roundMagnitude_mono` — rounding is monotone.
* `Binary64.orderKey_ofInt_mono` — so is the conversion of integers.
* `Binary64.isNaN_ofInt` — it makes no NaN.
* `Binary64.units_ofInt` — integers of at most `2 ^ 53` in size keep their value.
* `Binary64.compare_sortKey` — the comparison with its fallback is that of the keys.
-/

namespace RecordQuery

/-! ## Rounding to whole numbers -/

/-- The rounded quotient, with the half it adds spelled out: nothing below one half, one above it,
and at one half what makes the quotient even. -/
lemma roundHalfEven_eq (num den : Nat) :
    roundHalfEven num den = num / den +
      if 2 * (num % den) < den then 0
      else if den < 2 * (num % den) then 1 else num / den % 2 := by
  unfold roundHalfEven
  simp only
  split
  case h_1 hlt => simp [Nat.compare_eq_lt.mp hlt]
  case h_2 hgt =>
    have := Nat.compare_eq_gt.mp hgt
    simp [this, Nat.lt_asymm this]
  case h_3 heq =>
    simp only [Nat.compare_eq_eq.mp heq, Nat.lt_irrefl, ↓reduceIte]
    split <;> omega

/-- A rounded quotient lies between the quotient and the next whole number. -/
lemma roundHalfEven_bounds (num den : Nat) :
    num / den ≤ roundHalfEven num den ∧ roundHalfEven num den ≤ num / den + 1 := by
  rw [roundHalfEven_eq]
  split_ifs <;> omega

/-- A quotient below a whole number is not rounded above it. -/
lemma roundHalfEven_le {num den k : Nat} (h : num / den < k) : roundHalfEven num den ≤ k :=
  (roundHalfEven_bounds num den).2.trans h

/-- Rounding is monotone in the numerator. -/
theorem roundHalfEven_mono {m n den : Nat} (h : m ≤ n) :
    roundHalfEven m den ≤ roundHalfEven n den := by
  rcases (Nat.div_le_div_right h : m / den ≤ n / den).lt_or_eq with hlt | heq
  · exact (roundHalfEven_le hlt).trans (roundHalfEven_bounds n den).1
  · -- with one whole part, the remainders are ordered as the numerators
    have hmod : m % den ≤ n % den := by
      have hm := Nat.div_add_mod m den
      have hn := Nat.div_add_mod n den
      rw [heq] at hm
      omega
    rw [roundHalfEven_eq, roundHalfEven_eq, heq]
    split_ifs <;> omega

namespace Binary64

/-! ## Rounding to bits -/

/-- The binary logarithm is monotone. -/
private lemma log2_mono {m n : Nat} (h : m ≤ n) : m.log2 ≤ n.log2 := by
  rcases Nat.eq_zero_or_pos m with rfl | hm
  · simp
  · exact (Nat.le_log2 (by omega)).mpr ((Nat.log2_self_le (by omega)).trans h)

/-- Rounded bits are monotone in the numerator.

**Proof sketch.** The quotients have `s` and `t` bits beyond 52, and `s ≤ t` (`log2_mono`). If the
numbers of bits are the same, both significands are rounded on the same grid (`roundHalfEven_mono`).
Otherwise the smaller one is at most `2 ^ 53` on its grid, the larger one is at least `2 ^ 52` on
the next, and the exponent makes up for it. -/
theorem roundMagnitude_mono {m n den : Nat} (h : m ≤ n) :
    roundMagnitude m den ≤ roundMagnitude n den := by
  have hlog : (m / den).log2 ≤ (n / den).log2 := log2_mono (Nat.div_le_div_right h)
  unfold roundMagnitude
  simp only
  refine min_le_min_right _ ?_
  generalize hs : (m / den).log2 - 52 = s
  generalize ht : (n / den).log2 - 52 = t
  rcases (show s ≤ t by omega).eq_or_lt with rfl | hlt
  · exact Nat.add_le_add_left (roundHalfEven_mono h) _
  · -- the smaller significand is at most `2 ^ 53`, the larger one at least `2 ^ 52`
    have hsmall : roundHalfEven m (den <<< s) ≤ 2 * fractionCount := by
      refine roundHalfEven_le ?_
      rw [Nat.shiftLeft_eq, ← Nat.div_div_eq_div_mul,
        Nat.div_lt_iff_lt_mul (Nat.two_pow_pos s)]
      calc m / den < 2 ^ ((m / den).log2 + 1) := Nat.lt_log2_self
        _ ≤ 2 ^ (53 + s) := Nat.pow_le_pow_right (by decide) (by omega)
        _ = 2 * fractionCount * 2 ^ s := by rw [Nat.pow_add]; rfl
    have hlarge : fractionCount ≤ roundHalfEven n (den <<< t) := by
      refine le_trans ?_ (roundHalfEven_bounds n _).1
      rw [Nat.shiftLeft_eq, ← Nat.div_div_eq_div_mul,
        Nat.le_div_iff_mul_le (Nat.two_pow_pos t)]
      calc fractionCount * 2 ^ t = 2 ^ (52 + t) := by rw [Nat.pow_add]; rfl
        _ = 2 ^ (n / den).log2 := by congr 1; omega
        _ ≤ n / den := Nat.log2_self_le (by rintro h0; rw [h0] at ht; simp at ht; omega)
    calc s * fractionCount + roundHalfEven m (den <<< s)
        ≤ s * fractionCount + 2 * fractionCount := Nat.add_le_add_left hsmall _
      _ = (s + 1) * fractionCount + fractionCount := by ring
      _ ≤ t * fractionCount + fractionCount := by
          exact Nat.add_le_add_right (Nat.mul_le_mul_right _ hlt) _
      _ ≤ t * fractionCount + roundHalfEven n (den <<< t) := Nat.add_le_add_left hlarge _

/-- Rounded bits are those of a number or of an infinity. -/
lemma roundMagnitude_le (num den : Nat) : roundMagnitude num den ≤ infinityMagnitude :=
  min_le_right _ _

/-- Magnitude bits leave room for the sign. -/
private lemma toNat_bits_ofMagnitude (negative : Bool) {m : Nat} (h : m < signWeight) :
    (ofMagnitude negative m).bits.toNat = if negative then signWeight + m else m := by
  have hw : signWeight = 9223372036854775808 := rfl
  simp only [ofMagnitude, UInt64.toNat_ofNat']
  cases negative <;> simp <;> omega

/-- The magnitude of a value given by sign and magnitude. -/
lemma magnitude_ofMagnitude (negative : Bool) {m : Nat} (h : m < signWeight) :
    (ofMagnitude negative m).magnitude = m := by
  rw [magnitude, toNat_bits_ofMagnitude negative h]
  cases negative <;> simp [Nat.mod_eq_of_lt h]

/-- The sign of a value given by sign and magnitude. -/
lemma isNegative_ofMagnitude (negative : Bool) {m : Nat} (h : m < signWeight) :
    (ofMagnitude negative m).isNegative = negative := by
  rw [isNegative, toNat_bits_ofMagnitude negative h]
  cases negative <;> simp [h]

/-- The magnitude of an infinity leaves the sign bit free. -/
lemma infinityMagnitude_lt : infinityMagnitude < signWeight := by decide

/-! ## Integers as numbers -/

/-- The key of a rounded quotient. -/
lemma orderKey_ofUnits (negative : Bool) (num den : Nat) :
    (ofUnits negative num den).orderKey
      = if negative then -(roundMagnitude num den : Int) else roundMagnitude num den := by
  have hlt := (roundMagnitude_le num den).trans_lt infinityMagnitude_lt
  rw [orderKey, ofUnits, isNegative_ofMagnitude negative hlt, magnitude_ofMagnitude negative hlt]

/-- **The conversion of integers is monotone**: a larger integer is never rounded below a smaller
one. -/
theorem orderKey_ofInt_mono {i j : Int} (h : i ≤ j) :
    (ofInt i).orderKey ≤ (ofInt j).orderKey := by
  simp only [ofInt, orderKey_ofUnits, decide_eq_true_eq]
  split <;> split
  · -- among negative integers the sizes are reversed
    have hsize : j.natAbs * unitsPerOne ≤ i.natAbs * unitsPerOne :=
      Nat.mul_le_mul_right _ (by omega)
    have : roundMagnitude _ 1 ≤ roundMagnitude _ 1 := roundMagnitude_mono hsize
    omega
  · omega
  · omega
  · have hsize : i.natAbs * unitsPerOne ≤ j.natAbs * unitsPerOne :=
      Nat.mul_le_mul_right _ (by omega)
    have : roundMagnitude _ 1 ≤ roundMagnitude _ 1 := roundMagnitude_mono hsize
    omega

/-- No integer becomes a NaN. -/
theorem isNaN_ofInt (i : Int) : (ofInt i).isNaN = false := by
  have hle := roundMagnitude_le (i.natAbs * unitsPerOne) 1
  simp [isNaN, ofInt, ofUnits, magnitude_ofMagnitude _ (hle.trans_lt infinityMagnitude_lt), hle]

/-! ## Integers that are represented exactly -/

/-- Rounding leaves a whole quotient alone. -/
lemma roundHalfEven_of_dvd {num den : Nat} (hden : 0 < den) (h : den ∣ num) :
    roundHalfEven num den = num / den := by
  simp [roundHalfEven_eq, Nat.mod_eq_zero_of_dvd h, hden]

/-- The size given by bits whose significand has all its 53 bits. -/
private lemma absUnits_eq_of_magnitude {x : Binary64} {shift r : Nat}
    (hx : x.magnitude = shift * fractionCount + r) (hlow : fractionCount ≤ r)
    (hhigh : r < 2 * fractionCount) : x.absUnits = r * 2 ^ shift := by
  obtain ⟨f, rfl⟩ : ∃ f, r = fractionCount + f := ⟨r - fractionCount, by omega⟩
  have hf : f < fractionCount := by omega
  have hsum : x.magnitude = f + fractionCount * (shift + 1) := by rw [hx]; ring
  have hmod : x.magnitude % fractionCount = f := by
    rw [hsum, Nat.add_mul_mod_self_left, Nat.mod_eq_of_lt hf]
  have hdiv : x.magnitude / fractionCount = shift + 1 := by
    rw [hsum, Nat.add_mul_div_left _ _ (by decide), Nat.div_eq_of_lt hf, Nat.zero_add]
  have hbig : ¬ x.magnitude < fractionCount := by rw [hx]; omega
  rw [absUnits, significand, scale, if_neg hbig, hmod, hdiv, Nat.add_sub_cancel, Nat.shiftLeft_eq]

/-- One is a power of two of units. The exponent is kept a variable, so that nothing evaluates the
power. -/
private lemma exists_unitsPerOne_eq : ∃ e, e = 1022 ∧ unitsPerOne = 2 ^ (e + 52) := by
  refine ⟨1022, rfl, ?_⟩
  generalize h : 1022 + 52 = n
  rw [← Nat.one_shiftLeft, ← h, unitsPerOne]

/-- One is a positive number of units. -/
lemma unitsPerOne_pos : 0 < unitsPerOne := by
  obtain ⟨e, -, hone⟩ := exists_unitsPerOne_eq
  rw [hone]
  exact Nat.two_pow_pos _

/-- The binary logarithm of a number moved up. -/
private lemma log2_mul_two_pow {k : Nat} (hk : 0 < k) (e : Nat) :
    (k * 2 ^ e).log2 = k.log2 + e := by
  have hlow : 2 ^ k.log2 ≤ k := Nat.log2_self_le (by omega)
  have hhigh : k < 2 ^ (k.log2 + 1) := Nat.lt_log2_self
  rw [Nat.log2_eq_iff (Nat.mul_pos hk (Nat.two_pow_pos e)).ne']
  constructor
  · rw [Nat.pow_add]
    exact Nat.mul_le_mul_right _ hlow
  · rw [Nat.add_right_comm, Nat.pow_add]
    exact Nat.mul_lt_mul_of_pos_right hhigh (Nat.two_pow_pos _)

/-- An integer of up to 53 bits, or `2 ^ 53`, has only zeros below its highest 53 bits. -/
private lemma dvd_mul_two_pow {k : Nat} (hk : 0 < k) (h : k ≤ 2 ^ 53) (e : Nat) :
    2 ^ (k.log2 + e) ∣ k * 2 ^ (e + 52) := by
  rcases Nat.lt_or_ge k (2 ^ 53) with hlt | hge
  · have : k.log2 < 53 := (Nat.log2_lt (by omega)).mpr hlt
    exact (Nat.pow_dvd_pow 2 (by omega)).mul_left k
  · obtain rfl : k = 2 ^ 53 := by omega
    rw [Nat.log2_two_pow, ← Nat.pow_add]
    exact Nat.pow_dvd_pow 2 (by omega)

/-- The bits of an integer of up to 53 bits, or of `2 ^ 53`: its exponent, and a significand that
has all its bits.

**Proof sketch.** The product is `k` followed by zeros (`exists_unitsPerOne_eq`), so cutting it
after 53 bits leaves `r` and drops nothing (`dvd_mul_two_pow`); the bounds of `r` are those of the
logarithm. The exponent is far below that of infinity, since `k` has at most 54 bits. -/
private lemma roundMagnitude_mul_unitsPerOne {k : Nat} (hk : 0 < k) (h : k ≤ 2 ^ 53) :
    ∃ shift r, roundMagnitude (k * unitsPerOne) 1 = shift * fractionCount + r ∧
      fractionCount ≤ r ∧ r < 2 * fractionCount ∧ k * unitsPerOne = r * 2 ^ shift := by
  obtain ⟨e, he, hone⟩ := exists_unitsPerOne_eq
  rw [hone]
  have hlog := log2_mul_two_pow hk (e + 52)
  obtain ⟨r, hr⟩ := dvd_mul_two_pow hk h e
  have hpos : 0 < 2 ^ (k.log2 + e) := Nat.two_pow_pos _
  have hlow : fractionCount ≤ r := by
    have hself := Nat.log2_self_le (Nat.mul_pos hk (Nat.two_pow_pos (e + 52))).ne'
    rw [hlog, hr, ← Nat.add_assoc, Nat.pow_add _ _ 52] at hself
    exact Nat.le_of_mul_le_mul_left hself hpos
  have hhigh : r < 2 * fractionCount := by
    have hlt := Nat.lt_log2_self (n := k * 2 ^ (e + 52))
    rw [hlog, hr, ← Nat.add_assoc, Nat.add_assoc _ 52 1, Nat.pow_add _ _ (52 + 1)] at hlt
    exact Nat.lt_of_mul_lt_mul_left hlt
  have hexp : k.log2 ≤ 53 := by
    rw [← Nat.log2_two_pow (n := 53)]
    exact log2_mono h
  have hfit : (k.log2 + e) * fractionCount + r ≤ infinityMagnitude :=
    calc (k.log2 + e) * fractionCount + r
        ≤ 1075 * fractionCount + 2 * fractionCount :=
          Nat.add_le_add (Nat.mul_le_mul_right _ (by omega)) hhigh.le
      _ ≤ infinityMagnitude := by decide
  have hshift : (k * 2 ^ (e + 52) / 1).log2 - 52 = k.log2 + e := by
    rw [Nat.div_one, hlog]
    omega
  refine ⟨k.log2 + e, r, ?_, hlow, hhigh, by rw [hr, Nat.mul_comm]⟩
  simp only [roundMagnitude, hshift, Nat.shiftLeft_eq, Nat.one_mul]
  rw [roundHalfEven_of_dvd hpos ⟨r, hr⟩, hr, Nat.mul_div_cancel_left _ hpos]
  exact min_eq_left hfit

/-- Integers of up to 53 bits, and `2 ^ 53`, keep their size. -/
private lemma absUnits_ofUnits (negative : Bool) {k : Nat} (h : k ≤ 2 ^ 53) :
    (ofUnits negative (k * unitsPerOne) 1).absUnits = k * unitsPerOne := by
  have hmagnitude : (ofUnits negative (k * unitsPerOne) 1).magnitude
      = roundMagnitude (k * unitsPerOne) 1 :=
    magnitude_ofMagnitude negative ((roundMagnitude_le _ 1).trans_lt infinityMagnitude_lt)
  rcases Nat.eq_zero_or_pos k with rfl | hk
  · have hzero : roundMagnitude 0 1 = 0 := by decide
    rw [Nat.zero_mul] at hmagnitude ⊢
    rw [hzero] at hmagnitude
    simp [absUnits, significand, hmagnitude, fractionCount]
  · obtain ⟨shift, r, hround, hlow, hhigh, hr⟩ := roundMagnitude_mul_unitsPerOne hk h
    rw [absUnits_eq_of_magnitude (hmagnitude.trans hround) hlow hhigh, hr]

/-- **Small integers are represented exactly**: one of at most `2 ^ 53` in size keeps its value. -/
theorem units_ofInt {i : Int} (h : i.natAbs ≤ 2 ^ 53) : (ofInt i).units = i * unitsPerOne := by
  have hsign : (ofInt i).isNegative = decide (i < 0) :=
    isNegative_ofMagnitude _ ((roundMagnitude_le _ _).trans_lt infinityMagnitude_lt)
  rw [units, hsign, ofInt, absUnits_ofUnits _ h]
  rcases Int.natAbs_eq i with hi | hi
  · simp [show ¬ i < 0 by omega, ← hi]
  · rcases Nat.eq_zero_or_pos i.natAbs with h0 | hpos
    · simp [Int.natAbs_eq_zero.mp h0]
    · simp only [show i < 0 by omega, decide_true, ↓reduceIte, Nat.cast_mul]
      rw [← Int.neg_mul, ← hi]

/-- Numerically equal values have the same units. -/
lemma units_eq_of_orderKey_eq {x y : Binary64} (h : x.orderKey = y.orderKey) :
    x.units = y.units := by
  have hmag : x.magnitude = y.magnitude := by
    unfold orderKey at h
    split at h <;> split at h <;> omega
  have habs : x.absUnits = y.absUnits := by
    rw [absUnits, absUnits, significand, significand, scale, scale, hmag]
  rcases Nat.eq_zero_or_pos x.magnitude with h0 | hpos
  · have : x.absUnits = 0 := by simp [absUnits, significand, h0, fractionCount]
    simp [units, ← habs, this]
  · have hneg : x.isNegative = y.isNegative := by
      unfold orderKey at h
      cases hx : x.isNegative <;> cases hy : y.isNegative
      case false.false | true.true => rfl
      all_goals
        simp only [hx, hy, ↓reduceIte, Bool.false_eq_true] at h
        omega
    rw [units, units, hneg, habs]

/-! ## The numeric order with the total order behind it -/

/-- The key of a bit pattern where numbers are compared as numbers and NaNs by their bits. -/
def sortKey (x : Binary64) : Int := if x.isNaN then x.totalKey else x.orderKey

/-- The key of a number is its numeric key. -/
lemma sortKey_of_isNaN_eq_false {x : Binary64} (h : x.isNaN = false) :
    x.sortKey = x.orderKey := by
  simp [sortKey, h]

/-- An integer of 64 bits is rounded to a number. -/
lemma isNaN_ofInt64 (i : Int64) : (ofInt64 i).isNaN = false := isNaN_ofInt i.toInt

/-- Rounded integers have keys in the integers' order. -/
lemma sortKey_ofInt64_mono {a b : Int64} (h : a.toInt ≤ b.toInt) :
    (ofInt64 a).sortKey ≤ (ofInt64 b).sortKey := by
  rw [sortKey_of_isNaN_eq_false (isNaN_ofInt64 a), sortKey_of_isNaN_eq_false (isNaN_ofInt64 b)]
  exact orderKey_ofInt_mono h

/-- The keys of a number lie between those of the infinities. -/
private lemma keys_of_number {x : Binary64} (h : x.isNaN = false) :
    (-(infinityMagnitude : Int) ≤ x.orderKey ∧ x.orderKey ≤ infinityMagnitude) ∧
      -(infinityMagnitude : Int) - 1 ≤ x.totalKey ∧ x.totalKey ≤ infinityMagnitude := by
  simp only [isNaN, decide_eq_false_iff_not, Nat.not_lt] at h
  unfold orderKey totalKey
  split <;> omega

/-- The total key of a NaN lies outside. -/
private lemma totalKey_of_nan {x : Binary64} (h : x.isNaN = true) :
    x.totalKey < -(infinityMagnitude : Int) - 1 ∨ (infinityMagnitude : Int) < x.totalKey := by
  simp only [isNaN, decide_eq_true_eq] at h
  unfold totalKey
  split <;> omega

/-- A number has no key in common with a NaN: values with one key, of which one is a number, are
numerically equal. -/
lemma equal_of_sortKey_eq {x y : Binary64} (hx : x.isNaN = false) (h : x.sortKey = y.sortKey) :
    x.equal y = true := by
  have hkeys := keys_of_number hx
  cases hy : y.isNaN with
  | false => simpa [equal, sortKey, hx, hy] using h
  | true =>
    have hfar := totalKey_of_nan hy
    simp only [sortKey, hx, hy, ↓reduceIte, Bool.false_eq_true] at h
    omega

/-- Numerically equal values have one key. -/
lemma sortKey_eq_of_equal {x y : Binary64} (h : x.equal y = true) : x.sortKey = y.sortKey := by
  simp only [equal, Bool.and_eq_true, Bool.not_eq_true', decide_eq_true_eq] at h
  simp [sortKey, h]

/-- **The fallback orders by one key.** The numeric order, and the total order once a NaN takes
part, is the order of `sortKey`. The two keys of a number differ by at most one, and a NaN is
further out than that. -/
theorem compare_sortKey (x y : Binary64) :
    (x.compare? y).getD (x.compareTotal y) = compare x.sortKey y.sortKey := by
  unfold compare? compareTotal sortKey
  cases hx : x.isNaN <;> cases hy : y.isNaN
  case false.false => simp
  case true.true => simp
  case false.true =>
    have hkeys := keys_of_number hx
    simp only [Bool.or_true, ↓reduceIte, Option.getD_none, Bool.false_eq_true]
    rcases totalKey_of_nan hy with hlow | hhigh
    · rw [Int.compare_eq_gt.mpr (by omega), Int.compare_eq_gt.mpr (by omega)]
    · rw [Int.compare_eq_lt.mpr (by omega), Int.compare_eq_lt.mpr (by omega)]
  case true.false =>
    have hkeys := keys_of_number hy
    simp only [Bool.or_false, ↓reduceIte, Option.getD_none, Bool.false_eq_true]
    rcases totalKey_of_nan hx with hlow | hhigh
    · rw [Int.compare_eq_lt.mpr (by omega), Int.compare_eq_lt.mpr (by omega)]
    · rw [Int.compare_eq_gt.mpr (by omega), Int.compare_eq_gt.mpr (by omega)]

end Binary64

end RecordQuery
