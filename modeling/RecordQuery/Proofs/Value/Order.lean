import Mathlib.Data.Set.Basic
import RecordQuery.Proofs.Binary64.Rounding
import RecordQuery.Proofs.StableSort
import RecordQuery.Value.Order

set_option autoImplicit false

/-!
# The sort order of values

The sort order is reflexive and goes both ways on all values. It is transitive exactly as far as
the conversion of integers goes: two different integers compare as integers, but where both are
rounded to one floating-point number, each compares equal with that number. Without such a
coincidence among the numbers at hand the order is a total preorder, on lists too.

## Main definitions

* `Value.numbers` — the numbers in a value.
* `Value.Apart` — numbers among which no float stands between two integers.

## Main results

* `Value.preorderOn_sortOrder` — on values with such numbers the sort order is a total preorder.
* `Value.apart_of_exact` — integers of at most `2 ^ 53` in size are such numbers.
* `Value.sortOrder_laws` — the laws of the sort order, and where transitivity fails.
-/

namespace RecordQuery

/-- Bytes are compared as lists are. -/
lemma compareBytes_eq (as bs : List UInt8) :
    compareBytes as bs = List.compareLex (compareOn UInt8.toNat) as bs := by
  induction as generalizing bs with
  | nil => cases bs <;> rfl
  | cons a as ih =>
    cases bs with
    | nil => rfl
    | cons b bs => rw [compareBytes, List.compareLex_cons_cons, ih, compareOn]

namespace Value

/-! ## Ranks -/

/-- Values of different ranks are ordered by rank. -/
lemma sortOrder_of_rank_ne {v w : Value} (h : v.rank ≠ w.rank) :
    v.sortOrder w = compare v.rank w.rank := by
  cases v <;> cases w <;> simp_all [sortOrder, rank]

/-- The rank comes first in the order of any two values. -/
lemma sortOrder_eq_then (v w : Value) :
    v.sortOrder w = (compare v.rank w.rank).then (v.sortOrder w) := by
  by_cases h : v.rank = w.rank
  · simp [h]
  · rw [sortOrder_of_rank_ne h]
    cases compare v.rank w.rank <;> rfl

/-- Null alone has the lowest rank. -/
lemma eq_null_of_rank {v : Value} (h : v.rank = 0) : v = null := by
  cases v <;> simp_all [rank]

/-- Truth values have a rank of their own. -/
lemma exists_boolean_of_rank {v : Value} (h : v.rank = 1) : ∃ b, v = boolean b := by
  cases v <;> simp_all [rank]

/-- Integers and floats share a rank. -/
lemma exists_number_of_rank {v : Value} (h : v.rank = 2) :
    (∃ a, v = integer a) ∨ ∃ x, v = float x := by
  cases v <;> simp_all [rank]

/-- Texts have a rank of their own. -/
lemma exists_text_of_rank {v : Value} (h : v.rank = 3) : ∃ s, v = text s := by
  cases v <;> simp_all [rank]

/-- Blobs have a rank of their own. -/
lemma exists_blob_of_rank {v : Value} (h : v.rank = 4) : ∃ bs, v = blob bs := by
  cases v <;> simp_all [rank]

/-- Lists have the highest rank. -/
lemma exists_list_of_rank {v : Value} (h : v.rank = 5) : ∃ vs, v = list vs := by
  cases v <;> simp_all [rank]

/-- Truth values are ordered as the integers they stand for. -/
lemma sortOrder_boolean (a b : Bool) :
    (boolean a).sortOrder (boolean b) = compare (boolInt a).toInt (boolInt b).toInt := by
  simp [sortOrder, rank, sortAlike, compare?]

/-- Texts are sorted as texts. -/
lemma sortOrder_text (s t : String) : (text s).sortOrder (text t) = compare s t := by
  simp [sortOrder, rank, sortAlike, compare?]

/-- Blobs are sorted byte by byte. -/
lemma sortOrder_blob (as bs : List UInt8) :
    (blob as).sortOrder (blob bs) = List.compareLex (compareOn UInt8.toNat) as bs := by
  simp [sortOrder, rank, sortAlike, compare?, compareBytes_eq]

/-- Null is as large as null. -/
lemma sortOrder_null : null.sortOrder null = .eq := by
  simp [sortOrder, rank, sortAlike, compare?]

/-- Lists are sorted element by element. -/
lemma sortOrder_list (vs ws : List Value) :
    (list vs).sortOrder (list ws) = sortOrderList vs ws := by
  rw [sortOrder]

/-! ## Numbers -/

/-- The number under which a number is compared with those of the other kind. -/
def numberKey (v : Value) : Int :=
  match v.asFloat? with
  | some x => x.sortKey
  | none => 0

/-- The order of two integers; other numbers have none beyond their keys. -/
def integerOrder : Value → Value → Ordering
  | integer a, integer b => compare a.toInt b.toInt
  | _, _ => .eq

/-- Integers are ordered by their keys first: rounding reverses none.

**Proof sketch.** By the comparison of the keys. If these differ then the integers are in the same
order, because rounding reverses none; if they are the same then the integers decide. -/
lemma compare_toInt_eq_then (a b : Int64) :
    compare a.toInt b.toInt =
      (compare (Binary64.ofInt64 a).sortKey (Binary64.ofInt64 b).sortKey).then
        (compare a.toInt b.toInt) := by
  cases hkey : compare (Binary64.ofInt64 a).sortKey (Binary64.ofInt64 b).sortKey with
  | eq => rfl
  | lt =>
    rw [Int.compare_eq_lt] at hkey
    have hlt : a.toInt < b.toInt := by
      by_contra hle
      have := Binary64.sortKey_ofInt64_mono (a := b) (b := a) (by omega)
      omega
    rw [Int.compare_eq_lt.mpr hlt]
    rfl
  | gt =>
    rw [Int.compare_eq_gt] at hkey
    have hlt : b.toInt < a.toInt := by
      by_contra hle
      have := Binary64.sortKey_ofInt64_mono (a := a) (b := b) (by omega)
      omega
    rw [Int.compare_eq_gt.mpr hlt]
    rfl

/-- Numbers are ordered by their keys, and integers with one key as integers. -/
lemma sortOrder_numbers {v w : Value} (hv : v.rank = 2) (hw : w.rank = 2) :
    v.sortOrder w = (compare v.numberKey w.numberKey).then (integerOrder v w) := by
  cases v with
  | integer a =>
    cases w with
    | integer b => exact compare_toInt_eq_then a b
    | float y =>
      simp [sortOrder, rank, sortAlike, compare?, compareFloats, asFloat?, integerOrder, numberKey,
        Binary64.compare_sortKey]
    | _ => simp [rank] at hw
  | float x =>
    cases w with
    | integer b | float y =>
      simp [sortOrder, rank, sortAlike, compare?, compareFloats, asFloat?, integerOrder, numberKey,
        Binary64.compare_sortKey]
    | _ => simp [rank] at hw
  | _ => simp [rank] at hv

/-! ## Values whose numbers are apart -/

/-- No float stands between two integers: no two different ones are rounded to a float that is
among the numbers. -/
def Apart (N : Set Value) : Prop :=
  ∀ a b x, integer a ∈ N → integer b ∈ N → float x ∈ N →
    (Binary64.ofInt64 a).equal x = true → (Binary64.ofInt64 b).equal x = true → a = b

mutual

/-- The numbers in a value, those of a list in order. -/
def numbers : Value → List Value
  | integer a => [integer a]
  | float x => [float x]
  | list vs => numbersList vs
  | _ => []

/-- The numbers in the values of a list, in order. -/
def numbersList : List Value → List Value
  | [] => []
  | v :: vs => numbers v ++ numbersList vs

end

/-- A number is the only one in it. -/
lemma numbers_of_rank {v : Value} (h : v.rank = 2) : v.numbers = [v] := by
  cases v <;> simp_all [rank, numbers]

/-- Two integers with the key of a float that stands apart are one. -/
lemma Apart.eq {N : Set Value} (hN : Apart N) {a b : Int64} {x : Binary64} (ha : integer a ∈ N)
    (hb : integer b ∈ N) (hx : float x ∈ N) (hax : (integer a).numberKey = (float x).numberKey)
    (hbx : (integer b).numberKey = (float x).numberKey) : a = b :=
  hN a b x ha hb hx (Binary64.equal_of_sortKey_eq (Binary64.isNaN_ofInt64 a) hax)
    (Binary64.equal_of_sortKey_eq (Binary64.isNaN_ofInt64 b) hbx)

/-- Among numbers that are apart, those with one key compose: they are all integers, or the
integers among them are one. -/
lemma Apart.composes_integerOrder {N : Set Value} (hN : Apart N) {u v w : Value} (hu : u ∈ N)
    (hv : v ∈ N) (hw : w ∈ N) (hru : u.rank = 2) (hrv : v.rank = 2) (hrw : w.rank = 2)
    (huv : u.numberKey = v.numberKey) (hvw : v.numberKey = w.numberKey) :
    Composes (integerOrder u v) (integerOrder v w) (integerOrder u w) := by
  rcases exists_number_of_rank hru with ⟨a, rfl⟩ | ⟨x, rfl⟩ <;>
    rcases exists_number_of_rank hrv with ⟨b, rfl⟩ | ⟨y, rfl⟩ <;>
    rcases exists_number_of_rank hrw with ⟨c, rfl⟩ | ⟨z, rfl⟩
  case inl.inl.inl => exact composes_cmp (compareOn Int64.toInt) a b c
  case inl.inl.inr =>
    obtain rfl := hN.eq hu hv hw (huv.trans hvw) hvw
    simp [integerOrder, Composes]
  case inl.inr.inl =>
    obtain rfl := hN.eq hu hw hv huv hvw.symm
    simp [integerOrder, Composes]
  case inr.inl.inl =>
    obtain rfl := hN.eq hv hw hu huv.symm (huv.trans hvw).symm
    simp [integerOrder, Composes]
  all_goals simp [integerOrder, Composes]

/-! ## The laws on values whose numbers are apart -/

/-- The comparisons of three values compose if they do within one rank. -/
lemma composes_sortOrder_of_rank {u v w : Value}
    (h : u.rank = v.rank → v.rank = w.rank →
      Composes (u.sortOrder v) (v.sortOrder w) (u.sortOrder w)) :
    Composes (u.sortOrder v) (v.sortOrder w) (u.sortOrder w) := by
  rw [sortOrder_eq_then u v, sortOrder_eq_then v w, sortOrder_eq_then u w]
  exact (composes_cmp compare _ _ _).lex fun huv hvw =>
    h (Nat.compare_eq_eq.mp huv) (Nat.compare_eq_eq.mp hvw)

/-- The comparisons of three values compose, if the first one is not a list.

**Proof sketch.** If the ranks differ then these decide. Numbers are compared by their keys and then
as integers, where they compose because they are apart. Values of the other kinds are compared by
orders that are total. -/
lemma Apart.composes_sortOrder_of_ne_list {N : Set Value} (hN : Apart N) {u v w : Value}
    (hu : ∀ n ∈ u.numbers, n ∈ N) (hv : ∀ n ∈ v.numbers, n ∈ N) (hw : ∀ n ∈ w.numbers, n ∈ N)
    (hlist : u.rank ≠ 5) :
    Composes (u.sortOrder v) (v.sortOrder w) (u.sortOrder w) := by
  refine composes_sortOrder_of_rank fun huv hvw => ?_
  by_cases hru : u.rank = 2
  · have hrv : v.rank = 2 := huv ▸ hru
    have hrw : w.rank = 2 := hvw ▸ hrv
    rw [sortOrder_numbers hru hrv, sortOrder_numbers hrv hrw, sortOrder_numbers hru hrw]
    refine (composes_cmp compare _ _ _).lex fun hkey hkey' => ?_
    rw [numbers_of_rank hru] at hu
    rw [numbers_of_rank hrv] at hv
    rw [numbers_of_rank hrw] at hw
    exact hN.composes_integerOrder (hu u (by simp)) (hv v (by simp)) (hw w (by simp)) hru hrv hrw
      (Int.compare_eq_eq.mp hkey) (Int.compare_eq_eq.mp hkey')
  · cases u with
    | null =>
      obtain rfl := eq_null_of_rank huv.symm
      obtain rfl := eq_null_of_rank hvw.symm
      simp [sortOrder_null, Composes]
    | boolean a =>
      obtain ⟨b, rfl⟩ := exists_boolean_of_rank huv.symm
      obtain ⟨c, rfl⟩ := exists_boolean_of_rank hvw.symm
      simp only [sortOrder_boolean]
      exact composes_cmp compare _ _ _
    | text s =>
      obtain ⟨t, rfl⟩ := exists_text_of_rank huv.symm
      obtain ⟨u, rfl⟩ := exists_text_of_rank hvw.symm
      simp only [sortOrder_text]
      exact composes_cmp compare s t u
    | blob as =>
      obtain ⟨bs, rfl⟩ := exists_blob_of_rank huv.symm
      obtain ⟨cs, rfl⟩ := exists_blob_of_rank hvw.symm
      simp only [sortOrder_blob]
      exact composes_cmp (List.compareLex (compareOn UInt8.toNat)) as bs cs
    | integer _ | float _ => exact absurd rfl hru
    | list _ => exact absurd rfl hlist

mutual

/-- On values whose numbers are apart, the comparisons of three values compose. -/
theorem Apart.composes_sortOrder {N : Set Value} (hN : Apart N) :
    (u v w : Value) → (∀ n ∈ u.numbers, n ∈ N) → (∀ n ∈ v.numbers, n ∈ N) →
      (∀ n ∈ w.numbers, n ∈ N) →
      Composes (u.sortOrder v) (v.sortOrder w) (u.sortOrder w)
  | list us, v, w, hu, hv, hw => by
    refine composes_sortOrder_of_rank fun huv hvw => ?_
    obtain ⟨vs, rfl⟩ := exists_list_of_rank huv.symm
    obtain ⟨ws, rfl⟩ := exists_list_of_rank hvw.symm
    simp only [sortOrder_list]
    exact composes_sortOrderList hN us vs ws hu hv hw
  | null, v, w, hu, hv, hw | boolean _, v, w, hu, hv, hw | integer _, v, w, hu, hv, hw
  | float _, v, w, hu, hv, hw | text _, v, w, hu, hv, hw | blob _, v, w, hu, hv, hw =>
    hN.composes_sortOrder_of_ne_list hu hv hw (by simp [rank])

/-- The same of lists: where the first elements are ties, the rest decides. -/
theorem Apart.composes_sortOrderList {N : Set Value} (hN : Apart N) :
    (us vs ws : List Value) → (∀ n ∈ numbersList us, n ∈ N) → (∀ n ∈ numbersList vs, n ∈ N) →
      (∀ n ∈ numbersList ws, n ∈ N) →
      Composes (sortOrderList us vs) (sortOrderList vs ws) (sortOrderList us ws)
  | [], vs, ws, _, _, _ => by
    cases vs <;> cases ws <;> simp [sortOrderList, Composes]
  | u :: us, [], ws, _, _, _ => by
    cases ws <;> simp [sortOrderList, Composes]
  | u :: us, v :: vs, [], _, _, _ => by
    simp [sortOrderList, Composes, eq_comm]
  | u :: us, v :: vs, w :: ws, hu, hv, hw => by
    simp only [numbersList, List.forall_mem_append] at hu hv hw
    simp only [sortOrderList]
    exact (composes_sortOrder hN u v w hu.1 hv.1 hw.1).lex fun _ _ =>
      composes_sortOrderList hN us vs ws hu.2 hv.2 hw.2

end

/-! ## The other way round -/

/-- Integers compare the other way round in reverse. -/
lemma integerOrder_swap (v w : Value) : integerOrder w v = (integerOrder v w).swap := by
  cases v <;> cases w <;> simp [integerOrder, Int.compare_swap]

/-- The order of two values the other way round, if the first is not a list.

**Proof sketch.** If the ranks differ then these are swapped. Numbers are compared by two things,
each of which is swapped, and values of the other kinds by orders that can be swapped. -/
lemma sortOrder_swap_of_ne_list {v w : Value} (hlist : v.rank ≠ 5) :
    w.sortOrder v = (v.sortOrder w).swap := by
  by_cases hrank : v.rank = w.rank
  · by_cases hrv : v.rank = 2
    · have hrw : w.rank = 2 := hrank ▸ hrv
      rw [sortOrder_numbers hrv hrw, sortOrder_numbers hrw hrv, Ordering.swap_then,
        Int.compare_swap, integerOrder_swap]
    · cases v with
      | null =>
        obtain rfl := eq_null_of_rank hrank.symm
        simp [sortOrder_null]
      | boolean a =>
        obtain ⟨b, rfl⟩ := exists_boolean_of_rank hrank.symm
        rw [sortOrder_boolean, sortOrder_boolean, Int.compare_swap]
      | text s =>
        obtain ⟨t, rfl⟩ := exists_text_of_rank hrank.symm
        rw [sortOrder_text, sortOrder_text]
        exact Std.OrientedCmp.eq_swap
      | blob as =>
        obtain ⟨bs, rfl⟩ := exists_blob_of_rank hrank.symm
        rw [sortOrder_blob, sortOrder_blob]
        exact Std.OrientedCmp.eq_swap
      | integer _ | float _ => exact absurd rfl hrv
      | list _ => exact absurd rfl hlist
  · rw [sortOrder_of_rank_ne hrank, sortOrder_of_rank_ne (Ne.symm hrank), Nat.compare_swap]

mutual

/-- The order of two values the other way round is the reverse. -/
theorem sortOrder_swap : (v w : Value) → w.sortOrder v = (v.sortOrder w).swap
  | list vs, w => by
    by_cases hrank : (list vs).rank = w.rank
    · obtain ⟨ws, rfl⟩ := exists_list_of_rank hrank.symm
      rw [sortOrder_list, sortOrder_list]
      exact sortOrderList_swap vs ws
    · rw [sortOrder_of_rank_ne hrank, sortOrder_of_rank_ne (Ne.symm hrank), Nat.compare_swap]
  | null, w | boolean _, w | integer _, w | float _, w | text _, w | blob _, w =>
    sortOrder_swap_of_ne_list (by simp [rank])

/-- The order of two lists the other way round is the reverse. -/
theorem sortOrderList_swap : (vs ws : List Value) →
    sortOrderList ws vs = (sortOrderList vs ws).swap
  | [], ws => by cases ws <;> rfl
  | _ :: _, [] => rfl
  | v :: vs, w :: ws => by
    rw [sortOrderList, sortOrderList, Ordering.swap_then, ← sortOrder_swap v w,
      ← sortOrderList_swap vs ws]

end

/-! ## The laws -/

/-- **The sort order is a total preorder** on the values whose numbers are apart. -/
theorem preorderOn_sortOrder {N : Set Value} (hN : Apart N) :
    PreorderOn sortOrder fun v => ∀ n ∈ v.numbers, n ∈ N where
  swap := fun v w _ _ => sortOrder_swap v w
  composes := fun u v w hu hv hw => hN.composes_sortOrder u v w hu hv hw

/-- Integers that are represented exactly are apart, whatever floats come with them. -/
theorem apart_of_exact {N : Set Value} (h : ∀ a, integer a ∈ N → a.toInt.natAbs ≤ 2 ^ 53) :
    Apart N := by
  intro a b x ha hb _ hax hbx
  have hkey : (Binary64.ofInt a.toInt).orderKey = (Binary64.ofInt b.toInt).orderKey := by
    simp only [Binary64.equal, Bool.and_eq_true, decide_eq_true_eq] at hax hbx
    exact hax.2.trans hbx.2.symm
  have hunits := Binary64.units_eq_of_orderKey_eq hkey
  rw [Binary64.units_ofInt (h a ha), Binary64.units_ofInt (h b hb)] at hunits
  have hone : (Binary64.unitsPerOne : Int) ≠ 0 := by
    exact_mod_cast Nat.ne_of_gt Binary64.unitsPerOne_pos
  exact Int64.toInt_inj.mp (Int.eq_of_mul_eq_mul_right hone hunits)

/-- Without floats, numbers are apart. -/
lemma apart_of_no_float {N : Set Value} (h : ∀ x, float x ∉ N) : Apart N :=
  fun _ _ x _ _ hx => absurd hx (h x)

/-- An integer and a float that it is rounded to compare equal. -/
lemma sortOrder_of_equal {a : Int64} {x : Binary64} (h : (Binary64.ofInt64 a).equal x = true) :
    (integer a).sortOrder (float x) = .eq := by
  rw [sortOrder_numbers rfl rfl]
  simp [integerOrder, numberKey, asFloat?, Binary64.sortKey_eq_of_equal h]

/-- Numbers among which the sort order is transitive are apart: of two integers that compare equal
with one float, neither is the greater. -/
lemma apart_of_trans {N : Set Value}
    (h : ∀ u v w : Value, (∀ n ∈ u.numbers ++ v.numbers ++ w.numbers, n ∈ N) →
      u.sortOrder v ≠ .gt → v.sortOrder w ≠ .gt → u.sortOrder w ≠ .gt) : Apart N := by
  intro a b x ha hb hx hax hbx
  have hle : ∀ c d : Int64, integer c ∈ N → integer d ∈ N →
      (Binary64.ofInt64 c).equal x = true → (Binary64.ofInt64 d).equal x = true →
      c.toInt ≤ d.toInt := by
    intro c d hc hd hcx hdx
    have hxd : (float x).sortOrder (integer d) = .eq := by
      rw [sortOrder_swap (integer d) (float x), sortOrder_of_equal hdx]
      rfl
    have := h (integer c) (float x) (integer d) (by simp [numbers, hc, hx, hd])
      (by simp [sortOrder_of_equal hcx]) (by simp [hxd])
    rwa [sortOrder, ne_eq, Int.compare_eq_gt, not_lt] at this
  exact Int64.toInt_inj.mp
    (Int.le_antisymm (hle a b ha hb hax hbx) (hle b a hb ha hbx hax))

/-- **The laws of the sort order, and where they end.** On all values it is reflexive, and the other
way round it is reversed. It is transitive on the values that hold given numbers exactly if these
are apart: if no float is among them to which two different integers among them are rounded.
Integers of at most `2 ^ 53` in size are not rounded, and with them the order is transitive whatever
the floats. -/
theorem sortOrder_laws (N : Set Value) :
    (∀ v : Value, v.sortOrder v = .eq) ∧
      (∀ v w : Value, w.sortOrder v = (v.sortOrder w).swap) ∧
      ((∀ u v w : Value, (∀ n ∈ u.numbers ++ v.numbers ++ w.numbers, n ∈ N) →
          u.sortOrder v ≠ .gt → v.sortOrder w ≠ .gt → u.sortOrder w ≠ .gt) ↔ Apart N) ∧
      ((∀ a, integer a ∈ N → a.toInt.natAbs ≤ 2 ^ 53) → Apart N) := by
  refine ⟨fun v => eq_of_eq_swap (sortOrder_swap v v), sortOrder_swap,
    ⟨apart_of_trans, fun hN u v w hnumbers huv hvw => ?_⟩, apart_of_exact⟩
  simp only [List.forall_mem_append] at hnumbers
  exact (hN.composes_sortOrder u v w hnumbers.1.1 hnumbers.1.2 hnumbers.2).ne_gt huv hvw

/-- Two integers above `2 ^ 53` that are rounded to one float are ordered, though neither is greater
than that float, nor it than them. -/
example :
    let x := Binary64.ofInt (2 ^ 53)
    (integer 9007199254740993).sortOrder (float x) = .eq ∧
      (float x).sortOrder (integer 9007199254740992) = .eq ∧
      (integer 9007199254740993).sortOrder (integer 9007199254740992) = .gt := by
  decide +kernel

end Value

end RecordQuery
