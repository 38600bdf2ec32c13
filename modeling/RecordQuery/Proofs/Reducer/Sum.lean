import Mathlib.Algebra.BigOperators.Group.List.Basic
import Mathlib.Algebra.Ring.Int.Defs
import Mathlib.Data.List.Infix
import RecordQuery.Proofs.Reducer.Aggregate

set_option autoImplicit false

/-!
# Sums of integers

A sum of integers is kept within the 64-bit integers after every summand. What is cut off on the way
is lost, even if later summands lead back. So a sum is exact as long as it never has to be cut, and
it is exact in every order only if neither the summands above zero nor those below it lead out.

## Main definitions

* `FitsInt64` — the integers that have 64 bits.
* `exactSum`, `clampedSum` — the sum of integers, and the one that is cut after every summand.

## Main results

* `toInt_clampedSum_of_fits` — a sum that need not be cut is exact.
* `toInt_clampedSum_of_nonneg`, `toInt_clampedSum_of_neg` — summands of one sign are cut once.
* `forall_perm_exact_iff` — when a sum is exact in every order.
* `Accumulator.outcome_sum_exact` — the same of the sum of a column.
-/

namespace RecordQuery

/-- The integer has 64 bits. -/
def FitsInt64 (i : Int) : Prop := Int64.minValue.toInt ≤ i ∧ i ≤ Int64.maxValue.toInt

/-- Both bounds are compared. -/
instance (i : Int) : Decidable (FitsInt64 i) := inferInstanceAs (Decidable (_ ∧ _))

/-- The 64-bit integer nearest to an integer, as an integer. -/
lemma toInt_clampInt64 (i : Int) :
    (clampInt64 i).toInt = max Int64.minValue.toInt (min i Int64.maxValue.toInt) := by
  have hmin := Int64.toInt_minValue
  have hmax := Int64.toInt_maxValue
  exact Int64.toInt_ofInt_of_le (by omega) (by omega)

/-- The sum of integers. -/
def exactSum (is : List Int64) : Int := (is.map Int64.toInt).sum

/-- The sum of integers from a start that is cut to 64 bits after every summand. -/
def clampedSum (start : Int64) (is : List Int64) : Int64 :=
  is.foldl (fun s i => clampInt64 (s.toInt + i.toInt)) start

section

variable {is js : List Int64}

/-- The sum of no integers. -/
@[simp]
lemma exactSum_nil : exactSum [] = 0 := rfl

/-- The sum with one more integer in front. -/
@[simp]
lemma exactSum_cons (i : Int64) (is : List Int64) : exactSum (i :: is) = i.toInt + exactSum is :=
  List.sum_cons

/-- The sum of integers and more integers. -/
lemma exactSum_append (is js : List Int64) : exactSum (is ++ js) = exactSum is + exactSum js := by
  rw [exactSum, List.map_append, List.sum_append]
  rfl

/-- The order of the summands is all the same to the exact sum. -/
lemma exactSum_perm (h : is.Perm js) : exactSum is = exactSum js := (h.map Int64.toInt).sum_eq

/-! ## Sums that are cut -/

/-- **A sum that need not be cut is exact.** -/
theorem toInt_clampedSum_of_fits {start : Int64}
    (h : ∀ front ∈ is.inits, FitsInt64 (start.toInt + exactSum front)) :
    (clampedSum start is).toInt = start.toInt + exactSum is := by
  induction is generalizing start with
  | nil => simp [clampedSum]
  | cons i is ih =>
    simp only [List.inits_cons, List.forall_mem_cons, List.forall_mem_map, exactSum_cons] at h
    have hstep : (clampInt64 (start.toInt + i.toInt)).toInt = start.toInt + i.toInt := by
      obtain ⟨hlow, hhigh⟩ := h.2 [] (by simp)
      rw [toInt_clampInt64]
      rw [exactSum_nil] at hlow hhigh
      omega
    have hrest : (clampedSum (clampInt64 (start.toInt + i.toInt)) is).toInt =
        (clampInt64 (start.toInt + i.toInt)).toInt + exactSum is :=
      ih fun front hfront => by
        rw [hstep, add_assoc]
        exact h.2 front hfront
    rw [clampedSum, List.foldl_cons]
    rw [clampedSum, hstep] at hrest
    rw [hrest, exactSum_cons, add_assoc]

/-- What is not below zero leads up, and is cut once at the greatest integer. -/
lemma toInt_clampedSum_of_nonneg (start : Int64) (h : ∀ i ∈ is, 0 ≤ i.toInt) :
    0 ≤ exactSum is ∧
      (clampedSum start is).toInt = min (start.toInt + exactSum is) Int64.maxValue.toInt := by
  induction is generalizing start with
  | nil =>
    have := start.toInt_le
    simp only [clampedSum, exactSum_nil, List.foldl_nil]
    omega
  | cons i is ih =>
    rw [List.forall_mem_cons] at h
    obtain ⟨hsum, hrest⟩ := ih (clampInt64 (start.toInt + i.toInt)) h.2
    have := start.minValue_le_toInt
    rw [toInt_clampInt64] at hrest
    rw [clampedSum, List.foldl_cons, ← clampedSum, hrest, exactSum_cons]
    omega

/-- What is below zero leads down, and is cut once at the least integer. -/
lemma toInt_clampedSum_of_neg (start : Int64) (h : ∀ i ∈ is, i.toInt < 0) :
    exactSum is ≤ 0 ∧
      (clampedSum start is).toInt = max (start.toInt + exactSum is) Int64.minValue.toInt := by
  induction is generalizing start with
  | nil =>
    have := start.minValue_le_toInt
    simp only [clampedSum, exactSum_nil, List.foldl_nil]
    omega
  | cons i is ih =>
    rw [List.forall_mem_cons] at h
    obtain ⟨hsum, hrest⟩ := ih (clampInt64 (start.toInt + i.toInt)) h.2
    have := start.toInt_le
    rw [toInt_clampInt64] at hrest
    rw [clampedSum, List.foldl_cons, ← clampedSum, hrest, exactSum_cons]
    omega

/-! ## Sums in every order -/

/-- The summands that are not below zero. -/
def gains (is : List Int64) : List Int64 := is.filter (fun i => decide (0 ≤ i.toInt))

/-- The summands below zero. -/
def losses (is : List Int64) : List Int64 := is.filter (fun i => !decide (0 ≤ i.toInt))

/-- Every summand is a gain or a loss. -/
lemma perm_gains_losses (is : List Int64) : (gains is ++ losses is).Perm is :=
  List.filter_append_perm _ is

/-- The sum of some of the summands lies between all losses and all gains. -/
lemma exactSum_bounds (h : js.Sublist is) :
    exactSum (losses is) ≤ exactSum js ∧ exactSum js ≤ exactSum (gains is) := by
  induction h with
  | slnil => simp [gains, losses]
  | @cons js is i h ih | @cons_cons js is i h ih =>
    by_cases hi : 0 ≤ i.toInt <;> simp [gains, losses, hi] at ih ⊢ <;> omega

/-- **A sum is exact in every order if and only if it has to be cut in none**: neither the gains
alone nor the losses alone lead out.

**Proof sketch.** Whatever the order, the sums on the way lie between that of all losses and that of
all gains. Conversely, with the gains first the sum is cut at the greatest integer unless they fit,
and can then only be exact if the losses lead down to the least integer, where the sum is cut again.
In that case the losses do not fit either, and with the losses first the sum ends above the least
integer. -/
theorem forall_perm_exact_iff :
    (∀ js : List Int64, js.Perm is → (clampedSum 0 js).toInt = exactSum is) ↔
      FitsInt64 (exactSum (gains is)) ∧ FitsInt64 (exactSum (losses is)) := by
  have hmin := Int64.toInt_minValue
  have hmax := Int64.toInt_maxValue
  have hgains := fun start => toInt_clampedSum_of_nonneg start
    (show ∀ i ∈ gains is, 0 ≤ i.toInt from fun i hi => by simpa [gains] using List.of_mem_filter hi)
  have hlosses := fun start => toInt_clampedSum_of_neg start
    (show ∀ i ∈ losses is, i.toInt < 0 from fun i hi => by
      simpa [losses] using List.of_mem_filter hi)
  have htotal : exactSum (gains is) + exactSum (losses is) = exactSum is := by
    rw [← exactSum_append, exactSum_perm (perm_gains_losses is)]
  have happend : ∀ js ks : List Int64, clampedSum 0 (js ++ ks) = clampedSum (clampedSum 0 js) ks :=
    fun _ _ => List.foldl_append
  unfold FitsInt64
  constructor
  · intro hexact
    have hup := hexact (gains is ++ losses is) (perm_gains_losses is)
    have hdown := hexact (losses is ++ gains is)
      (List.perm_append_comm.trans (perm_gains_losses is))
    rw [happend, (hlosses _).2, (hgains 0).2] at hup
    rw [happend, (hgains _).2, (hlosses 0).2] at hdown
    have hpos := (hgains 0).1
    have hneg := (hlosses 0).1
    rw [Int64.toInt_zero] at hup hdown
    omega
  · rintro ⟨hup, hdown⟩ js hjs
    have hfront : ∀ front ∈ js.inits, FitsInt64 ((0 : Int64).toInt + exactSum front) := by
      intro front hfront
      have hsub : front.Sublist js := ((List.mem_inits front js).mp hfront).sublist
      obtain ⟨hlow, hhigh⟩ := exactSum_bounds hsub
      have hgain : exactSum (gains js) = exactSum (gains is) := exactSum_perm (hjs.filter _)
      have hloss : exactSum (losses js) = exactSum (losses is) := exactSum_perm (hjs.filter _)
      rw [FitsInt64, Int64.toInt_zero]
      omega
    rw [toInt_clampedSum_of_fits hfront, Int64.toInt_zero, zero_add, exactSum_perm hjs]

end

/-! ## The sum of a column -/

/-- A running sum of integers. -/
lemma Total.foldl_add_integer (s : Int64) (is : List Int64) :
    (is.map Value.integer).foldl Total.add (.integer s) = .integer (clampedSum s is) := by
  induction is generalizing s with
  | nil => rfl
  | cons i is ih =>
    rw [List.map_cons, List.foldl_cons]
    exact ih _

namespace Accumulator

variable {is : List Int64} {inputs : List (Option Value)}

/-- The sum of integers is their sum cut after every summand. -/
lemma outcome_sum_integers (hne : is ≠ []) (hinputs : present inputs = is.map .integer) :
    outcome .sum inputs = .integer (clampedSum 0 is) := by
  rw [outcome_sum, hinputs]
  cases is with
  | nil => exact absurd rfl hne
  | cons i is =>
    -- the first summand is taken over as it is, which is the same as adding it to zero
    have hfirst : clampInt64 ((0 : Int64).toInt + i.toInt) = i := by
      have := i.minValue_le_toInt
      have := i.toInt_le
      rw [← Int64.toInt_inj, toInt_clampInt64, Int64.toInt_zero]
      omega
    rw [List.map_cons, List.foldl_cons, clampedSum, List.foldl_cons, hfirst]
    exact congrArg Total.value (Total.foldl_add_integer i is)

/-- **Sums of integers are exact as far as they need not be cut.** Let the values among the inputs
be integers, at least one. Then the outcome is their exact sum if the sums on the way have 64 bits;
and it is their exact sum in every order if and only if the sum of those that are not below zero and
the sum of those below zero have 64 bits.

**Proof sketch.** The outcome is the sum that is cut at every step. If no sum on the way has to be
cut then it is the exact one. For all orders together this is `forall_perm_exact_iff`: the order
that adds all of one sign first is the one that goes furthest. -/
theorem outcome_sum_exact (hne : is ≠ []) (hinputs : present inputs = is.map .integer) :
    ((∀ front ∈ is.inits, FitsInt64 (exactSum front)) →
      ∃ s, outcome .sum inputs = .integer s ∧ s.toInt = exactSum is) ∧
    ((∀ (js : List Int64) others, js.Perm is → present others = js.map .integer →
        ∃ s, outcome .sum others = .integer s ∧ s.toInt = exactSum is) ↔
      FitsInt64 (exactSum (is.filter fun i => decide (0 ≤ i.toInt))) ∧
        FitsInt64 (exactSum (is.filter fun i => !decide (0 ≤ i.toInt)))) := by
  refine ⟨fun hfits => ⟨_, outcome_sum_integers hne hinputs, ?_⟩, ?_⟩
  · rw [toInt_clampedSum_of_fits fun front hfront => ?_, Int64.toInt_zero, zero_add]
    rw [Int64.toInt_zero, zero_add]
    exact hfits front hfront
  · refine Iff.trans ⟨fun hexact js hjs => ?_, fun hexact js others hjs hothers => ?_⟩
      forall_perm_exact_iff
    · have hothers : present (js.map fun i => some (.integer i)) = js.map .integer := by
        simp [present, List.filterMap_map, Option.filter, Value.isNull]
      have hjsne : js ≠ [] := fun h => hne (List.nil_perm.mp (h ▸ hjs))
      obtain ⟨s, hs, hexact⟩ := hexact js _ hjs hothers
      rw [outcome_sum_integers hjsne hothers] at hs
      rw [Value.integer.inj hs]
      exact hexact
    · have hjsne : js ≠ [] := fun h => hne (List.nil_perm.mp (h ▸ hjs))
      exact ⟨_, outcome_sum_integers hjsne hothers, hexact js hjs⟩

/-- The greatest integer less five and five more, with something missing in between. -/
theorem outcome_sum_exact_greatest :
    let inputs := [some (.integer Int64.maxValue), none, some (.integer (-5)), some .null,
      some (.integer 5)]
    ∃ s, outcome .sum inputs = .integer s ∧ s.toInt = Int64.maxValue.toInt := by
  intro inputs
  exact (@outcome_sum_exact [Int64.maxValue, -5, 5] inputs (by decide) rfl).1 (by decide +kernel)

/-- What is cut off is lost: the greatest integer, one more and one less again are less than the
greatest integer. -/
theorem not_forall_outcome_sum_exact :
    ¬ ∀ (is : List Int64) (inputs : List (Option Value)), is ≠ [] →
      present inputs = is.map .integer → FitsInt64 (exactSum is) →
        ∃ s, outcome .sum inputs = .integer s ∧ s.toInt = exactSum is := by
  intro h
  obtain ⟨s, hs, hexact⟩ := h [Int64.maxValue, 1, -1]
    [some (.integer Int64.maxValue), some (.integer 1), some (.integer (-1))] (by decide) rfl
    (by decide +kernel)
  obtain rfl : 9223372036854775806 = s := Value.integer.inj hs
  exact absurd hexact (by decide +kernel)

end Accumulator

end RecordQuery
