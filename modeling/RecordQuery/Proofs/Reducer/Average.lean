import RecordQuery.Proofs.Reducer.Aggregate

set_option autoImplicit false

/-!
# Averages

The average of a column is the sum of its numbers divided by a number of values. The sum passes over
whatever is no number, but the divisor counts every value that is neither missing nor null. So a
text among the numbers leaves the sum as it is and lowers the average, though a text alone has no
average.

## Main definitions

* `Value.isNumber` — the values that a sum adds.
* `Value.quotient` — a sum divided by a number of values.
* `Accumulator.numbers`, `Accumulator.oddValues` — the inputs that are numbers, and the values among
  the inputs that are none.

## Main results

* `Accumulator.outcome_sum_numbers` — the sum is that of the numbers.
* `Accumulator.outcome_avg` — the average is the sum divided by the number of all values.
* `Accumulator.outcome_avg_numbers` — what numbers and other values contribute to an average.
-/

namespace RecordQuery

namespace Value

/-- Whether a value is a number. -/
def isNumber : Value → Bool
  | integer _ => true
  | float _ => true
  | _ => false

/-- A number divided by a number of values. Without a number there is no quotient. -/
def quotient (v : Value) (n : Nat) : Value :=
  match v.asFloat? with
  | some x => .float (x.div (Binary64.ofInt n))
  | none => .null

/-- No number is null. -/
lemma isNull_of_isNumber {v : Value} (h : v.isNumber = true) : v.isNull = false := by
  cases v <;> first | rfl | cases h

end Value

/-- A sum passes over what is no number. -/
lemma Total.add_of_not_isNumber {v : Value} (h : v.isNumber = false) (t : Total) : t.add v = t := by
  cases v with
  | integer i => cases h
  | float x => cases h
  | null | boolean b | text s | blob bs | list vs => cases t <;> rfl

/-- The average of a sum is its quotient. -/
lemma Total.average_eq (t : Total) (n : Nat) : t.average n = t.value.quotient n := by
  cases t <;> rfl

namespace Accumulator

/-- The inputs that are numbers. -/
def numbers (inputs : List (Option Value)) : List (Option Value) :=
  inputs.filter (Option.any Value.isNumber)

/-- The values among some inputs that are no numbers. -/
def oddValues (inputs : List (Option Value)) : List Value :=
  (present inputs).filter (fun v => !v.isNumber)

/-- The values among the inputs that are numbers. -/
lemma present_numbers (inputs : List (Option Value)) :
    present (numbers inputs) = (present inputs).filter Value.isNumber := by
  induction inputs with
  | nil => rfl
  | cons v inputs ih =>
    cases v with
    | none => exact ih
    | some v =>
      cases hnumber : v.isNumber with
      | true =>
        have hnull := Value.isNull_of_isNumber hnumber
        simpa [present, numbers, Option.filter, hnumber, hnull] using ih
      | false => cases hnull : v.isNull <;>
          simpa [present, numbers, Option.filter, hnumber, hnull] using ih

/-- Every number is a value. -/
lemma length_present_numbers (inputs : List (Option Value)) :
    (present (numbers inputs)).length = (numbers inputs).length := by
  refine List.filterMap_length_eq_length.mpr fun v hv => ?_
  have hnumber := (List.mem_filter.mp hv).2
  cases v with
  | none => cases hnumber
  | some v => simp [Option.filter, Value.isNull_of_isNumber hnumber]

/-- Every value is a number or an odd one. -/
lemma length_present (inputs : List (Option Value)) :
    (present inputs).length = (numbers inputs).length + (oddValues inputs).length := by
  rw [← length_present_numbers, present_numbers, oddValues, ← List.length_append]
  exact (List.filter_append_perm Value.isNumber (present inputs)).length_eq.symm

/-- **The sum is that of the numbers.** -/
theorem outcome_sum_numbers (inputs : List (Option Value)) :
    outcome .sum (numbers inputs) = outcome .sum inputs := by
  rw [outcome_sum, outcome_sum, present_numbers, List.foldl_filter]
  congr 2
  funext t v
  cases h : v.isNumber with
  | true => rfl
  | false => exact (Total.add_of_not_isNumber h t).symm

/-- **The average is the sum divided by the number of all values.** -/
theorem outcome_avg (inputs : List (Option Value)) :
    outcome .avg inputs = (outcome .sum inputs).quotient (present inputs).length := by
  rw [outcome_sum, ← Total.average_eq, outcome_of_present, foldl_addPresent]
  simp only [start, result, Nat.zero_add]
  split
  · next hnone =>
    rw [List.eq_nil_of_length_eq_zero hnone]
    rfl
  · rfl

/-- **What numbers and other values contribute to an average.** The sum is that of the numbers.
Their average is the sum divided by their number. The average of all inputs is the same sum divided
by the number of all values, the odd ones counted, and so it is that of the numbers if there are no
odd ones. -/
theorem outcome_avg_numbers (inputs : List (Option Value)) :
    outcome .sum (numbers inputs) = outcome .sum inputs ∧
    outcome .avg (numbers inputs) = (outcome .sum inputs).quotient (numbers inputs).length ∧
    outcome .avg inputs =
      (outcome .sum inputs).quotient ((numbers inputs).length + (oddValues inputs).length) ∧
    (oddValues inputs = [] → outcome .avg inputs = outcome .avg (numbers inputs)) := by
  have hnumbers : outcome .avg (numbers inputs) =
      (outcome .sum inputs).quotient (numbers inputs).length := by
    rw [outcome_avg, outcome_sum_numbers, length_present_numbers]
  have hall : outcome .avg inputs =
      (outcome .sum inputs).quotient ((numbers inputs).length + (oddValues inputs).length) := by
    rw [outcome_avg, length_present]
  refine ⟨outcome_sum_numbers inputs, hnumbers, hall, fun hnone => ?_⟩
  rw [hall, hnone, List.length_nil, Nat.add_zero, hnumbers]

/-- Missing values and null do not count. -/
theorem outcome_avg_numbers_ages :
    let inputs := [some (.integer 10), none, some (.float ⟨0x4034000000000000⟩), some .null]
    oddValues inputs = [] ∧ outcome .avg inputs = outcome .avg (numbers inputs) :=
  ⟨rfl, (outcome_avg_numbers _).2.2.2 rfl⟩

/-- A text halves the average of a number, though alone it has none. -/
example :
    (outcome .avg [some (.integer 10)]).asFloat? = some (.ofInt 10) ∧
      (outcome .avg [some (.integer 10), some (.text "a")]).asFloat? = some (.ofInt 5) ∧
      outcome .avg [some (.text "a")] = .null :=
  ⟨by decide +kernel, by decide +kernel, rfl⟩

end Accumulator

end RecordQuery
