import Mathlib.Tactic.Lemma
import RecordQuery.Reducer.Aggregate

set_option autoImplicit false

/-!
# What an aggregate looks at

An aggregate passes over inputs that are missing or null. So it is a function of the values that are
left, in their order: of their number, of their running sum, or of the extreme that was kept of
them.

## Main definitions

* `Accumulator.present` — the values among some inputs.
* `Accumulator.outcome` — the outcome of an aggregate after some inputs.

## Main results

* `Accumulator.outcome_of_present` — the outcome is that of the values among the inputs.
* `Accumulator.outcome_count`, `Accumulator.outcome_sum`, `Accumulator.outcome_extreme` — the
  outcomes of the aggregates. -/

namespace RecordQuery

namespace Accumulator

variable {kind : AggregateKind} {inputs : List (Option Value)} {vs : List Value}

/-- The values among some inputs: what is neither missing nor null. -/
def present (inputs : List (Option Value)) : List Value :=
  inputs.filterMap (fun v => v.filter (fun v => !v.isNull))

/-- The outcome of an aggregate after some inputs. -/
def outcome (kind : AggregateKind) (inputs : List (Option Value)) : Value :=
  (inputs.foldl add (start kind)).result

/-- What is missing or null is passed over. -/
lemma foldl_add (a : Accumulator) (inputs : List (Option Value)) :
    inputs.foldl add a = (present inputs).foldl addPresent a := by
  induction inputs generalizing a with
  | nil => rfl
  | cons v inputs ih =>
    rw [List.foldl_cons, ih]
    cases v with
    | none => rfl
    | some v =>
      cases hnull : v.isNull with
      | true => simp [present, add, Option.filter, hnull]
      | false => simp [present, add, Option.filter, hnull]

/-- **The outcome is that of the values among the inputs.** -/
theorem outcome_of_present (kind : AggregateKind) (inputs : List (Option Value)) :
    outcome kind inputs = ((present inputs).foldl addPresent (start kind)).result := by
  rw [outcome, foldl_add]

/-- No value among some inputs is null. -/
lemma isNull_of_mem_present {v : Value} (h : v ∈ present inputs) : v.isNull = false := by
  simp only [present, List.mem_filterMap, Option.filter_eq_some_iff, Bool.not_eq_true'] at h
  obtain ⟨-, -, -, hnull⟩ := h
  exact hnull

/-- The values that an aggregate of each kind has taken in. -/
lemma foldl_addPresent (a : Accumulator) (vs : List Value) :
    vs.foldl addPresent a =
      match a.kind with
      | .count => { a with count := a.count + vs.length }
      | .sum | .avg =>
        { a with count := a.count + vs.length, total := vs.foldl Total.add a.total }
      | .min => { a with count := a.count + vs.length, extreme := vs.foldl (better .gt) a.extreme }
      | .max =>
        { a with count := a.count + vs.length, extreme := vs.foldl (better .lt) a.extreme } := by
  induction vs generalizing a with
  | nil =>
    obtain ⟨kind, count, total, extreme⟩ := a
    cases kind <;> rfl
  | cons v vs ih =>
    obtain ⟨kind, count, total, extreme⟩ := a
    rw [List.foldl_cons, ih]
    cases kind <;> simp [addPresent, Nat.add_assoc, Nat.add_comm 1]

/-- Counting counts the values. -/
lemma outcome_count (inputs : List (Option Value)) :
    outcome .count inputs = .integer (Int64.ofNat (present inputs).length) := by
  rw [outcome_of_present, foldl_addPresent]
  simp [start, result]

/-- The sum is the running sum of the values. -/
lemma outcome_sum (inputs : List (Option Value)) :
    outcome .sum inputs = ((present inputs).foldl Total.add .empty).value := by
  rw [outcome_of_present, foldl_addPresent]
  rfl

end Accumulator

/-- What has to be said of the value that is kept, compared with another one, for an aggregate to
keep the other one instead. -/
def AggregateKind.beyond? : AggregateKind → Option Ordering
  | .min => some .gt
  | .max => some .lt
  | .count | .sum | .avg => none

/-- An extreme is the one that was kept of the values. -/
lemma Accumulator.outcome_extreme {kind : AggregateKind} {o : Ordering} (h : kind.beyond? = some o)
    (inputs : List (Option Value)) :
    outcome kind inputs = ((present inputs).foldl (better o) none).getD .null := by
  rw [outcome_of_present, foldl_addPresent]
  cases kind with
  | min | max =>
    obtain rfl := Option.some.inj h
    rfl
  | count | sum | avg => cases h

end RecordQuery
