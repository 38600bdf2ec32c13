import Mathlib.Tactic.Common
import RecordQuery.Plan.Subquery
import RecordQuery.Proofs.Outcome
import RecordQuery.Proofs.Predicate.Condition

set_option autoImplicit false

/-!
# Values for the unknowns of conditions

A condition may hold operands whose values are not known when it is compiled: parameters, values of
the row to which a table is joined, and results of sub-queries. Given values for all of them, a
condition has a meaning at once.

## Main definitions

* `Resolution` — values for all unknowns.
* `Condition.holdsIn` — whether a record satisfies a condition, given the values.

## Main results

* `Condition.holdsIn_eq_holds` — a condition without unknowns does not depend on them.
-/

namespace RecordQuery

/-- What the unknown values of conditions turn out to be. -/
structure Resolution where
  /-- The parameters. -/
  param : Nat → Value
  /-- The values of the row to which a table is joined, by their place in it. -/
  outer : String → Value
  /-- The single values of sub-queries, by slot. -/
  slot : Nat → Value
  /-- The values of sub-queries among which one is looked for, by slot. -/
  members : Nat → List Value

/-- The operand that a value is for the store. Values with which the store does not compare are
null, which satisfies no comparison. -/
def Value.asOperand : Value → Operand
  | integer i => .integer i
  | boolean b => .integer (boolInt b)
  | text s => .text s
  | _ => .null

/-- The values of nothing are known. -/
def Resolution.unknown : Resolution :=
  ⟨fun _ => .null, fun _ => .null, fun _ => .null, fun _ => []⟩

/-- An operand with its value in the place of an unknown. -/
def Resolution.operand (ρ : Resolution) : Operand → Operand
  | .param index => (ρ.param index).asOperand
  | .outer source => (ρ.outer source).asOperand
  | .slot slot => (ρ.slot slot).asOperand
  | o => o

/-- The operand of a value is known. -/
lemma Value.isResolved_asOperand (v : Value) : v.asOperand.isResolved = true := by
  cases v <;> rfl

/-- A value that is an operand for the store is the operand that it stands for. -/
lemma Value.asOperand_of_operand? {v : Value} {o : Operand} (h : v.operand? = .ok (some o)) :
    v.asOperand = o := by
  cases v <;> simp_all [Value.operand?, Value.asOperand]

namespace Resolution

variable {ρ : Resolution}

/-- A known operand stands for itself. -/
lemma operand_of_isResolved {o : Operand} (h : o.isResolved = true) : ρ.operand o = o := by
  cases o <;> simp_all [Operand.isResolved, operand]

end Resolution

namespace Operand

/-- An operand is compared with a bin that is read as its own kind as with one of any kind. -/
lemma accepts_kind (c : Comparison) (stored : Option Value) (o : Operand) :
    o.accepts o.kind c stored = o.accepts .unknown c stored := by
  cases o <;> cases stored <;> first | rfl | (rename_i v; cases v <;> rfl)

/-- Reading a bin of unknown kind as the kind of the operand changes nothing. -/
lemma accepts_orOf (kind : BinKind) (c : Comparison) (stored : Option Value) (o : Operand) :
    o.accepts (kind.orOf o) c stored = o.accepts kind c stored := by
  cases kind with
  | unknown => simpa [BinKind.orOf] using accepts_kind c stored o
  | integer => rfl
  | text => rfl

/-- Null satisfies no comparison. -/
@[simp]
lemma accepts_null (kind : BinKind) (c : Comparison) (stored : Option Value) :
    null.accepts kind c stored = false := by
  unfold accepts
  split <;> simp_all

/-- An absent value satisfies no comparison. -/
@[simp]
lemma accepts_absent (kind : BinKind) (c : Comparison) (o : Operand) :
    o.accepts kind c none = false := by
  unfold accepts
  split <;> simp_all

end Operand

namespace Condition

variable {ρ : Resolution} {r : Record}

mutual

/-- Whether a record satisfies a condition, given the values of the unknowns. -/
def holdsIn (ρ : Resolution) (r : Record) : Condition → Bool
  | compare bin kind c o => (ρ.operand o).accepts kind c (r.bin? bin)
  | inSlot bin kind slot =>
    (ρ.members slot).any (fun v => v.asOperand.accepts kind .eq (r.bin? bin))
  | all cs => holdsAllIn ρ r cs
  | any cs => holdsAnyIn ρ r cs

/-- Whether a record satisfies all of several conditions. -/
def holdsAllIn (ρ : Resolution) (r : Record) : List Condition → Bool
  | [] => true
  | c :: cs => holdsIn ρ r c && holdsAllIn ρ r cs

/-- Whether a record satisfies one of several conditions. -/
def holdsAnyIn (ρ : Resolution) (r : Record) : List Condition → Bool
  | [] => false
  | c :: cs => holdsIn ρ r c || holdsAnyIn ρ r cs

end

/-- All of several conditions hold if each of them does. -/
lemma holdsAllIn_eq (cs : List Condition) :
    holdsAllIn ρ r cs = (cs.map (holdsIn ρ r)).all id := by
  induction cs with
  | nil => rfl
  | cons c cs ih => simp [holdsAllIn, ih]

/-- One of several conditions holds if some of them does. -/
lemma holdsAnyIn_eq (cs : List Condition) :
    holdsAnyIn ρ r cs = (cs.map (holdsIn ρ r)).any id := by
  induction cs with
  | nil => rfl
  | cons c cs ih => simp [holdsAnyIn, ih]

/-! ## Conditions without unknowns -/

mutual

/-- A condition whose operands are known does not depend on values for others. -/
lemma holdsIn_of_unresolved? (ρ : Resolution) (r : Record) :
    (c : Condition) → c.unresolved? = none → c.holdsIn ρ r = c.holds r
  | compare bin kind c o, h => by
    have ho : o.isResolved = true := by
      by_contra hne
      simp [unresolved?, hne] at h
    rw [holdsIn, holds, Resolution.operand_of_isResolved ho]
  | inSlot bin kind slot, h => by simp [unresolved?] at h
  | all cs, h => by
    rw [holdsIn, holds, holdsAllIn_eq, holdsAll_eq, map_holdsIn_of_unresolved? ρ r cs h]
  | any cs, h => by
    rw [holdsIn, holds, holdsAnyIn_eq, holdsAny_eq, map_holdsIn_of_unresolved? ρ r cs h]

/-- Several conditions whose operands are known do not depend on values for others. -/
lemma map_holdsIn_of_unresolved? (ρ : Resolution) (r : Record) :
    (cs : List Condition) → unresolvedIn? cs = none → cs.map (holdsIn ρ r) = cs.map (holds r)
  | [], _ => rfl
  | c :: cs, h => by
    obtain ⟨hc, hcs⟩ := isResolved_cons h
    rw [List.map_cons, List.map_cons, holdsIn_of_unresolved? ρ r c hc,
      map_holdsIn_of_unresolved? ρ r cs hcs]

end

/-- A condition whose operands are known does not depend on values for others. -/
theorem holdsIn_eq_holds {c : Condition} (h : c.isResolved = true) :
    c.holdsIn ρ r = c.holds r :=
  holdsIn_of_unresolved? ρ r c (by simpa [isResolved] using h)

end Condition

end RecordQuery
