import RecordQuery.Expr.Eval
import RecordQuery.Proofs.Expr.Occurrence
import RecordQuery.Proofs.Outcome
import RecordQuery.Proofs.Reducer.Sum

set_option autoImplicit false

/-!
# Exact arithmetic

An expression over integers has an exact value, which may need more than 64 bits. Evaluation goes
through its parts from left to right, operands first, and fails at the first one that cannot be
computed: it divides by zero, or its exact value does not fit. If there is none, the result is the
exact value, so that nothing is ever cut to 64 bits. One remainder fails although it would fit, that
of the least integer by minus one, since the quotient does not.

## Main definitions

* `Arithmetic.exact`, `Expr.exactValue` — the value of an operator and of an expression over the
  integers.
* `Expr.IsInteger` — expressions over integers.
* `Expr.steps`, `Expr.firstFault?` — the parts of an expression in the order of their evaluation,
  and why the first of them that fails does so.
* `Expr.IsInRange`, `Expr.HasLeastRemainder` — no divisor is zero and every value fits; the one
  remainder that fails nevertheless.

## Main results

* `Arithmetic.isExact` — one operator is exact or fails.
* `Expr.IsInteger.isExact` — so is an expression, which fails at the first of its parts that does.
* `Expr.eval_exact` — when an expression is exact, and how it fails otherwise.
-/

namespace RecordQuery

open Outcome

/-! ## Operators -/

namespace Arithmetic

/-- The value of an operator over the integers. Quotients are truncated toward zero, and a remainder
is what the truncated quotient leaves. -/
def exact : Arithmetic → Int → Int → Int
  | add, a, b => a + b
  | sub, a, b => a - b
  | mul, a, b => a * b
  | div, a, b => a.tdiv b
  | rem, a, b => a.tmod b

/-- Whether the right operand is a divisor. -/
def divides : Arithmetic → Bool
  | div | rem => true
  | add | sub | mul => false

/-- Why an operator fails for two operands, if it does. -/
def fault? (op : Arithmetic) (a b : Int) : Option QueryError :=
  if op.divides = true ∧ b = 0 then some .divisionByZero
  else if FitsInt64 (op.exact a b) ∧ ¬(op = rem ∧ a = Int64.minValue.toInt ∧ b = -1) then none
  else some .overflow

/-- An operator does not fail if the divisor is not zero and the value fits, but for one
remainder. -/
lemma fault?_eq_none_iff {op : Arithmetic} {a b : Int} :
    op.fault? a b = none ↔ (op.divides = true → b ≠ 0) ∧ FitsInt64 (op.exact a b) ∧
      ¬(op = rem ∧ a = Int64.minValue.toInt ∧ b = -1) := by
  unfold fault?
  split
  · next hzero => simp [hzero.1, hzero.2]
  · next hzero =>
    have hdivisor : op.divides = true → b ≠ 0 := fun hop hb => hzero ⟨hop, hb⟩
    split
    · next hexact => exact iff_of_true rfl ⟨hdivisor, hexact⟩
    · next hexact => exact iff_of_false (Option.some_ne_none _) fun h => hexact h.2

/-- An operator fails for a divisor of zero or because of the width. -/
lemma fault?_eq_some {op : Arithmetic} {a b : Int} {err : QueryError}
    (h : op.fault? a b = some err) :
    err = .divisionByZero ∨ err = .overflow := by
  unfold fault? at h
  split at h
  · exact .inl (Option.some.inj h).symm
  · split at h
    · cases h
    · exact .inr (Option.some.inj h).symm

end Arithmetic

/-- What comes of a computation on integers: the failure if there is one, and otherwise the integer
with the exact value. -/
def IsExact (fault : Option QueryError) (a : Int) (outcome : Except QueryError Value) : Prop :=
  match fault with
  | some err => outcome = .error err
  | none => ∃ i : Int64, outcome = .ok (.integer i) ∧ i.toInt = a

/-- An integer is itself. -/
lemma IsExact.integer (i : Int64) : IsExact none i.toInt (.ok (.integer i)) := ⟨i, rfl, rfl⟩

/-- A value that fits is itself when it is checked. -/
lemma isExact_checkedInt_of_fits {a : Int} (h : FitsInt64 a) : IsExact none a (checkedInt a) := by
  have hmin := Int64.toInt_minValue
  have hmax := Int64.toInt_maxValue
  obtain ⟨hlow, hhigh⟩ := h
  exact ⟨Int64.ofInt a, if_pos ⟨hlow, hhigh⟩, Int64.toInt_ofInt_of_le (by omega) (by omega)⟩

/-- A value that does not fit is not cut. -/
lemma checkedInt_of_not_fits {a : Int} (h : ¬FitsInt64 a) : checkedInt a = .error .overflow :=
  if_neg h

/-- An operator checks its value, but for a divisor of zero and for one remainder. -/
lemma intArithmetic_eq (op : Arithmetic) (a b : Int) :
    intArithmetic op a b =
      if op.divides = true ∧ b = 0 then .error .divisionByZero
      else if op = .rem ∧ a = Int64.minValue.toInt ∧ b = -1 then .error .overflow
      else checkedInt (op.exact a b) := by
  cases op <;> simp [intArithmetic, Arithmetic.divides, Arithmetic.exact]

/-- **One operator is exact or fails.** -/
theorem Arithmetic.isExact (op : Arithmetic) (i j : Int64) :
    IsExact (op.fault? i.toInt j.toInt) (op.exact i.toInt j.toInt)
      (arithmetic op (.integer i) (.integer j)) := by
  change IsExact _ _ (intArithmetic op i.toInt j.toInt)
  rw [intArithmetic_eq, fault?]
  by_cases hzero : op.divides = true ∧ j.toInt = 0
  · rw [if_pos hzero, if_pos hzero]
    rfl
  rw [if_neg hzero, if_neg hzero]
  by_cases hleast : op = rem ∧ i.toInt = Int64.minValue.toInt ∧ j.toInt = -1
  · rw [if_pos hleast, if_neg fun h => h.2 hleast]
    rfl
  rw [if_neg hleast]
  by_cases hfits : FitsInt64 (op.exact i.toInt j.toInt)
  · rw [if_pos ⟨hfits, hleast⟩]
    exact isExact_checkedInt_of_fits hfits
  · rw [if_neg fun h => hfits h.1]
    exact checkedInt_of_not_fits hfits

/-- **A negative is exact or fails.** -/
lemma isExact_negate (i : Int64) :
    IsExact (if FitsInt64 (-i.toInt) then none else some .overflow) (-i.toInt)
      (negate (.integer i)) := by
  split
  · next hfits => exact isExact_checkedInt_of_fits hfits
  · next hfits => exact checkedInt_of_not_fits hfits

/-- **Two computations in a row.** The first one fails, or its exact value goes into the second. -/
lemma IsExact.bind {fault fault' : Option QueryError} {a b : Int}
    {outcome : Except QueryError Value} {next : Value → Except QueryError Value}
    (h : IsExact fault a outcome)
    (hnext : ∀ i : Int64, i.toInt = a → IsExact fault' b (next (.integer i))) :
    IsExact (fault.or fault') b (outcome >>= next) := by
  cases fault with
  | some err =>
    rw [show outcome = .error err from h]
    rfl
  | none =>
    obtain ⟨i, rfl, hi⟩ := h
    exact hnext i hi

/-! ## Expressions -/

/-- The integer that a value is. -/
def Value.exactInt : Value → Int
  | integer i => i.toInt
  | _ => 0

namespace Expr

variable {env : EvalEnv} {e s : Expr}

/-- Expressions over integers: they are made of integer constants, and of parameters and columns
that are integers, by signs, arithmetic operators and parentheses. -/
inductive IsInteger (env : EvalEnv) : Expr → Prop
  /-- A constant. -/
  | literal (i : Int64) : IsInteger env (literal (.integer i))
  /-- A column that holds an integer. -/
  | column {c : ColumnRef} {i : Int64} (h : env.column c = .integer i) : IsInteger env (column c)
  /-- A parameter that is bound to an integer. -/
  | param {index : Nat} {i : Int64} (h : param? env.params index = .ok (.integer i)) :
    IsInteger env (param index)
  /-- A negative. -/
  | negative {e : Expr} (he : IsInteger env e) : IsInteger env (negative e)
  /-- An expression in parentheses. -/
  | paren {e : Expr} (he : IsInteger env e) : IsInteger env (paren e)
  /-- An operator. -/
  | arith (op : Arithmetic) {l r : Expr} (hl : IsInteger env l) (hr : IsInteger env r) :
    IsInteger env (binary (.arith op) l r)

/-- The value of an expression over the integers, however many bits it needs. -/
def exactValue (env : EvalEnv) : Expr → Int
  | literal l => l.value.exactInt
  | column c => (env.column c).exactInt
  | param index => (param? env.params index).toOption.elim 0 Value.exactInt
  | negative e => -e.exactValue env
  | paren e => e.exactValue env
  | binary (.arith op) l r => op.exact (l.exactValue env) (r.exactValue env)
  | _ => 0

/-- The parts of an expression over integers in the order in which they are evaluated. -/
def steps : Expr → List Expr
  | binary op l r => l.steps ++ (r.steps ++ [binary op l r])
  | negative e => e.steps ++ [negative e]
  | paren e => e.steps ++ [paren e]
  | e => [e]

/-- Why a part of an expression fails if its operands have their exact values, if it does. -/
def fault? (env : EvalEnv) : Expr → Option QueryError
  | binary (.arith op) l r => op.fault? (l.exactValue env) (r.exactValue env)
  | negative e => if FitsInt64 (-e.exactValue env) then none else some .overflow
  | _ => none

/-- Why the first part that fails does so, in the order of evaluation. -/
def firstFault? (env : EvalEnv) (e : Expr) : Option QueryError := e.steps.findSome? (fault? env)

/-- No divisor is zero, and the exact value of every part has 64 bits. -/
structure IsInRange (env : EvalEnv) (e : Expr) : Prop where
  /-- No divisor is zero. -/
  divisors : ∀ op l r, binary (.arith op) l r ∈ e.parts → op.divides = true → r.exactValue env ≠ 0
  /-- All values have 64 bits. -/
  fits : ∀ s ∈ e.parts, FitsInt64 (s.exactValue env)

/-- Among the parts is the remainder of the least integer by minus one. -/
def HasLeastRemainder (env : EvalEnv) (e : Expr) : Prop :=
  ∃ l r, binary (.arith .rem) l r ∈ e.parts ∧ l.exactValue env = Int64.minValue.toInt ∧
    r.exactValue env = -1

/-- **An expression over integers is exact or fails** at the first of its parts that does.

**Proof sketch.** By induction on the expression. Operands fail before their operator, the left one
before the right one, which is what `IsExact.bind` composes; the operator itself is exact on the
values its operands have. -/
theorem IsInteger.isExact (h : e.IsInteger env) :
    IsExact (e.firstFault? env) (e.exactValue env) (e.evalIn env) := by
  induction h with
  | literal i => exact .integer i
  | column h =>
    simp only [firstFault?, steps, List.findSome?_singleton, fault?, exactValue, evalIn, h]
    exact .integer _
  | param h =>
    simp only [firstFault?, steps, List.findSome?_singleton, fault?, exactValue, evalIn, h]
    exact .integer _
  | negative _ ih =>
    simp only [firstFault?, steps, List.findSome?_append, List.findSome?_singleton, evalIn]
    refine ih.bind fun i hi => ?_
    simp only [fault?, exactValue, ← hi]
    exact isExact_negate i
  | paren _ ih =>
    simp only [firstFault?, steps, List.findSome?_append, List.findSome?_singleton, evalIn, fault?,
      Option.or_none]
    exact ih
  | arith op _ _ ihl ihr =>
    simp only [firstFault?, steps, List.findSome?_append, List.findSome?_singleton, evalIn]
    refine ihl.bind fun i hi => ihr.bind fun j hj => ?_
    simp only [fault?, exactValue, ← hi, ← hj]
    exact op.isExact i j

/-! ## Parts -/

/-- The parts are all evaluated. -/
lemma IsInteger.mem_steps (h : e.IsInteger env) : s ∈ e.steps ↔ s ∈ e.parts := by
  induction h with
  | literal | column | param => simp [steps, parts]
  | negative _ ih | paren _ ih => simp [steps, parts, ih, or_comm]
  | arith op _ _ ihl ihr =>
    simp only [steps, parts, List.mem_append, List.mem_cons, List.not_mem_nil, or_false, ihl, ihr]
    tauto

/-- The parts of an expression over integers are expressions over integers.

**Proof sketch.** By induction on the expression: a part is the expression itself or a part of an
operand. -/
lemma IsInteger.of_mem_parts (h : e.IsInteger env) (hs : s ∈ e.parts) : s.IsInteger env := by
  induction h with
  | literal i =>
    rw [parts, List.mem_singleton] at hs
    exact hs ▸ .literal i
  | column h =>
    rw [parts, List.mem_singleton] at hs
    exact hs ▸ .column h
  | param h =>
    rw [parts, List.mem_singleton] at hs
    exact hs ▸ .param h
  | negative he ih =>
    rw [parts, List.mem_cons] at hs
    rcases hs with rfl | hs
    · exact .negative he
    · exact ih hs
  | paren he ih =>
    rw [parts, List.mem_cons] at hs
    rcases hs with rfl | hs
    · exact .paren he
    · exact ih hs
  | arith op hl hr ihl ihr =>
    rw [parts, List.mem_cons, List.mem_append] at hs
    rcases hs with rfl | hs | hs
    · exact .arith op hl hr
    · exact ihl hs
    · exact ihr hs

/-- The value of a part fits if no part fails: it is the one that the part is evaluated to. -/
lemma IsInteger.fits_of_firstFault? (h : e.IsInteger env) (hnone : e.firstFault? env = none)
    (hs : s ∈ e.parts) : FitsInt64 (s.exactValue env) := by
  have hpart := h.of_mem_parts hs
  have hsnone : s.firstFault? env = none := by
    rw [firstFault?, List.findSome?_eq_none_iff] at hnone ⊢
    intro u hu
    exact hnone u (h.mem_steps.mpr (parts_trans e hs (hpart.mem_steps.mp hu)))
  have hexact := hpart.isExact
  rw [hsnone] at hexact
  obtain ⟨i, -, hi⟩ := hexact
  exact hi ▸ ⟨i.minValue_le_toInt, i.toInt_le⟩

/-- **No part fails** if no divisor is zero and every value fits, but for one remainder.

**Proof sketch.** No step fails if and only if each operator has no fault on the exact values of its
operands (`Arithmetic.fault?_eq_none_iff`). For an operator this says that its divisor is not zero,
its value fits and it is not the least remainder; literals, columns and parameters always fit. -/
lemma IsInteger.firstFault?_eq_none_iff (h : e.IsInteger env) :
    e.firstFault? env = none ↔ e.IsInRange env ∧ ¬e.HasLeastRemainder env := by
  constructor
  · intro hnone
    have hfits := fun s hs => h.fits_of_firstFault? (s := s) hnone hs
    rw [firstFault?, List.findSome?_eq_none_iff] at hnone
    have hop : ∀ op l r, binary (.arith op) l r ∈ e.parts →
        op.fault? (l.exactValue env) (r.exactValue env) = none :=
      fun op l r hmem => hnone _ (h.mem_steps.mpr hmem)
    refine ⟨⟨fun op l r hmem => ?_, hfits⟩, ?_⟩
    · exact (Arithmetic.fault?_eq_none_iff.mp (hop op l r hmem)).1
    · rintro ⟨l, r, hmem, hl, hr⟩
      exact (Arithmetic.fault?_eq_none_iff.mp (hop .rem l r hmem)).2.2 ⟨rfl, hl, hr⟩
  · rintro ⟨hrange, hleast⟩
    rw [firstFault?, List.findSome?_eq_none_iff]
    intro s hs
    rw [h.mem_steps] at hs
    unfold fault?
    split
    · next op l r =>
      refine Arithmetic.fault?_eq_none_iff.mpr ⟨hrange.divisors op l r hs, hrange.fits _ hs, ?_⟩
      rintro ⟨rfl, hl, hr⟩
      exact hleast ⟨l, r, hs, hl, hr⟩
    · exact if_pos (hrange.fits _ hs)
    · rfl

/-- Parts fail for a divisor of zero or because of the width. -/
lemma firstFault?_eq_some {err : QueryError} (h : e.firstFault? env = some err) :
    err = .divisionByZero ∨ err = .overflow := by
  obtain ⟨s, -, hs⟩ := List.exists_of_findSome?_eq_some h
  unfold fault? at hs
  split at hs
  · exact Arithmetic.fault?_eq_some hs
  · split at hs
    · cases hs
    · exact .inr (Option.some.inj hs).symm
  · cases hs

/-- **Expressions over integers are exact or fail.** If no divisor is zero, the exact value of every
part has 64 bits and no part is the remainder of the least integer by minus one, then the result is
the exact value. Otherwise evaluation fails as the first part does that cannot be computed, with a
division by zero or an overflow.

**Proof sketch.** Evaluation fails at the first part that does and is exact if there is none
(`IsInteger.isExact`), and there is none if all of this holds
(`IsInteger.firstFault?_eq_none_iff`). -/
theorem eval_exact {params : List Value} {row : Row} {e : Expr}
    (he : e.IsInteger (row.evalEnv params)) :
    (e.IsInRange (row.evalEnv params) → ¬e.HasLeastRemainder (row.evalEnv params) →
      ∃ i : Int64, e.eval params row = .ok (.integer i) ∧
        i.toInt = e.exactValue (row.evalEnv params)) ∧
    (¬(e.IsInRange (row.evalEnv params) ∧ ¬e.HasLeastRemainder (row.evalEnv params)) →
      ∃ err, e.firstFault? (row.evalEnv params) = some err ∧ e.eval params row = .error err ∧
        (err = .divisionByZero ∨ err = .overflow)) := by
  have hexact := he.isExact
  rw [← he.firstFault?_eq_none_iff]
  constructor
  · intro hrange hleast
    rwa [he.firstFault?_eq_none_iff.mpr ⟨hrange, hleast⟩] at hexact
  · intro hfault
    obtain ⟨err, herr⟩ := Option.ne_none_iff_exists'.mp hfault
    rw [herr] at hexact
    exact ⟨err, herr, hexact, firstFault?_eq_some herr⟩

/-- An expression that is exact close to the width, and one whose dividend fails before the divisor
turns out to be zero.

**Proof sketch.** The expressions are built as integers from their leaves. The product has no fault
by computation, so it is in range and exact; the quotient's first fault is the overflow of its
dividend, which `eval_exact` returns. -/
theorem eval_exact_wide :
    let row : Row :=
      (OrderedMap.empty.set "x" (.integer 7)).set "y" (.integer Int64.maxValue)
    let params : List Value := [.integer (-2)]
    let x : Expr := .column ⟨none, "x"⟩
    let y : Expr := .column ⟨none, "y"⟩
    let product : Expr := binary (.arith .mul) (negative (paren (binary (.arith .rem) x (param 1))))
      (paren (binary (.arith .sub) y x))
    let quotient : Expr := binary (.arith .div) (binary (.arith .add) y x)
      (binary (.arith .sub) x (.literal (.integer 7)))
    (product.IsInteger (row.evalEnv params) ∧ product.IsInRange (row.evalEnv params) ∧
      ¬product.HasLeastRemainder (row.evalEnv params) ∧
      ∃ i : Int64, product.eval params row = .ok (.integer i) ∧ i.toInt = 8 - 2 ^ 63) ∧
    quotient.IsInteger (row.evalEnv params) ∧
      ¬(quotient.IsInRange (row.evalEnv params) ∧
        ¬quotient.HasLeastRemainder (row.evalEnv params)) ∧
      quotient.eval params row = .error .overflow := by
  intro row params x y product quotient
  have hx : x.IsInteger (row.evalEnv params) := .column rfl
  have hy : y.IsInteger (row.evalEnv params) := .column rfl
  have hproduct : product.IsInteger (row.evalEnv params) :=
    .arith .mul (.negative (.paren (.arith .rem hx (.param rfl)))) (.paren (.arith .sub hy hx))
  have hquotient : quotient.IsInteger (row.evalEnv params) :=
    .arith .div (.arith .add hy hx) (.arith .sub hx (.literal 7))
  obtain ⟨hrange, hleast⟩ := hproduct.firstFault?_eq_none_iff.mp rfl
  have hfault : quotient.firstFault? (row.evalEnv params) = some .overflow := rfl
  have hfails : ¬(quotient.IsInRange (row.evalEnv params) ∧
      ¬quotient.HasLeastRemainder (row.evalEnv params)) := by
    rw [← hquotient.firstFault?_eq_none_iff, hfault]
    exact Option.some_ne_none _
  obtain ⟨err, herr, heval, -⟩ := (eval_exact hquotient).2 hfails
  obtain rfl := Option.some.inj (hfault.symm.trans herr)
  exact ⟨⟨hproduct, hrange, hleast, (eval_exact hproduct).1 hrange hleast⟩, hquotient, hfails,
    heval⟩

/-- **The remainder of the least integer by minus one fails**, although no divisor is zero and every
value fits. -/
theorem eval_leastRemainder :
    let row : Row := OrderedMap.empty.set "x" (.integer Int64.minValue)
    let e : Expr := binary (.arith .rem) (.column ⟨none, "x"⟩) (negative (.literal (.integer 1)))
    e.IsInteger (row.evalEnv []) ∧ e.IsInRange (row.evalEnv []) ∧
      e.exactValue (row.evalEnv []) = 0 ∧ e.eval [] row = .error .overflow := by
  intro row e
  have hparts : e.parts = [e, .column ⟨none, "x"⟩, negative (.literal (.integer 1)),
      .literal (.integer 1)] := rfl
  refine ⟨.arith .rem (.column rfl) (.negative (.literal 1)), ⟨?_, ?_⟩, rfl, rfl⟩
  · intro op l r hmem _
    simp only [hparts, e, List.mem_cons, List.not_mem_nil, or_false, binary.injEq,
      reduceCtorEq] at hmem
    obtain ⟨-, -, rfl⟩ := hmem
    decide
  · simp only [hparts, List.forall_mem_cons, List.not_mem_nil, false_implies, implies_true,
      and_true]
    decide

end Expr

end RecordQuery
