import RecordQuery.Expr.Eval
import RecordQuery.Proofs.Expr.Occurrence
import RecordQuery.Proofs.Fault.Basic

set_option autoImplicit false

/-!
# Evaluation has no grave failures but for parameters

An expression may fail on a row, but whether it does is a matter of the row and the parameters. It
has no plan fault, and if its parameters have values, it does not fail for want of one.

## Main definitions

* `Expr.AvoidsParams` — no parameter of an expression fails in a given way.

## Main results

* `callFunction_benign` — calls have neither plan faults nor missing parameters.
* `Expr.evalIn_avoids` — the grave failures of an expression are those of its parameters.
-/

namespace RecordQuery

open Outcome

/-! ## Operators -/

/-- An integer that may be outside the 64-bit integers. -/
lemma checkedInt_benign (i : Int) : Benign (checkedInt i) := by
  unfold checkedInt
  split
  · trivial
  · rfl

/-- Arithmetic on integers. -/
lemma intArithmetic_benign (op : Arithmetic) (a b : Int) : Benign (intArithmetic op a b) := by
  unfold intArithmetic
  cases op
  all_goals
    simp only
    repeat' split
    all_goals first | rfl | exact checkedInt_benign _

/-- Arithmetic on floats. -/
lemma floatArithmetic_benign (op : Arithmetic) (x y : Binary64) :
    Benign (floatArithmetic op x y) := by
  unfold floatArithmetic
  cases op
  all_goals
    simp only
    repeat' split
    all_goals first | rfl | trivial

/-- Arithmetic on values. -/
lemma arithmetic_benign (op : Arithmetic) (v w : Value) : Benign (arithmetic op v w) := by
  unfold arithmetic
  split
  · exact intArithmetic_benign op _ _
  · exact floatArithmetic_benign op _ _
  · exact floatArithmetic_benign op _ _
  · exact floatArithmetic_benign op _ _
  · split
    · trivial
    · rfl
  · rfl

/-- The order of two values. -/
lemma Value.order_benign (v w : Value) : Benign (v.order w) := by
  unfold Value.order
  split
  · trivial
  · rfl

/-- Comparisons of values. -/
lemma compareValues_benign (c : Comparison) (v w : Value) : Benign (compareValues c v w) := by
  unfold compareValues
  simp only
  split <;> exact (Value.order_benign _ _).bind fun _ _ => trivial

/-- Negatives of values. -/
lemma negate_benign (v : Value) : Benign (negate v) := by
  unfold negate
  split
  · trivial
  · exact checkedInt_benign _
  · trivial
  · rfl

/-- Elements of lists. -/
lemma elementOf_benign (v k : Value) : Benign (elementOf v k) := by
  unfold elementOf
  split <;> trivial

/-- A parameter without a value is no plan fault. -/
lemma param?_faultless (params : List Value) (index : Nat) : Faultless (param? params index) := by
  unfold param?
  split
  · rfl
  · split
    · trivial
    · rfl

/-- A parameter whose number is that of a value has this value. -/
lemma param?_benign {params : List Value} {index : Nat} (hpos : 1 ≤ index)
    (hle : index ≤ params.length) : Benign (param? params index) := by
  cases index with
  | zero => cases hpos
  | succ i =>
    rw [param?, List.getElem?_eq_getElem hle]
    trivial

/-- Ranges. -/
lemma between_benign (negated : Bool) (v low high : Value) :
    Benign (between negated v low high) := by
  unfold between
  split
  · trivial
  · refine (v.order_benign low).bind fun fromLow _ => ?_
    simp only
    split
    · trivial
    · exact (v.order_benign high).bind fun _ _ => trivial

/-! ## Functions -/

namespace Function

/-- Arguments that have to be texts. -/
lemma textArg_benign (f : Function) (v : Value) : Benign (f.textArg v) := by
  unfold textArg
  split
  · trivial
  · rfl

/-- Arguments that have to be integers. -/
lemma intArg_benign (f : Function) (v : Value) : Benign (f.intArg v) := by
  unfold intArg
  split
  · trivial
  · rfl

/-- Functions of one text. -/
lemma onText_benign (f : Function) (g : String → Value) (args : List Value) :
    Benign (f.onText g args) := by
  unfold onText
  split
  · trivial
  · exact (f.textArg_benign _).bind fun _ _ => trivial
  · rfl

/-- Functions of two arguments. -/
lemma onPair_benign (f : Function) {g : Value → Value → Except QueryError Value}
    (hg : ∀ v w, Benign (g v w)) (args : List Value) : Benign (f.onPair g args) := by
  unfold onPair
  split
  · split
    · trivial
    · exact hg _ _
  · rfl

/-- Absolute values. -/
lemma absOf_benign (v : Value) : Benign (absOf v) := by
  unfold absOf
  split
  · trivial
  · split
    · rfl
    · trivial
  · trivial
  · rfl

/-- Values of calls.

**Proof sketch.** By the function. Those on one or two texts read their arguments, which is not
grave, and then return; the others match on the number of arguments and refuse any other. -/
lemma apply_benign (f : Function) (args : List Value) : Benign (f.apply args) := by
  cases f with
  | length | upper | lower | trim | trimStart | trimEnd | reverse => exact onText_benign _ _ args
  | concat | coalesce => trivial
  | left | right =>
    refine onPair_benign _ (fun v w => ?_) args
    exact (textArg_benign _ v).bind fun _ _ => (intArg_benign _ w).bind fun _ _ => trivial
  | compareTexts =>
    refine onPair_benign _ (fun v w => ?_) args
    exact (textArg_benign _ v).bind fun _ _ => (textArg_benign _ w).bind fun _ _ => trivial
  | indexOf =>
    refine onPair_benign _ (fun v w => ?_) args
    refine (textArg_benign _ v).bind fun _ _ => (textArg_benign _ w).bind fun _ _ => ?_
    split <;> trivial
  | abs =>
    simp only [apply]
    split
    · exact absOf_benign _
    · rfl
  | ifNull =>
    simp only [apply]
    split
    · trivial
    · rfl
  | substring =>
    simp only [apply]
    split
    · split
      · trivial
      · exact (textArg_benign _ _).bind fun _ _ => (intArg_benign _ _).bind fun _ _ => trivial
    · split
      · trivial
      · exact (textArg_benign _ _).bind fun _ _ => (intArg_benign _ _).bind fun _ _ =>
          (intArg_benign _ _).bind fun _ _ => trivial
    · rfl

end Function

/-- **Calls have neither plan faults nor missing parameters.** -/
theorem callFunction_benign (name : String) (args : List Value) :
    Benign (callFunction name args) := by
  unfold callFunction
  split
  · exact Function.apply_benign _ args
  · rfl

/-! ## Expressions -/

namespace Expr

variable {bad : QueryError → Bool} {env : EvalEnv}

/-- No parameter of an expression fails in a given way when it is looked up. -/
def AvoidsParams (bad : QueryError → Bool) (params : List Value) (e : Expr) : Prop :=
  ∀ index, param index ∈ e.parts → Avoids bad (fun _ => True) (param? params index)

/-- The same for a part of the expression. -/
lemma AvoidsParams.mono {params : List Value} {e a : Expr} (h : e.AvoidsParams bad params)
    (ha : a.parts ⊆ e.parts) : a.AvoidsParams bad params :=
  fun index hindex => h index (ha hindex)

mutual

/-- **The evaluation of an expression has the grave failures of its parameters only.**

**Proof sketch.** By induction on the expression. A parameter avoids the failures by assumption.
Every other expression evaluates its operands in turn, to which the hypotheses apply since their
parts are parts of the expression, and then applies an operation without grave failures. -/
theorem evalIn_avoids [QueryError.Grave bad] : (e : Expr) → e.AvoidsParams bad env.params →
    Avoids bad (fun _ => True) (e.evalIn env)
  | literal l, _ | column c, _ => by
    simp only [evalIn]
    trivial
  | param index, h => by
    simp only [evalIn]
    exact h index (self_mem_parts _)
  | binary .and l r, h | binary .or l r, h => by
    simp only [evalIn]
    refine (evalIn_avoids l (h.mono fun s hs => by simp [parts, hs])).bind fun v _ => ?_
    split
    · trivial
    · refine (evalIn_avoids r (h.mono fun s hs => by simp [parts, hs])).bind fun w _ => ?_
      repeat' split
      all_goals trivial
  | binary (.compare c) l r, h => by
    simp only [evalIn]
    refine (evalIn_avoids l (h.mono fun s hs => by simp [parts, hs])).bind fun v _ =>
      (evalIn_avoids r (h.mono fun s hs => by simp [parts, hs])).bind fun w _ => ?_
    split
    · trivial
    · exact .of_safe (compareValues_benign c v w)
  | binary (.arith a) l r, h => by
    simp only [evalIn]
    refine (evalIn_avoids l (h.mono fun s hs => by simp [parts, hs])).bind fun v _ =>
      (evalIn_avoids r (h.mono fun s hs => by simp [parts, hs])).bind fun w _ => ?_
    split
    · trivial
    · exact .of_safe (arithmetic_benign a v w)
  | negative e, h => by
    simp only [evalIn]
    exact (evalIn_avoids e (h.mono fun s hs => by simp [parts, hs])).bind fun v _ =>
      .of_safe (negate_benign v)
  | not e, h => by
    simp only [evalIn]
    refine (evalIn_avoids e (h.mono fun s hs => by simp [parts, hs])).bind fun v _ => ?_
    split <;> trivial
  | isNull e negated, h => by
    simp only [evalIn]
    exact (evalIn_avoids e (h.mono fun s hs => by simp [parts, hs])).bind fun v _ => trivial
  | between e low high negated, h => by
    simp only [evalIn]
    exact (evalIn_avoids e (h.mono fun s hs => by simp [parts, hs])).bind fun v _ =>
      (evalIn_avoids low (h.mono fun s hs => by simp [parts, hs])).bind fun l _ =>
        (evalIn_avoids high (h.mono fun s hs => by simp [parts, hs])).bind fun h _ =>
          .of_safe (between_benign negated v l h)
  | inList e items negated, h => by
    simp only [evalIn]
    refine (evalIn_avoids e (h.mono fun s hs => by simp [parts, hs])).bind fun v _ => ?_
    split
    · trivial
    · exact (evalMember_avoids v items fun a ha => h.mono fun s hs =>
        mem_parts_inList ha hs).bind fun found _ => trivial
  | inQuery e q negated, _ | scalarQuery q, _ | star, _ => by
    simp only [evalIn]
    exact .of_safe rfl
  | call name args distinct, h => by
    simp only [evalIn]
    split
    · split
      · trivial
      · exact .of_safe rfl
    · refine (evalList_avoids args fun a ha => h.mono fun s hs => ?_).bind fun vs _ =>
        .of_safe (callFunction_benign name vs)
      exact List.mem_cons_of_mem _ (mem_partsList.mpr ⟨a, ha, hs⟩)
  | paren e, h => by
    simp only [evalIn]
    exact evalIn_avoids e (h.mono fun s hs => by simp [parts, hs])
  | array items, h => by
    simp only [evalIn]
    refine (evalList_avoids items fun a ha => h.mono fun s hs => ?_).bind fun vs _ => trivial
    exact List.mem_cons_of_mem _ (mem_partsList.mpr ⟨a, ha, hs⟩)
  | element e key, h => by
    simp only [evalIn]
    exact (evalIn_avoids e (h.mono fun s hs => by simp [parts, hs])).bind fun v _ =>
      (evalIn_avoids key (h.mono fun s hs => by simp [parts, hs])).bind fun k _ =>
        .of_safe (elementOf_benign v k)

/-- The evaluation of several expressions. -/
theorem evalList_avoids [QueryError.Grave bad] : (es : List Expr) →
    (∀ e ∈ es, e.AvoidsParams bad env.params) →
    Avoids bad (fun _ => True) (evalList env es)
  | [], _ => by
    simp only [evalList]
    trivial
  | e :: es, h => by
    simp only [evalList]
    exact (evalIn_avoids e (h e (by simp))).bind fun v _ =>
      (evalList_avoids es fun a ha => h a (by simp [ha])).bind fun vs _ => trivial

/-- The search for a value among those of several expressions. -/
theorem evalMember_avoids [QueryError.Grave bad] (v : Value) : (es : List Expr) →
    (∀ e ∈ es, e.AvoidsParams bad env.params) →
    Avoids bad (fun _ => True) (evalMember env v es)
  | [], _ => by
    simp only [evalMember]
    trivial
  | e :: es, h => by
    simp only [evalMember]
    refine (evalIn_avoids e (h e (by simp))).bind fun w _ => ?_
    split
    · trivial
    · exact evalMember_avoids v es fun a ha => h a (by simp [ha])

end

/-- The evaluation of an expression on a row. -/
lemma AvoidsParams.eval [QueryError.Grave bad] {params : List Value} {e : Expr}
    (h : e.AvoidsParams bad params)
    (row : Row) : Avoids bad (fun _ => True) (e.eval params row) := evalIn_avoids e h

/-- The test of a row. -/
lemma AvoidsParams.holdsOn [QueryError.Grave bad] {params : List Value} {e : Expr}
    (h : e.AvoidsParams bad params)
    (row : Row) : Avoids bad (fun _ => True) (e.holdsOn params row) :=
  (h.eval row).bind fun _ _ => trivial

end Expr

end RecordQuery
