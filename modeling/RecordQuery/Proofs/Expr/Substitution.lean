import RecordQuery.Proofs.Expr.Eval

set_option autoImplicit false

/-!
# Constants for parameters

An expression in which constants stand for the parameters has the value that it had when the
parameters had the values of the constants. Where a parameter stands below a minus sign or in a
call, the constant would make one constant of both; such expressions, and those with queries inside,
are set apart.

## Main definitions

* `Expr.substitute` — an expression with constants for its parameters.
* `Expr.hidesParam` — expressions that hide a parameter from the compiler.
* `Literal.truncated` — a constant with floats cut off to integers.

## Main results

* `Expr.evalIn_substitute` — constants have the values of the parameters they stand for.
-/

namespace RecordQuery

/-- A constant with floats cut off to integers, as keys are. -/
def Literal.truncated : Literal → Literal
  | float x => integer x.toInt64
  | l => l

namespace Expr

/-- What stands for a parameter: the constant in its place, or the parameter if there is none. -/
def ofParam (ls : List Literal) : Nat → Expr
  | 0 => param 0
  | i + 1 =>
    match ls[i]? with
    | some l => literal l
    | none => param (i + 1)

mutual

/-- An expression with constants for its parameters. Queries are not entered. -/
def substitute (ls : List Literal) : Expr → Expr
  | literal l => literal l
  | column c => column c
  | param index => ofParam ls index
  | binary op l r => binary op (substitute ls l) (substitute ls r)
  | negative e => negative (substitute ls e)
  | not e => not (substitute ls e)
  | isNull e negated => isNull (substitute ls e) negated
  | between e low high negated =>
    between (substitute ls e) (substitute ls low) (substitute ls high) negated
  | inList e items negated => inList (substitute ls e) (substituteList ls items) negated
  | inQuery e q negated => inQuery (substitute ls e) q negated
  | scalarQuery q => scalarQuery q
  | call name args distinct => call name (substituteList ls args) distinct
  | star => star
  | paren e => paren (substitute ls e)
  | array items => array (substituteList ls items)
  | element e key => element (substitute ls e) (substitute ls key)

/-- Several expressions with constants for their parameters. -/
def substituteList (ls : List Literal) : List Expr → List Expr
  | [] => []
  | e :: es => substitute ls e :: substituteList ls es

end

/-- Whether an expression hides a parameter from the compiler: below a minus sign or in a call.
Queries count as hiding theirs, and parameters are numbered from one. -/
def hidesParam : Expr → Bool
  | param index => index == 0
  | negative e => e.unwrap.isParam
  | call _ args _ => maxParamExprs args != 0
  | inQuery .. | scalarQuery _ => true
  | _ => false

/-- Whether a condition shows its parameters to the compiler, as operands of comparisons, in lists
and ranges, and wherever else they are not hidden. It asks no queries. -/
def showsParams (e : Expr) : Bool := !e.any hidesParam

variable {ls : List Literal} {env : EvalEnv}

/-- What shows its parameters hides none in any part. -/
lemma showsParams_iff {e : Expr} : e.showsParams = true ↔ ∀ s ∈ e.parts, s.hidesParam = false := by
  rw [showsParams, Bool.not_eq_true', any_eq_false]

/-! ## What constants leave as it is -/

mutual

/-- Without parameters there is nothing to replace.

**Proof sketch.** By induction on the expression: the highest parameter is zero if and only if it is
zero for every operand. -/
lemma substitute_of_maxParam : (e : Expr) → e.maxParam = 0 → e.substitute ls = e
  | literal _, _ | column _, _ | star, _ | scalarQuery _, _ => rfl
  | param index, h => by
    obtain rfl : index = 0 := h
    rfl
  | binary op l r, h | element l r, h => by
    rw [maxParam, Nat.max_eq_zero_iff] at h
    rw [substitute, substitute_of_maxParam l h.1, substitute_of_maxParam r h.2]
  | negative e, h | not e, h | isNull e _, h | paren e, h => by
    rw [maxParam] at h
    rw [substitute, substitute_of_maxParam e h]
  | between e low high _, h => by
    rw [maxParam, Nat.max_eq_zero_iff, Nat.max_eq_zero_iff] at h
    rw [substitute, substitute_of_maxParam e h.1, substitute_of_maxParam low h.2.1,
      substitute_of_maxParam high h.2.2]
  | inList e items _, h => by
    rw [maxParam, Nat.max_eq_zero_iff] at h
    rw [substitute, substitute_of_maxParam e h.1, substituteList_of_maxParam items h.2]
  | inQuery e q _, h => by
    rw [maxParam, Nat.max_eq_zero_iff] at h
    rw [substitute, substitute_of_maxParam e h.1]
  | call _ args _, h | array args, h => by
    rw [maxParam] at h
    rw [substitute, substituteList_of_maxParam args h]

/-- Without parameters there is nothing to replace in several expressions. -/
lemma substituteList_of_maxParam : (es : List Expr) → maxParamExprs es = 0 →
    substituteList ls es = es
  | [], _ => rfl
  | e :: es, h => by
    rw [maxParamExprs, Nat.max_eq_zero_iff] at h
    rw [substituteList, substitute_of_maxParam e h.1, substituteList_of_maxParam es h.2]

end

/-- A constant or a parameter asks no query. -/
lemma hasQuery_ofParam (index : Nat) : (ofParam ls index).hasQuery = false := by
  cases index with
  | zero => rfl
  | succ i =>
    rw [ofParam]
    split <;> rfl

mutual

/-- No query comes in with constants. -/
lemma any_isQuery_substitute : (e : Expr) → (e.substitute ls).any isQuery = e.any isQuery
  | literal _ | column _ | star | scalarQuery _ => rfl
  | param index => hasQuery_ofParam index
  | binary _ l r | element l r => by
    simp only [substitute, any, isQuery, any_isQuery_substitute l, any_isQuery_substitute r]
  | negative e | not e | isNull e _ | paren e | inQuery e _ _ => by
    simp only [substitute, any, isQuery, any_isQuery_substitute e]
  | between e low high _ => by
    simp only [substitute, any, isQuery, any_isQuery_substitute e, any_isQuery_substitute low,
      any_isQuery_substitute high]
  | inList e items _ => by
    simp only [substitute, any, isQuery, any_isQuery_substitute e, anyList_isQuery_substitute items]
  | call _ args _ | array args => by
    simp only [substitute, any, isQuery, anyList_isQuery_substitute args]

/-- No query comes in with constants in several expressions. -/
lemma anyList_isQuery_substitute : (es : List Expr) →
    anyList isQuery (substituteList ls es) = anyList isQuery es
  | [] => rfl
  | e :: es => by
    simp only [substituteList, anyList, any_isQuery_substitute e, anyList_isQuery_substitute es]

end

/-- An expression with constants asks a query if it did. -/
@[simp]
lemma hasQuery_substitute (e : Expr) : (e.substitute ls).hasQuery = e.hasQuery :=
  any_isQuery_substitute e

/-- What shows its parameters asks no query. -/
lemma hasQuery_of_showsParams {e : Expr} (h : e.showsParams = true) : e.hasQuery = false := by
  rw [Expr.hasQuery, any_eq_false]
  intro s hs
  have hshown := showsParams_iff.mp h s hs
  cases s <;> first | rfl | cases hshown

/-- A constant or a parameter stands in no parentheses. -/
lemma unwrap_ofParam (index : Nat) : (ofParam ls index).unwrap = ofParam ls index := by
  cases index with
  | zero => rfl
  | succ i =>
    rw [ofParam]
    split <;> rfl

/-- Parentheses stay where they are. -/
lemma unwrap_substitute : (e : Expr) → (e.substitute ls).unwrap = e.unwrap.substitute ls
  | paren e => by
    rw [substitute, unwrap, unwrap]
    exact unwrap_substitute e
  | param index => unwrap_ofParam index
  | literal _ | column _ | scalarQuery _ | star | binary _ _ _ | negative _ | not _ | isNull _ _
  | inQuery _ _ _ | between _ _ _ _ | inList _ _ _ | call _ _ _ | array _ | element _ _ => rfl

/-! ## Values -/

/-- A constant has the value of the parameter that it stands for. -/
lemma evalIn_ofParam (henv : env.params = ls.map Literal.value) (index : Nat) :
    (ofParam ls index).evalIn env = param? env.params index := by
  cases index with
  | zero => simp only [ofParam, evalIn]
  | succ i =>
    rw [ofParam, henv]
    cases hl : ls[i]? with
    | none =>
      simp only [evalIn]
      rw [henv]
    | some l => simp only [evalIn, param?, List.getElem?_map, hl, Option.map_some]

mutual

/-- **Constants have the values of the parameters they stand for.**

**Proof sketch.** By induction on the expression. A parameter and its constant have the same value,
operators evaluate operands of equal values, and calls have no parameters to replace. -/
theorem evalIn_substitute (henv : env.params = ls.map Literal.value) : (e : Expr) →
    (∀ s ∈ e.parts, s.hidesParam = false) → (e.substitute ls).evalIn env = e.evalIn env
  | literal _, _ | column _, _ | star, _ | scalarQuery _, _ => rfl
  | inQuery _ _ _, _ => by simp only [substitute, evalIn]
  | param index, _ => by
    rw [substitute, evalIn_ofParam henv, evalIn]
  | binary op l r, h => by
    have hl := evalIn_substitute henv l fun s hs => h s (by simp [parts, hs])
    have hr := evalIn_substitute henv r fun s hs => h s (by simp [parts, hs])
    cases op <;> simp only [substitute, evalIn, hl, hr]
  | negative e, h | not e, h | isNull e _, h | paren e, h => by
    have he := evalIn_substitute henv e fun s hs => h s (by simp [parts, hs])
    simp only [substitute, evalIn, he]
  | between e low high _, h => by
    have he := evalIn_substitute henv e fun s hs => h s (by simp [parts, hs])
    have hlow := evalIn_substitute henv low fun s hs => h s (by simp [parts, hs])
    have hhigh := evalIn_substitute henv high fun s hs => h s (by simp [parts, hs])
    simp only [substitute, evalIn, he, hlow, hhigh]
  | inList e items _, h => by
    have he := evalIn_substitute henv e fun s hs => h s (by simp [parts, hs])
    have hitems := fun v => evalMember_substitute henv v items fun s hs => h s (by simp [parts, hs])
    simp only [substitute, evalIn, he, hitems]
  | call name args distinct, h => by
    have hargs : maxParamExprs args = 0 := by
      simpa [hidesParam] using h (call name args distinct) (self_mem_parts _)
    rw [substitute, substituteList_of_maxParam args hargs]
  | array items, h => by
    have hitems := evalList_substitute henv items fun s hs => h s (by simp [parts, hs])
    simp only [substitute, evalIn, hitems]
  | element e key, h => by
    have he := evalIn_substitute henv e fun s hs => h s (by simp [parts, hs])
    have hkey := evalIn_substitute henv key fun s hs => h s (by simp [parts, hs])
    simp only [substitute, evalIn, he, hkey]

/-- The values of several expressions. -/
theorem evalList_substitute (henv : env.params = ls.map Literal.value) : (es : List Expr) →
    (∀ s ∈ partsList es, s.hidesParam = false) →
      evalList env (substituteList ls es) = evalList env es
  | [], _ => rfl
  | e :: es, h => by
    have he := evalIn_substitute henv e fun s hs => h s (by simp [partsList, hs])
    have hes := evalList_substitute henv es fun s hs => h s (by simp [partsList, hs])
    simp only [substituteList, evalList, he, hes]

/-- Whether a value is that of one of several expressions. -/
theorem evalMember_substitute (henv : env.params = ls.map Literal.value) (v : Value) :
    (es : List Expr) → (∀ s ∈ partsList es, s.hidesParam = false) →
      evalMember env v (substituteList ls es) = evalMember env v es
  | [], _ => rfl
  | e :: es, h => by
    have he := evalIn_substitute henv e fun s hs => h s (by simp [partsList, hs])
    have hes := evalMember_substitute henv v es fun s hs => h s (by simp [partsList, hs])
    simp only [substituteList, evalMember, he, hes]

end

/-- **A condition with constants is true on the same rows.** -/
theorem holdsOn_substitute {e : Expr} (h : e.showsParams = true) (row : Row) :
    (e.substitute ls).holdsOn (ls.map Literal.value) row =
      e.holdsOn (ls.map Literal.value) row := by
  have henv : (row.evalEnv (ls.map Literal.value)).params = ls.map Literal.value := rfl
  rw [holdsOn, holdsOn, eval, eval, evalIn_substitute henv e (showsParams_iff.mp h)]

end Expr

end RecordQuery
