import RecordQuery.Expr.Function
import RecordQuery.Expr.Reference
import RecordQuery.Expr.Render
import RecordQuery.Row
import RecordQuery.Value.Order

set_option autoImplicit false

/-!
# Evaluation of expressions

The value of an expression on one row. Logic has three values: null is neither true nor false, and
a conjunction is false, a disjunction true, as soon as its left side decides it. Integers are
exact or fail; an operation on an integer and a float is one on floats.

## Main definitions

* `Row.lookup?` — the value a column reference finds in a row.
* `arithmetic` — the arithmetic operators.
* `compareValues` — the comparisons.
* `EvalEnv`, `Expr.evalIn` — the value of an expression, given those of all it refers to.
* `Expr.eval` — the value of an expression on a row, given the parameters.
-/

namespace RecordQuery

/-- The value a column reference finds in a row. A qualified name is looked up with its qualifier,
then without; a bare name also finds the first label that ends with a point and the name. -/
def Row.lookup? (r : Row) (c : ColumnRef) : Option Value :=
  match c.table with
  | some t => (r.get? (t ++ "." ++ c.name)).or (r.get? c.name)
  | none =>
    (r.get? c.name).or
      ((r.entries.find? (fun e => Text.endsWith ("." ++ c.name) e.1)).map Prod.snd)

/-- An integer, unless it is outside the 64-bit integers. -/
def checkedInt (i : Int) : Except QueryError Value :=
  if Int64.minValue.toInt ≤ i ∧ i ≤ Int64.maxValue.toInt then .ok (.integer (Int64.ofInt i))
  else .error .overflow

/-- An arithmetic operator on integers. Division truncates toward zero. The remainder by minus one
of the least integer fails as its quotient does. -/
def intArithmetic (op : Arithmetic) (a b : Int) : Except QueryError Value :=
  match op with
  | .add => checkedInt (a + b)
  | .sub => checkedInt (a - b)
  | .mul => checkedInt (a * b)
  | .div => if b = 0 then .error .divisionByZero else checkedInt (a.tdiv b)
  | .rem =>
    if b = 0 then .error .divisionByZero
    else if a = Int64.minValue.toInt ∧ b = -1 then .error .overflow
    else checkedInt (a.tmod b)

/-- An arithmetic operator on floats. A division by either zero fails. -/
def floatArithmetic (op : Arithmetic) (x y : Binary64) : Except QueryError Value :=
  match op with
  | .add => .ok (.float (x.add y))
  | .sub => .ok (.float (x.sub y))
  | .mul => .ok (.float (x.mul y))
  | .div => if y.isZero then .error .divisionByZero else .ok (.float (x.div y))
  | .rem => if y.isZero then .error .divisionByZero else .ok (.float (x.rem y))

/-- An arithmetic operator on two values. The sum of two texts is their concatenation. -/
def arithmetic (op : Arithmetic) (v w : Value) : Except QueryError Value :=
  match v, w with
  | .integer a, .integer b => intArithmetic op a.toInt b.toInt
  | .integer a, .float y => floatArithmetic op (Binary64.ofInt64 a) y
  | .float x, .integer b => floatArithmetic op x (Binary64.ofInt64 b)
  | .float x, .float y => floatArithmetic op x y
  | .text s, .text t =>
    match op with
    | .add => .ok (.text (s ++ t))
    | _ => .error (.operatorOn op.symbol .text .text)
  | v, w => .error (.operatorOn op.symbol v.kind w.kind)

/-- The order of two values, for sorting and comparing; a failure if they have none. -/
def Value.order (v w : Value) : Except QueryError Ordering :=
  match v.compare? w with
  | some o => .ok o
  | none => .error (.incomparable v.kind w.kind)

/-- A comparison of two values that are not null. A truth value is compared with an integer as
`0` or `1`. -/
def compareValues (c : Comparison) (v w : Value) : Except QueryError Value := do
  let o ← match v, w with
    | .boolean b, .integer i => (Value.integer (boolInt b)).order (.integer i)
    | .integer i, .boolean b => (Value.integer i).order (.integer (boolInt b))
    | v, w => v.order w
  return .boolean (c.admits o)

/-- The negative of a number; the negative of null is null. -/
def negate : Value → Except QueryError Value
  | .null => .ok .null
  | .integer i => checkedInt (-i.toInt)
  | .float x => .ok (.float x.neg)
  | v => .error (.negationOf v.kind)

/-- An element of a list, counted from zero; null outside the list and for a null list. -/
def elementOf (container key : Value) : Except QueryError Value :=
  match container, key with
  | .list vs, .integer i =>
    .ok (if 0 ≤ i.toInt then (vs[i.toInt.toNat]?).getD .null else .null)
  | .null, _ => .ok .null
  | c, k => .error (.indexingOf c.kind k.kind)

/-- A parameter, numbered from one. -/
def param? (params : List Value) (index : Nat) : Except QueryError Value :=
  match index with
  | 0 => .error (.parameterUnbound 0)
  | i + 1 =>
    match params[i]? with
    | some v => .ok v
    | none => .error (.parameterUnbound (i + 1))

/-- Whether a value lies in a range, null if one of the three is. -/
def between (negated : Bool) (v low high : Value) : Except QueryError Value :=
  if v.isNull || low.isNull || high.isNull then .ok .null
  else do
    let fromLow ← v.order low
    let inside ← if fromLow == .lt then pure false else do
      let fromHigh ← v.order high
      pure (fromHigh != .gt)
    return .boolean (inside != negated)

/-- What an expression is evaluated in: the values of all that it can refer to. -/
structure EvalEnv where
  /-- The values of the parameters. -/
  params : List Value
  /-- The value of a column. -/
  column : ColumnRef → Value
  /-- The value of an aggregate, by the text of its call. -/
  aggregate : String → Option Value

/-- The environment of a row. A column that the row does not have is null. -/
def Row.evalEnv (row : Row) (params : List Value) : EvalEnv :=
  ⟨params, fun c => (row.lookup? c).getD .null, row.get?⟩

namespace Expr

mutual

/-- The value of an expression in an environment. -/
def evalIn (env : EvalEnv) : Expr → Except QueryError Value
  | literal l => .ok l.value
  | column c => .ok (env.column c)
  | param index => param? env.params index
  | binary .and l r => do
    let v ← evalIn env l
    if !v.isNull && !v.isTruthy then return .boolean false
    let w ← evalIn env r
    if !w.isNull && !w.isTruthy then return .boolean false
    if v.isNull || w.isNull then return .null
    return .boolean true
  | binary .or l r => do
    let v ← evalIn env l
    if v.isTruthy then return .boolean true
    let w ← evalIn env r
    if w.isTruthy then return .boolean true
    if v.isNull || w.isNull then return .null
    return .boolean false
  | binary (.compare c) l r => do
    let v ← evalIn env l
    let w ← evalIn env r
    if v.isNull || w.isNull then return .null
    compareValues c v w
  | binary (.arith a) l r => do
    let v ← evalIn env l
    let w ← evalIn env r
    if v.isNull || w.isNull then return .null
    arithmetic a v w
  | negative e => do negate (← evalIn env e)
  | not e => do
    let v ← evalIn env e
    if v.isNull then return .null
    return .boolean (!v.isTruthy)
  | isNull e negated => do
    let v ← evalIn env e
    return .boolean (v.isNull != negated)
  | between e low high negated => do
    let v ← evalIn env e
    let l ← evalIn env low
    let h ← evalIn env high
    RecordQuery.between negated v l h
  | inList e items negated => do
    let v ← evalIn env e
    if v.isNull then return .null
    let found ← evalMember env v items
    return .boolean (found != negated)
  | inQuery .. => .error .subqueryInRow
  | scalarQuery _ => .error .subqueryInRow
  | call name args distinct =>
    if isAggregateName name then
      let text := (call name args distinct).render
      match env.aggregate text with
      | some v => .ok v
      | none => .error (.aggregateMissing text)
    else do callFunction name (← evalList env args)
  | star => .error .starOutsideCount
  | paren e => evalIn env e
  | array items => do return .list (← evalList env items)
  | element e key => do
    let v ← evalIn env e
    let k ← evalIn env key
    elementOf v k

/-- The values of several expressions in an environment. -/
def evalList (env : EvalEnv) : List Expr → Except QueryError (List Value)
  | [] => .ok []
  | e :: es => do
    let v ← evalIn env e
    let vs ← evalList env es
    return v :: vs

/-- Whether a value is that of one of several expressions. The search ends with the first hit. -/
def evalMember (env : EvalEnv) (v : Value) :
    List Expr → Except QueryError Bool
  | [] => .ok false
  | e :: es => do
    let w ← evalIn env e
    if w.equal v then return true
    evalMember env v es

end

/-- The value of an expression on a row. -/
def eval (params : List Value) (row : Row) (e : Expr) : Except QueryError Value :=
  e.evalIn (row.evalEnv params)

/-- Whether an expression makes a row pass a filter. -/
def holdsOn (params : List Value) (row : Row) (e : Expr) : Except QueryError Bool := do
  return (← e.eval params row).isTruthy

end Expr

end RecordQuery
