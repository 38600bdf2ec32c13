import RecordQuery.Compile.Scope
import RecordQuery.Expr.Eval

set_option autoImplicit false

/-!
# Conditions of a selection

The condition of a selection is a conjunction. Every conjunct goes to the last of the tables that
it refers to. The store decides a conjunct if it can; if it cannot decide all that goes to the main
table, the whole condition on that table is decided row by row. The conjuncts of a joined table
have to be decided by the store.

## Main definitions

* `Expr.conjuncts` — the conjuncts of a condition.
* `Side`, `side` — what stands on one side of a comparison.
* `NativeCondition`, `compileConjunct` — what the store can decide.
* `compileWhere` — the plan with a condition.
-/

namespace RecordQuery

/-- The conjuncts of a condition, left to right. -/
def Expr.conjuncts : Expr → List Expr
  | .binary .and l r => l.conjuncts ++ r.conjuncts
  | .paren e => e.conjuncts
  | e => [e]

/-- A condition that the store can decide. -/
inductive NativeCondition where
  /-- A condition on the bins. -/
  | bins (c : Condition)
  /-- A condition on the key. -/
  | key (c : KeyCondition)

/-- One side of a comparison, seen from the table that is compared. -/
inductive Side where
  /-- A bin of the table. -/
  | bin (name : String)
  /-- The key of the table. -/
  | key
  /-- A value of another table, by its place in the rows. -/
  | outer (source : String)
  /-- A value that the store can compare with. -/
  | value (o : Operand)
  /-- A float, with which the store does not compare. -/
  | float
  /-- The value of a sub-query. -/
  | query (q : Query)
  /-- Anything else. -/
  | other

namespace Side

/-- A constant as a side of a comparison. -/
def ofLiteral : Literal → Side
  | .integer i => value (.integer i)
  | .text s => value (.text s)
  | .boolean b => value (.integer (boolInt b))
  | .null => value .null
  | .float _ => float

/-- A computed constant as a side of a comparison. -/
def ofValue : Value → Side
  | .integer i => value (.integer i)
  | .boolean b => value (.integer (boolInt b))
  | .text s => value (.text s)
  | .null => value .null
  | .float _ => float
  | .blob _ => other
  | .list _ => other

/-- The negative of a constant as a side of a comparison. -/
def ofNegative : Expr → Except QueryError Side
  | .literal (.integer i) =>
    if i = Int64.minValue then .error .overflow else .ok (value (.integer (-i)))
  | .literal (.float _) => .ok float
  | _ => .ok other

end Side

/-- Whether an expression has the same value on all rows and for all parameters. -/
def Expr.isConstant (e : Expr) : Bool :=
  e.columns.isEmpty && e.maxParam == 0 && !e.hasQuery && !e.hasAggregate

/-- What an expression is on one side of a comparison, seen from a table. Calls on constants are
evaluated at once. -/
def side (scope : Scope) (target : Nat) (e : Expr) : Except QueryError Side :=
  match e.unwrap with
  | .column c => do
    let table ← scope.resolve c
    if table ≠ target then return .outer (scope.rowKey table c.name)
    else if c.name = keyColumn then return .key
    else if c.name = digestColumn then return .other
    else return .bin c.name
  | .literal l => .ok (.ofLiteral l)
  | .param index => .ok (.value (.param index))
  | .negative a => Side.ofNegative a.unwrap
  | .scalarQuery q => .ok (.query q)
  | .call name args distinct =>
    let call := Expr.call name args distinct
    if !isAggregateName name && call.isConstant then do
      return .ofValue (← call.eval [] OrderedMap.empty)
    else .ok .other
  | _ => .ok .other

/-- A bound of a range: an integer or a parameter. Other constants cannot bound a range; what is no
constant the store cannot decide. -/
def rangeBound (scope : Scope) (target : Nat) (e : Expr) : Except QueryError (Option Operand) := do
  match ← side scope target e with
  | .value (.integer i) => return some (.integer i)
  | .value (.param index) => return some (.param index)
  | .value _ => throw (.betweenBound e.render)
  | .float => throw (.betweenBound e.render)
  | _ => return none

/-- The operands of a list, if the store can compare with all of them. -/
def listOperands (scope : Scope) (target : Nat) :
    List Expr → Except QueryError (Option (List Operand))
  | [] => return some []
  | e :: es => do
    match ← side scope target e with
    | .value o => return (← listOperands scope target es).map (o :: ·)
    | _ => return none

/-- The key that an operand names. -/
def Operand.keyOperand? : Operand → Option KeyOperand
  | .integer i => some (.key (.integer i))
  | .text s => some (.key (.text s))
  | .param index => some (.param index)
  | _ => none

/-- The keys that operands name, nulls left out. -/
def keyOperands? : List Operand → Option (List KeyOperand)
  | [] => some []
  | .null :: os => keyOperands? os
  | o :: os => do
    let k ← o.keyOperand?
    let ks ← keyOperands? os
    return k :: ks

/-- Compilation that collects sub-queries. -/
abbrev SlotM := StateT (List SubquerySlot) (Except QueryError)

/-- Compiles a sub-query and gives it the next slot. -/
def newSlot (compileSub : Query → Except QueryError QueryNode) (q : Query)
    (context : SubqueryContext) : SlotM Nat := do
  let node ← liftM (compileSub q)
  let slots ← get
  set (slots ++ [⟨node, context⟩])
  return slots.length

/-- The comparison of the key with a side. The store decides equality and its negation. -/
def keyComparison (compileSub : Query → Except QueryError QueryNode) (c : Comparison) (s : Side) :
    SlotM (Option NativeCondition) := do
  let condition : KeyOperand → NativeCondition := fun k =>
    .key (if c = .eq then .equal k else .notEqual k)
  if c ≠ .eq ∧ c ≠ .ne then return none
  match s with
  | .value .null => return some (.key .none)
  | .value o => return o.keyOperand?.map condition
  | .query q => do
    let slot ← newSlot compileSub q (.scalar c)
    return some (condition (.slot slot))
  | _ => return none

/-- The comparison of two sides. Only a conjunct of its own can be a comparison of the key. -/
def nativeComparison (compileSub : Query → Except QueryError QueryNode) (topLevel : Bool)
    (left : Side) (c : Comparison) (right : Side) : SlotM (Option NativeCondition) := do
  let condition : String → Comparison → Operand → Option NativeCondition := fun bin c o =>
    some (.bins (.ofOperand bin c o))
  match left, right with
  | .bin b, .value o => return condition b c o
  | .value o, .bin b => return condition b c.mirrored o
  | .bin b, .outer source => return condition b c (.outer source)
  | .outer source, .bin b => return condition b c.mirrored (.outer source)
  | .bin b, .query q => do
    let slot ← newSlot compileSub q (.scalar c)
    return condition b c (.slot slot)
  | .query q, .bin b => do
    let slot ← newSlot compileSub q (.scalar c)
    return condition b c.mirrored (.slot slot)
  | .key, s => if topLevel then keyComparison compileSub c s else return none
  | s, .key => if topLevel then keyComparison compileSub c.mirrored s else return none
  | _, _ => return none

/-- A range condition. -/
def nativeRange (topLevel : Bool) (subject : Side) (low high : Operand) : Option NativeCondition :=
  match subject with
  | .bin b => some (.bins (.all [.compare b .integer .ge low, .compare b .integer .le high]))
  | .key =>
    if topLevel then do
      let l ← low.keyOperand?
      let h ← high.keyOperand?
      return .key (.range l h)
    else none
  | _ => none

/-- A condition that looks for a value among others. -/
def nativeMember (topLevel : Bool) (subject : Side) (os : List Operand) : Option NativeCondition :=
  match subject with
  | .bin b => some (.bins (.any (os.map (Condition.ofOperand b .eq))))
  | .key => if topLevel then (keyOperands? os).map (fun ks => .key (.among ks)) else none
  | _ => none

/-- Puts two conditions on bins together. -/
def joinNative (f : List Condition → Condition) :
    Option NativeCondition → Option NativeCondition → Option NativeCondition
  | some (.bins a), some (.bins b) => some (.bins (f [a, b]))
  | _, _ => none

/-- Compiles a condition on a table for the store; none if the store cannot decide it. -/
def compileConjunct (compileSub : Query → Except QueryError QueryNode) (scope : Scope)
    (target : Nat) (topLevel : Bool) : Expr → SlotM (Option NativeCondition)
  | .paren e => compileConjunct compileSub scope target topLevel e
  | .binary .and l r => do
    let a ← compileConjunct compileSub scope target false l
    let b ← compileConjunct compileSub scope target false r
    return joinNative .all a b
  | .binary .or l r => do
    let a ← compileConjunct compileSub scope target false l
    let b ← compileConjunct compileSub scope target false r
    return joinNative .any a b
  | .binary (.compare c) l r => do
    let left ← liftM (side scope target l)
    let right ← liftM (side scope target r)
    nativeComparison compileSub topLevel left c right
  | .between e low high false => do
    let subject ← liftM (side scope target e)
    let l ← liftM (rangeBound scope target low)
    let h ← liftM (rangeBound scope target high)
    match l, h with
    | some l, some h => return nativeRange topLevel subject l h
    | _, _ => return none
  | .inList e items false => do
    let subject ← liftM (side scope target e)
    match ← liftM (listOperands scope target items) with
    | some os => return nativeMember topLevel subject os
    | none => return none
  | .inQuery e q false => do
    match ← liftM (side scope target e) with
    | .bin b =>
      let slot ← newSlot compileSub q .among
      return some (.bins (.inSlot b .unknown slot))
    | .key =>
      if topLevel then
        let slot ← newSlot compileSub q .among
        return some (.key (.inSlot slot))
      else return none
    | _ => return none
  | _ => return none

/-- Compiles conjuncts on a table for the store, each on its own. -/
def compileConjuncts (compileSub : Query → Except QueryError QueryNode) (scope : Scope)
    (target : Nat) : List Expr → SlotM (List (Option NativeCondition))
  | [] => return []
  | e :: es => do
    let n ← compileConjunct compileSub scope target true e
    let ns ← compileConjuncts compileSub scope target es
    return n :: ns

/-- The plan of a table with one more condition. -/
def TablePlan.addNative (p : TablePlan) : NativeCondition → TablePlan
  | .bins c => p.addCondition c
  | .key c => p.addKeyCondition c

/-- The last of the tables that columns belong to. -/
def lastTable (scope : Scope) : List ColumnRef → Except QueryError Nat
  | [] => return 0
  | c :: cs => do
    let table ← scope.resolve c
    let last ← lastTable scope cs
    return max table last

/-- Conjuncts with the tables that they go to. -/
def routeConjuncts (scope : Scope) : List Expr → Except QueryError (List (Nat × Expr))
  | [] => return []
  | e :: es => do
    let table ← lastTable scope e.columns
    let rest ← routeConjuncts scope es
    return (table, e) :: rest

/-- The conjunction of conditions; none of no condition. -/
def conjoin : List Expr → Option Expr
  | [] => none
  | e :: es => some (es.foldl Expr.andAlso e)

/-- What the store can decide of the conjuncts on the main table, and their sub-queries. Of rows of
a query it decides nothing. -/
def mainConditions (compileSub : Query → Except QueryError QueryNode) (scope : Scope)
    (p : QueryPlan) (conjuncts : List Expr) :
    Except QueryError (List (Option NativeCondition) × List SubquerySlot) :=
  if p.source.isSome then .ok ([none], [])
  else (compileConjuncts compileSub scope 0 conjuncts).run []

/-- The plan with a condition on the main table, given as its conjuncts and as a whole. -/
def compileMain (compileSub : Query → Except QueryError QueryNode) (scope : Scope) (p : QueryPlan)
    (conjuncts : List Expr) (whole : Expr) : Except QueryError QueryPlan := do
  let hasQuery := conjuncts.any Expr.hasQuery
  let (natives, slots) ← mainConditions compileSub scope p conjuncts
  if natives.all Option.isSome then
    let table := (natives.filterMap id).foldl TablePlan.addNative p.toTablePlan
    return { p with
      toTablePlan := table
      subqueries := slots
      whereClause := if hasQuery then p.whereClause else some whole }
  else if hasQuery then throw (.subqueryInRowFilter whole.render)
  else return { p with rowFilter := some whole }

/-- The plan of a joined table with a conjunct that the store has to decide. -/
def compileJoined (compileSub : Query → Except QueryError QueryNode) (scope : Scope)
    (table : Nat) (qualifier : String) (p : TablePlan) (e : Expr) :
    Except QueryError TablePlan := do
  if e.hasQuery then throw (.joinedCondition qualifier e.render)
  match ← (compileConjunct compileSub scope table true e).run' [] with
  | some n => return p.addNative n
  | none => throw (.joinedCondition qualifier e.render)

/-- The plan of a joined table with several conjuncts. -/
def compileJoinedAll (compileSub : Query → Except QueryError QueryNode) (scope : Scope)
    (table : Nat) (qualifier : String) (p : TablePlan) : List Expr → Except QueryError TablePlan
  | [] => return p
  | e :: es => do
    let q ← compileJoined compileSub scope table qualifier p e
    compileJoinedAll compileSub scope table qualifier q es

/-- The joined tables, from a number on, with the conjuncts that go to them. -/
def compileJoins (compileSub : Query → Except QueryError QueryNode) (scope : Scope)
    (routed : List (Nat × Expr)) (table : Nat) : List JoinSpec → Except QueryError (List JoinSpec)
  | [] => return []
  | j :: js => do
    let mine := (routed.filter (fun r => r.1 == table)).map Prod.snd
    let plan ← compileJoinedAll compileSub scope table j.qualifier j.plan mine
    let rest ← compileJoins compileSub scope routed (table + 1) js
    return { j with plan } :: rest

/-- The plan with a condition, each conjunct with the table that it goes to. If all go to the main
table, the condition is kept as it was written. -/
def compileWhere (compileSub : Query → Except QueryError QueryNode) (scope : Scope) (p : QueryPlan)
    (condition : Expr) : Except QueryError QueryPlan := do
  let routed ← routeConjuncts scope condition.conjuncts
  let main := (routed.filter (fun r => r.1 == 0)).map Prod.snd
  let whole := if routed.all (fun r => r.1 == 0) then some condition else conjoin main
  let p ← match whole with
    | some e => compileMain compileSub scope p main e
    | none => pure p
  let joins ← compileJoins compileSub scope routed 1 p.joins
  return { p with joins }

end RecordQuery
