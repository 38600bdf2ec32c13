import RecordQuery.Compile.Grouping
import RecordQuery.Compile.Ordering
import RecordQuery.Compile.Where
import RecordQuery.Plan.Strategy

set_option autoImplicit false

/-!
# Compilation of queries

A query becomes a plan. Queries inside it are compiled before it, so the compilation of a query
goes along how deeply queries are nested in it.

## Main definitions

* `compileJoin`, `compileSource` — the tables of a selection.
* `QueryPlan.withOption`, `finishSelect`, `compileSelect` — the plan of a selection.
* `compileBody` — the plan of selections put together by set operations.
* `Query.compile` — the plan of a query.
-/

namespace RecordQuery

/-- The columns that a join condition equates: the one of the joined table, and the other one with
its table, which stands before. -/
def joinColumns (scope : Scope) (joined : Nat) (condition : Expr) :
    Except QueryError (ColumnRef × ColumnRef × Nat) :=
  match condition.unwrap with
  | .binary (.compare .eq) l r =>
    match l.unwrap, r.unwrap with
    | .column left, .column right => do
      let leftTable ← scope.resolve left
      let rightTable ← scope.resolve right
      if leftTable = joined ∧ rightTable < joined then return (left, right, rightTable)
      else if rightTable = joined ∧ leftTable < joined then return (right, left, leftTable)
      else throw (.joinCondition condition.render)
    | _, _ => .error (.joinCondition condition.render)
  | _ => .error (.joinCondition condition.render)

/-- The plan of a join, and the scope in which the joined table is known. -/
def compileJoin (env : CompileEnv) (scope : Scope) (j : Join) :
    Except QueryError (JoinSpec × Scope) :=
  match j.table with
  | .derived .. => .error .derivedTableJoined
  | .named name rename => do
    let joined := scope.length
    let scope := scope ++ [⟨some name.name, rename⟩]
    let qualifier := (scope.qualifier joined).getD name.name
    match j.condition with
    | none => throw (.joinWithoutCondition qualifier)
    | some condition =>
      let (inner, outer, outerTable) ← joinColumns scope joined condition
      return (⟨j.kind, qualifier, env.tablePlan name rename, scope.rowKey outerTable outer.name,
        inner.name⟩, scope)

/-- The plans of several joins, and the scope in which all joined tables are known. -/
def compileJoinList (env : CompileEnv) (scope : Scope) :
    List Join → Except QueryError (List JoinSpec × Scope)
  | [] => return ([], scope)
  | j :: js => do
    let (spec, scope) ← compileJoin env scope j
    let (specs, scope) ← compileJoinList env scope js
    return (spec :: specs, scope)

/-- The plan that returns nothing of its source yet. -/
def compileSource (env : CompileEnv) (compileSub : Query → Except QueryError QueryNode) :
    TableExpr → Except QueryError QueryPlan
  | .named name rename => return .ofTable (env.tablePlan name rename)
  | .derived q rename => do return .ofSource env.defaultNamespace rename (← compileSub q)

/-- The plan with the condition on its groups. -/
def addHaving (scope : Scope) (groups : List String) (p : QueryPlan) (e : Expr) :
    Except QueryError QueryPlan := do
  if e.hasQuery then throw .subqueryInHaving
  let p ← registerGrouped scope groups p e
  return { p with having := some e }

/-- The plan with the reduction of its rows. -/
def addReduction (grouping : Option (List String)) (distinct : Bool) (p : QueryPlan) :
    Except QueryError QueryPlan :=
  match grouping with
  | some groups => .ok { p with reduction := some (p.aggregation groups) }
  | none =>
    if distinct then do
      let r ← p.distinctReduction
      return { p with distinct := true, reduction := some r }
    else .ok p

/-- Joined tables with strategies for their conditions. -/
def chooseJoinStrategies : List JoinSpec → Except QueryError (List JoinSpec)
  | [] => return []
  | j :: js => do
    let plan ← j.plan.chooseStrategy
    let rest ← chooseJoinStrategies js
    return { j with plan } :: rest

/-- The plan with one more step, for something that may be missing. -/
def QueryPlan.withOption {α : Type} (p : QueryPlan)
    (step : QueryPlan → α → Except QueryError QueryPlan) : Option α → Except QueryError QueryPlan
  | none => .ok p
  | some a => step p a

/-- The plan with limits and with strategies. A set that is reduced inside the store has no rows to
decide on. -/
def finishSelect (limit offset : Option Expr) (p : QueryPlan) : Except QueryError QueryPlan := do
  if p.reduction.isSome && p.source.isNone && p.rowFilter.isSome then throw .rowFilterBeforeReducer
  let offset ← optionalRowBound offset
  let limit ← optionalRowBound limit
  let joins ← chooseJoinStrategies p.joins
  { p with joins, offset, limit }.chooseStrategy

/-- The plan of a selection in an order and with limits. -/
def compileSelect (env : CompileEnv) (compileSub : Query → Except QueryError QueryNode)
    (s : Select) (orderBy : List OrderItem) (limit offset : Option Expr) :
    Except QueryError QueryPlan := do
  let p ← compileSource env compileSub s.source
  let (joins, scope) ← compileJoinList env [⟨p.set, p.rename⟩] s.joins
  let grouped := s.isGrouped orderBy
  if grouped && !joins.isEmpty then throw .aggregateOverJoin
  let groups ← groupColumns scope [] s.groupBy
  if s.having.isSome && !s.hasGroups then throw .havingWithoutGroup
  let grouping := if grouped then some groups else none
  let p ← addItems scope grouping { p with joins } s.items
  let p ← p.withOption (compileWhere compileSub scope) s.condition
  let p ← p.withOption (addHaving scope groups) s.having
  let (orderBy, p) ← planOrder scope grouping p orderBy
  let p ← addReduction grouping s.distinct { p with orderBy }
  finishSelect limit offset p

/-- The number of columns of a query that names them. -/
def QueryNode.width? (n : QueryNode) : Option Nat :=
  if n.firstPlan.wildcard then none else some n.labels.length

/-- Queries can be put to the rows of another one if they return as many columns, as far as the
columns are named. -/
def checkWidths (head : QueryNode) : List ChainLink → Except QueryError Unit
  | [] => return ()
  | l :: ls =>
    match head.width?, l.node.width? with
    | some left, some right =>
      if left = right then checkWidths head ls else .error (.setOperationWidths left right)
    | _, _ => checkWidths head ls

/-- The chain of a first query, the queries along its left side and a last one. -/
def makeChain (parts : QueryNode × List ChainLink) (op : SetOperator) (last : QueryNode) :
    Except QueryError ChainPlan := do
  let links := parts.2 ++ [⟨last, op⟩]
  checkWidths parts.1 links
  return ⟨parts.1, links, [], none, none⟩

mutual

/-- The plan of a body without order and limits. -/
def compileBody (env : CompileEnv) (compileSub : Query → Except QueryError QueryNode) :
    QueryBody → Except QueryError QueryNode
  | .select s => do return .plan (← compileSelect env compileSub s [] none none)
  | .combine op l r => do
    let parts ← compileParts env compileSub l
    let last ← compileBody env compileSub r
    return .chain (← makeChain parts op last)

/-- The first selection of a body, and what the set operations along its left side put to it. -/
def compileParts (env : CompileEnv) (compileSub : Query → Except QueryError QueryNode) :
    QueryBody → Except QueryError (QueryNode × List ChainLink)
  | .select s => do return (.plan (← compileSelect env compileSub s [] none none), [])
  | .combine op l r => do
    let (head, links) ← compileParts env compileSub l
    let node ← compileBody env compileSub r
    return (head, links ++ [⟨node, op⟩])

end

/-- The plan of a query, given that of the queries inside it. -/
def compileWith (env : CompileEnv) (compileSub : Query → Except QueryError QueryNode) (q : Query) :
    Except QueryError QueryNode :=
  match q.body with
  | .select s => do return .plan (← compileSelect env compileSub s q.orderBy q.limit q.offset)
  | .combine op l r => do
    let parts ← compileParts env compileSub l
    let last ← compileBody env compileSub r
    let c ← makeChain parts op last
    let orderBy ← chainOrder c.head.labels q.orderBy
    let offset ← optionalRowBound q.offset
    let limit ← optionalRowBound q.limit
    return .chain { c with orderBy, offset, limit }

/-- The plan of a query in which queries are nested less deeply than a bound. -/
def compileBelow (env : CompileEnv) : Nat → Query → Except QueryError QueryNode
  | 0, _ => .error .nestingTooDeep
  | bound + 1, q => compileWith env (compileBelow env bound) q

/-- The plan of a query. -/
def Query.compile (env : CompileEnv) (q : Query) : Except QueryError QueryNode :=
  compileBelow env (q.depth + 1) q

end RecordQuery
