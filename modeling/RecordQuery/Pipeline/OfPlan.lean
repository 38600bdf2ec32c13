import RecordQuery.Pipeline.Basic
import RecordQuery.Plan.Subquery

set_option autoImplicit false

/-!
# Pipelines of plans

How a bound plan is carried out: first its sub-queries run and their values are put into the
conditions, then the stages are put together.

## Main definitions

* `QueryPlan.earlyColumns`, `QueryPlan.lateColumns` — the values computed before and after joins.
* `Pipeline.paged` — rows in order and within limits.
* `QueryNode.pipeline` — the pipeline of a plan.
* `QueryNode.prepare` — a plan whose sub-queries have run.
-/

namespace RecordQuery

namespace QueryPlan

/-- The computed columns of a plan and their expressions. -/
def computedColumns (p : QueryPlan) : List (Column × Expr) :=
  p.columns.filterMap (fun c =>
    match c.value with
    | .computed e => if c.hidden then none else some (c, e)
    | _ => none)

/-- Whether an expression refers to a joined table. -/
def refersToJoin (p : QueryPlan) (e : Expr) : Bool :=
  e.columns.any (fun c =>
    match c.table with
    | some t => p.joins.any (fun j => j.qualifier == t)
    | none => false)

/-- The computed columns of the main table. -/
def earlyColumns (p : QueryPlan) : List (Column × Expr) :=
  p.computedColumns.filter (fun c => !p.refersToJoin c.2)

/-- The computed columns that need a joined table. -/
def lateColumns (p : QueryPlan) : List (Column × Expr) :=
  p.computedColumns.filter (fun c => p.refersToJoin c.2)

end QueryPlan

/-- A limit or an offset that is known. -/
def RowBound.value : RowBound → Except QueryError UInt64
  | .rows n => .ok n
  | .param index => .error (.parameterUnbound index)

namespace Pipeline

/-- The number of rows of a sort that can still be returned. -/
def topRows (offset limit : Option UInt64) : Option Nat :=
  limit.map (fun l => min ((offset.getD 0).toNat + l.toNat) (UInt64.size - 1))

/-- Rows in order and within limits. -/
def paged (input : Pipeline) (order : List OrderSpec) (offset limit : Option UInt64) : Pipeline :=
  let sorted := if order.isEmpty then input else input.sort order (topRows offset limit)
  if offset.isNone && limit.isNone then sorted
  else sorted.window (offset.getD 0).toNat (limit.map UInt64.toNat)

/-- Rows on which an optional condition is true. -/
def filtered (input : Pipeline) (condition : Option Expr) : Pipeline :=
  match condition with
  | some e => input.filter e
  | none => input

/-- Rows with computed values and, on request, their labels. -/
def computed (input : Pipeline) (columns : List (Column × Expr)) (withLabels : Bool) : Pipeline :=
  if columns.isEmpty then input
  else
    input.compute (columns.map (fun c => (c.1.source, c.2)))
      (if withLabels then
        (columns.filter (fun c => c.1.label != c.1.source)).map
          (fun c => (c.1.label, c.1.source))
      else [])

/-- The rows that a plan starts with, given those of its source. -/
def ofSource (p : QueryPlan) (source : Option Pipeline) : Except QueryError Pipeline :=
  match source, p.reduction with
  | some input, some r => .ok ((input.filtered p.rowFilter).aggregate r.call r.mapping)
  | some input, none => .ok input
  | none, some r => do return .reduce (← TableAccess.ofPlan p.toTablePlan) r.mapping
  | none, none => do return .fetch (← TableAccess.ofPlan p.toTablePlan)

/-- The pipeline of a plan, given that of its source. -/
def ofPlan (p : QueryPlan) (source : Option Pipeline) : Except QueryError Pipeline := do
  let base ← ofSource p source
  let early := base.computed p.earlyColumns true
  let kept := if p.reduction.isNone then early.filtered p.rowFilter else early
  let joined := p.joins.foldl join (kept.filtered p.having)
  let late := joined.computed p.lateColumns false
  let offset ← p.offset.mapM RowBound.value
  let limit ← p.limit.mapM RowBound.value
  return (late.paged p.orderBy offset limit).project (.ofPlan p)

/-- The rows of a first pipeline with those of another one behind them. -/
def linked (labels : Option (List String)) (first : Pipeline) (op : SetOperator)
    (second : Pipeline) : Pipeline :=
  match op with
  | .union => (first.append second labels).distinct
  | .unionAll => first.append second labels

end Pipeline

mutual

/-- The pipeline of a selection. -/
def QueryPlan.pipeline : QueryPlan → Except QueryError Pipeline
  | ⟨table, wildcard, rowFilter, whereClause, having, reduction, distinct, joins, orderBy, offset,
      limit, source, subqueries⟩ => do
    let input ← sourcePipeline source
    Pipeline.ofPlan ⟨table, wildcard, rowFilter, whereClause, having, reduction, distinct, joins,
      orderBy, offset, limit, source, subqueries⟩ input

/-- The pipeline of a source. -/
def sourcePipeline : Option QueryNode → Except QueryError (Option Pipeline)
  | none => return none
  | some n => do return some (← n.pipeline)

/-- The pipeline of a query. -/
def QueryNode.pipeline : QueryNode → Except QueryError Pipeline
  | .plan p => p.pipeline
  | .chain c => c.pipeline

/-- The pipeline of a set operation. -/
def ChainPlan.pipeline : ChainPlan → Except QueryError Pipeline
  | ⟨head, links, orderBy, offset, limit⟩ => do
    let labels := if head.firstPlan.wildcard then none else some head.labels
    let first ← head.pipeline
    let all ← linkPipelines labels first links
    let offset ← offset.mapM RowBound.value
    let limit ← limit.mapM RowBound.value
    return all.paged orderBy offset limit

/-- The pipeline of a link. -/
def ChainLink.pipeline : ChainLink → Except QueryError (SetOperator × Pipeline)
  | ⟨node, operator⟩ => do return (operator, ← node.pipeline)

/-- A pipeline and the links behind it. -/
def linkPipelines (labels : Option (List String)) (first : Pipeline) :
    List ChainLink → Except QueryError Pipeline
  | [] => return first
  | l :: ls => do
    let (op, second) ← l.pipeline
    linkPipelines labels (first.linked labels op second) ls

end

mutual

/-- A selection whose sub-queries, and those of its source, have run. -/
def QueryPlan.prepare (env : ExecutionEnv) : QueryPlan → StoreM QueryPlan
  | ⟨table, wildcard, rowFilter, whereClause, having, reduction, distinct, joins, orderBy, offset,
      limit, source, subqueries⟩ => do
    let source ← prepareSource env source
    QueryPlan.resolve ⟨table, wildcard, rowFilter, whereClause, having, reduction, distinct, joins,
      orderBy, offset, limit, source, subqueries⟩ (slotRuns env subqueries)

/-- A source whose sub-queries have run. -/
def prepareSource (env : ExecutionEnv) : Option QueryNode → StoreM (Option QueryNode)
  | none => return none
  | some n => do return some (← n.prepare env)

/-- Runs a sub-query. -/
def SubquerySlot.run (env : ExecutionEnv) : SubquerySlot → StoreM (List Row)
  | ⟨node, _⟩ => do
    let prepared ← node.prepare env
    let pipeline ← liftM prepared.pipeline
    (pipeline.cursor env).drain

/-- The runs of sub-queries. -/
def slotRuns (env : ExecutionEnv) : List SubquerySlot → List (StoreM (List Row))
  | [] => []
  | s :: ss => s.run env :: slotRuns env ss

/-- A query whose sub-queries have run. -/
def QueryNode.prepare (env : ExecutionEnv) : QueryNode → StoreM QueryNode
  | .plan p => do return .plan (← p.prepare env)
  | .chain c => do return .chain (← c.prepare env)

/-- A set operation whose sub-queries have run. -/
def ChainPlan.prepare (env : ExecutionEnv) : ChainPlan → StoreM ChainPlan
  | ⟨head, links, orderBy, offset, limit⟩ => do
    let head ← head.prepare env
    let links ← prepareLinks env links
    return ⟨head, links, orderBy, offset, limit⟩

/-- A link whose sub-queries have run. -/
def ChainLink.prepare (env : ExecutionEnv) : ChainLink → StoreM ChainLink
  | ⟨node, operator⟩ => do return ⟨← node.prepare env, operator⟩

/-- Links whose sub-queries have run. -/
def prepareLinks (env : ExecutionEnv) : List ChainLink → StoreM (List ChainLink)
  | [] => return []
  | l :: ls => do
    let prepared ← l.prepare env
    let rest ← prepareLinks env ls
    return prepared :: rest

end

end RecordQuery
