import RecordQuery.Compile.Projection

set_option autoImplicit false

/-!
# Grouping

Which selections are grouped, by what, and how the output of the reducer becomes rows.

## Main definitions

* `Select.isGrouped` — whether a selection is grouped.
* `groupColumns` — the columns by which rows are grouped.
* `QueryPlan.outputMapping` — the places in the rows that reducer output fills.
* `QueryPlan.aggregation`, `QueryPlan.distinctReduction` — what a plan reduces its rows by.
-/

namespace RecordQuery

/-- Whether a selected item calls an aggregate. -/
def SelectItem.hasAggregate : SelectItem → Bool
  | .all => false
  | .expr e _ => e.hasAggregate

/-- Whether an optional expression calls an aggregate. -/
def optionHasAggregate : Option Expr → Bool
  | none => false
  | some e => e.hasAggregate

/-- Whether a selection in the given order is grouped: by columns, by the condition on its groups,
or because an aggregate is called. -/
def Select.isGrouped (s : Select) (orderBy : List OrderItem) : Bool :=
  !s.groupBy.isEmpty || s.having.isSome || s.items.any SelectItem.hasAggregate ||
    orderBy.any (fun o => o.expr.hasAggregate)

/-- Whether there is something to group: columns, or an aggregate among the selected items or in
the condition on the groups. -/
def Select.hasGroups (s : Select) : Bool :=
  !s.groupBy.isEmpty || optionHasAggregate s.having || s.items.any SelectItem.hasAggregate

/-- The column by which an expression groups: a bin of the main table. -/
def groupColumn (scope : Scope) (e : Expr) : Except QueryError String :=
  match e.unwrap with
  | .column c => do
    let table ← scope.resolve c
    if table ≠ 0 ∨ c.name = keyColumn ∨ c.name = digestColumn then throw (.groupByColumn c.text)
    return c.name
  | _ => .error (.groupByExpression e.render)

/-- The columns by which rows are grouped, each once, after those seen before. -/
def groupColumns (scope : Scope) (seen : List String) : List Expr → Except QueryError (List String)
  | [] => return seen
  | e :: es => do
    let name ← groupColumn scope e
    groupColumns scope (if name ∈ seen then seen else seen ++ [name]) es

/-- The bin of reducer output that a column shows. Computed columns show none. -/
def Column.outputBin? (c : Column) : Option String :=
  match c.value with
  | .reduced _ spec => some spec.text
  | .group => some c.name
  | .bin => some c.name
  | _ => none

namespace QueryPlan

/-- The places that one column fills. Its label is filled too, unless it is the source of a
column. -/
def addOutput (sources : List String) (m : OutputMapping) (c : Column) : OutputMapping :=
  match c.outputBin? with
  | none => m
  | some bin =>
    let own := if m.any (fun e => e.2 == c.source) then m else m ++ [(bin, c.source)]
    if c.label ≠ c.source ∧ c.label ∉ sources then own ++ [(bin, c.label)] else own

/-- The places in the rows that reducer output fills. -/
def outputMapping (p : QueryPlan) : OutputMapping :=
  p.columns.foldl (addOutput (p.columns.map Column.source)) []

/-- The written forms of the aggregates that a plan carries, each once. -/
def aggregateTexts (p : QueryPlan) : List String :=
  (p.columns.filterMap (fun c => c.value.spec?.map AggregateSpec.text)).foldl
    (fun seen t => if t ∈ seen then seen else seen ++ [t]) []

/-- The reduction of a grouped plan. -/
def aggregation (p : QueryPlan) (groups : List String) : Reduction :=
  let specs := p.aggregateTexts
  ⟨if groups.isEmpty then .stats specs else .groupBy groups specs, p.outputMapping⟩

/-- The reduction that drops duplicates. It applies to one bin of the main table. -/
def distinctReduction (p : QueryPlan) : Except QueryError Reduction :=
  match Column.visible p.columns with
  | [c] =>
    match c.value with
    | .bin =>
      if !p.wildcard && c.table.isNone then .ok ⟨.distinct c.name, p.outputMapping⟩
      else .error .distinctColumns
    | _ => .error .distinctColumns
  | _ => .error .distinctColumns

end QueryPlan

end RecordQuery
