import RecordQuery.Compile.Projection

set_option autoImplicit false

/-!
# Order and limits

What the rows of a query are sorted by and how many of them are returned. A selection is sorted by
positions, by labels and columns, or by expressions; a set operation knows its rows by the labels
of its first selection only.

## Main definitions

* `rowBound` — a limit or an offset.
* `planOrder` — the order of a selection.
* `chainOrder` — the order of a set operation.
-/

namespace RecordQuery

/-- A limit or an offset: a natural number or a parameter. -/
def rowBound (e : Expr) : Except QueryError RowBound :=
  match e.unwrap with
  | .literal (.integer i) =>
    if 0 ≤ i.toInt then .ok (.rows i.toUInt64) else .error (.rowBoundExpression e.render)
  | .param index => .ok (.param index)
  | _ => .error (.rowBoundExpression e.render)

/-- An optional limit or offset. -/
def optionalRowBound : Option Expr → Except QueryError (Option RowBound)
  | none => return none
  | some e => do return some (← rowBound e)

/-- The element at a position counted from one. -/
def elementAt? {α : Type} (as : List α) (position : Int) : Option α :=
  if 1 ≤ position then as[position.toNat - 1]? else none

/-- The key that a column without an alias stands for, in a plan that carries it. -/
def columnOrder (scope : Scope) (grouping : Option (List String)) (p : QueryPlan) (c : ColumnRef) :
    Except QueryError (OrderKey × QueryPlan) := do
  let p ← match grouping with
    | some groups => addGroupedColumn scope groups p c
    | none => pure p
  let table ← scope.resolve c
  return (.column (scope.rowKey table c.name), p)

/-- The returned column that a reference names by its label. -/
def labelledColumn? (p : QueryPlan) (c : ColumnRef) : Option Column :=
  if c.table.isNone then (Column.visible p.columns).find? (fun d => d.label == c.name) else none

/-- The key that an expression stands for, in a plan that carries what it needs. -/
def planOrderKey (scope : Scope) (grouping : Option (List String)) (p : QueryPlan) (e : Expr) :
    Except QueryError (OrderKey × QueryPlan) :=
  match e with
  | .literal (.integer position) =>
    match elementAt? (Column.visible p.columns) position.toInt with
    | some c => .ok (.column c.source, p)
    | none => .error (.orderPosition position.toInt)
  | .column c =>
    match labelledColumn? p c with
    | some d => .ok (.column d.source, p)
    | none => columnOrder scope grouping p c
  | e =>
    if e.hasQuery then .error .subqueryInOrderBy
    else
      match grouping with
      | none => .ok (.expr e, p)
      | some groups => do
        let p ← registerGrouped scope groups p e
        return (if e.isAggregate then .column e.render else .expr e, p)

/-- The order of a selection, in a plan that carries what it needs. -/
def planOrder (scope : Scope) (grouping : Option (List String)) (p : QueryPlan) :
    List OrderItem → Except QueryError (List OrderSpec × QueryPlan)
  | [] => return ([], p)
  | o :: os => do
    let (key, p) ← planOrderKey scope grouping p o.expr.unwrap
    let (specs, p) ← planOrder scope grouping p os
    return (⟨key, !o.ascending⟩ :: specs, p)

/-- The key that an expression stands for in rows with given labels. Without labels any position
will do. -/
def chainOrderKey (labels : List String) (e : Expr) : Except QueryError OrderKey :=
  match e with
  | .literal (.integer position) =>
    let n := position.toInt.toNat
    if 1 ≤ n ∧ (labels = [] ∨ n ≤ labels.length) then .ok (.position n)
    else .error (.orderPosition position.toInt)
  | .column c => .ok (.column c.name)
  | e => if e.hasQuery then .error .subqueryInOrderBy else .ok (.expr e)

/-- The order of a set operation. -/
def chainOrder (labels : List String) : List OrderItem → Except QueryError (List OrderSpec)
  | [] => return []
  | o :: os => do
    let key ← chainOrderKey labels o.expr.unwrap
    let specs ← chainOrder labels os
    return ⟨key, !o.ascending⟩ :: specs

end RecordQuery
