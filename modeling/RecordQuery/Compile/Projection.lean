import RecordQuery.Compile.Scope

set_option autoImplicit false

/-!
# Projection

Which columns a selection carries and returns. A selected expression carries the columns that it
needs; in a grouped selection these are grouping columns and aggregates and nothing else.

## Main definitions

* `QueryPlan.register` — adds a column to a plan and to the joined table that it belongs to.
* `aggregateSpec` — the aggregate that a call asks for.
* `registerGrouped` — carries what an expression over groups needs.
* `addItems` — the plan that returns the selected items.
-/

namespace RecordQuery

namespace QueryPlan

/-- The plan of a table: the main table is the plan's own, the others are joined. -/
def tableAt (p : QueryPlan) (table : Nat) : TablePlan :=
  match table with
  | 0 => p.toTablePlan
  | i + 1 => (p.joins[i]?.map JoinSpec.plan).getD p.toTablePlan

/-- Changes the plan of a table. -/
def modifyTable (p : QueryPlan) (table : Nat) (f : TablePlan → TablePlan) : QueryPlan :=
  match table with
  | 0 => p.mapTable f
  | i + 1 => { p with joins := p.joins.modify i (fun j => { j with plan := f j.plan }) }

/-- Lets the rows of a table carry digests. -/
def requireDigest (p : QueryPlan) (table : Nat) : QueryPlan :=
  p.modifyTable table (fun t => { t with needsDigest := true })

/-- Adds a column to a plan unless it is carried already. A joined table learns which of its own
columns are carried. -/
def register (p : QueryPlan) (table : Nat) (c : Column) : QueryPlan :=
  if c.isCarriedBy p.columns then p
  else
    let q := p.mapTable (fun t => { t with columns := c.add t.columns })
    if table = 0 then q
    else
      q.modifyTable table (fun t =>
        if Column.anyFrom t.columns c.source then t else { t with columns := t.columns ++ [c] })

/-- The hidden column that carries a column of a table. -/
def hiddenColumn (p : QueryPlan) (scope : Scope) (table : Nat) (name : String) : Column :=
  let source := scope.rowKey table name
  ⟨(p.tableAt table).ns, scope.shownTable table, name, source, source, .bin, true⟩

/-- The column that shows an expression. -/
def expressionColumn (p : QueryPlan) (text : String) (label : Option String) (value : ColumnValue)
    (hidden : Bool) : Column :=
  ⟨p.ns, none, text, label.getD text, text, value, hidden⟩

end QueryPlan

/-- The column that an aggregate call is given; none for whole rows. -/
def aggregateColumn (name : String) (call : Expr) :
    List Expr → Except QueryError (Option String)
  | [] => .ok none
  | [.star] => .ok none
  | [.column c] =>
    if c.name = keyColumn ∨ c.name = digestColumn then .error (.aggregateOfKey c.text)
    else .ok (some c.name)
  | [_] => .error (.aggregateOfExpression call.render)
  | _ => .error (.aggregateArity name)

/-- The aggregate that a call asks for. -/
def aggregateSpec : Expr → Except QueryError AggregateSpec
  | .call name args distinct => do
    if distinct then throw (.distinctAggregate name)
    match AggregateKind.ofName? name with
    | none => throw (.functionUnknown name)
    | some kind =>
      let column ← aggregateColumn name (.call name args distinct) (args.map Expr.unwrap)
      if column.isNone && kind != .count then throw (.aggregateOfRows name)
      return ⟨kind, column⟩
  | e => .error (.columnExpression e.render)

/-- Adds the column of an aggregate. -/
def addAggregate (p : QueryPlan) (e : Expr) (label : Option String) (hidden : Bool) :
    Except QueryError QueryPlan := do
  let spec ← aggregateSpec e
  return p.register 0 (p.expressionColumn e.render label (.reduced e spec) hidden)

/-- Carries a column of grouped rows. The label of a returned column will do, and otherwise it has
to be a grouping column. -/
def addGroupedColumn (scope : Scope) (groups : List String) (p : QueryPlan) (c : ColumnRef) :
    Except QueryError QueryPlan := do
  if c.table.isNone && p.labels.contains c.name then return p
  let table ← scope.resolve c
  if table ≠ 0 ∨ c.name ∉ groups then throw (.columnNotGrouped c.text)
  return p.register 0 ⟨p.ns, none, c.name, c.name, c.name, .bin, true⟩

mutual

/-- Carries what an expression over groups needs: aggregates and grouping columns. -/
def registerGrouped (scope : Scope) (groups : List String) (p : QueryPlan) :
    Expr → Except QueryError QueryPlan
  | .call name args distinct =>
    if isAggregateName name then addAggregate p (.call name args distinct) none true
    else registerGroupedList scope groups p args
  | .column c => addGroupedColumn scope groups p c
  | .binary _ l r => do
    let p ← registerGrouped scope groups p l
    registerGrouped scope groups p r
  | .negative e | .not e | .isNull e _ | .paren e | .inQuery e _ _ =>
    registerGrouped scope groups p e
  | .between e low high _ => do
    let p ← registerGrouped scope groups p e
    let p ← registerGrouped scope groups p low
    registerGrouped scope groups p high
  | .inList e items _ => do
    let p ← registerGrouped scope groups p e
    registerGroupedList scope groups p items
  | .array items => registerGroupedList scope groups p items
  | .element e key => do
    let p ← registerGrouped scope groups p e
    registerGrouped scope groups p key
  | .literal _ | .param _ | .scalarQuery _ | .star => .ok p

/-- Carries what several expressions over groups need. -/
def registerGroupedList (scope : Scope) (groups : List String) (p : QueryPlan) :
    List Expr → Except QueryError QueryPlan
  | [] => .ok p
  | e :: es => do
    let p ← registerGrouped scope groups p e
    registerGroupedList scope groups p es

end

/-- The label of a selected column: the one that it was given, or its name, behind that of its
table if the name is taken. -/
def columnLabel (p : QueryPlan) (scope : Scope) (table : Nat) (c : ColumnRef)
    (label : Option String) : String :=
  match label with
  | some l => l
  | none =>
    if p.labels.contains c.name then
      match scope.qualifier table with
      | some q => q ++ "." ++ c.name
      | none => c.name
    else c.name

/-- What a selected column shows. In a grouped selection it has to be a grouping column. -/
def columnValue (grouping : Option (List String)) (table : Nat) (c : ColumnRef) :
    Except QueryError ColumnValue :=
  let isBin := c.name ≠ keyColumn ∧ c.name ≠ digestColumn
  match grouping with
  | some groups =>
    if isBin ∧ table = 0 ∧ c.name ∈ groups then .ok .group
    else .error (.columnNotGrouped c.text)
  | none =>
    .ok (if c.name = keyColumn then .key else if c.name = digestColumn then .digest else .bin)

/-- Returns a column. -/
def addColumnItem (scope : Scope) (grouping : Option (List String)) (p : QueryPlan)
    (c : ColumnRef) (label : Option String) : Except QueryError QueryPlan := do
  let table ← scope.resolve c
  let value ← columnValue grouping table c
  let p := if c.name = digestColumn then p.requireDigest table else p
  return p.register table ⟨(p.tableAt table).ns, scope.shownTable table, c.name,
    columnLabel p scope table c label, scope.rowKey table c.name, value, false⟩

/-- Carries the columns that an expression over single rows needs. -/
def registerColumns (scope : Scope) (p : QueryPlan) : List ColumnRef → Except QueryError QueryPlan
  | [] => .ok p
  | c :: cs => do
    let table ← scope.resolve c
    let p := if c.name = digestColumn then p.requireDigest table else p
    registerColumns scope (p.register table (p.hiddenColumn scope table c.name)) cs

/-- Returns the value of an expression. -/
def addExpressionItem (scope : Scope) (grouping : Option (List String)) (p : QueryPlan) (e : Expr)
    (label : Option String) : Except QueryError QueryPlan := do
  let p ← match grouping with
    | some groups => registerGrouped scope groups p e
    | none => registerColumns scope p e.columns
  return p.register 0 (p.expressionColumn e.render label (.computed e) false)

/-- Whether an expression can be selected: constants, operators, calls, lists and their elements. -/
def isSelectable : Expr → Bool
  | .literal _ | .binary .. | .negative _ | .not _ | .isNull .. | .call .. | .array _
  | .element .. => true
  | _ => false

/-- Returns a selected expression. -/
def addExpr (scope : Scope) (grouping : Option (List String)) (p : QueryPlan) (e : Expr)
    (label : Option String) : Except QueryError QueryPlan :=
  match e with
  | .column c => addColumnItem scope grouping p c label
  | e =>
    if e.isAggregate then addAggregate p e label false
    else if isSelectable e && !e.hasQuery then addExpressionItem scope grouping p e label
    else .error (.columnExpression e.render)

/-- Returns a selected item. -/
def addItem (scope : Scope) (grouping : Option (List String)) (p : QueryPlan) :
    SelectItem → Except QueryError QueryPlan
  | .all =>
    if grouping.isSome then .error .starInAggregation else .ok { p with wildcard := true }
  | .expr e label => addExpr scope grouping p e.unwrap label

/-- The plan that returns selected items, one after the other. -/
def addItems (scope : Scope) (grouping : Option (List String)) (p : QueryPlan) :
    List SelectItem → Except QueryError QueryPlan
  | [] => .ok p
  | i :: is => do
    let p ← addItem scope grouping p i
    addItems scope grouping p is

end RecordQuery
