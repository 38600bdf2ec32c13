import RecordQuery.Compile.Query

set_option autoImplicit false

/-!
# Compilation of statements

A statement becomes a plan. Updates and deletions select their records by the condition alone.

## Main definitions

* `compileSelection` — the records that an update or a deletion selects.
* `Statement.plan` — the plan of a statement.
-/

namespace RecordQuery

/-- The selection of the records of a table that satisfy a condition. -/
def compileSelection (env : CompileEnv) (table : TableName) (condition : Option Expr) :
    Except QueryError QueryPlan := do
  let p := QueryPlan.ofTable (env.tablePlan table none)
  match condition with
  | none => p.chooseStrategy
  | some e =>
    (← compileWhere (compileBelow env e.depth) [⟨p.set, none⟩] p e).chooseStrategy

/-- Inserted rows have one value for each column, and none asks a query. -/
def checkRows (columns : Nat) : List (List Expr) → Except QueryError Unit
  | [] => return ()
  | row :: rows =>
    if row.length ≠ columns then .error (.insertWidth columns row.length)
    else if row.any Expr.hasQuery then .error .subqueryInValues
    else checkRows columns rows

/-- The plan of an insertion. -/
def Insert.plan (env : CompileEnv) (s : Insert) : Except QueryError InsertPlan := do
  match s.columns.findIdx? (fun c => c == keyColumn) with
  | none => throw (.insertWithoutKey s.table.name)
  | some keyIndex =>
    checkRows s.columns.length s.rows
    return ⟨env.namespaceOf s.table, s.table.name, s.columns, keyIndex, s.rows, s.ignore⟩

/-- Assignments leave the key alone and ask no query. -/
def checkAssignments : List (String × Expr) → Except QueryError Unit
  | [] => return ()
  | (column, e) :: rest =>
    if column = keyColumn then .error .keyAssigned
    else if e.hasQuery then .error .subqueryInSet
    else checkAssignments rest

/-- The plan of an update. -/
def Update.plan (env : CompileEnv) (s : Update) : Except QueryError UpdatePlan := do
  let selection ← compileSelection env s.table s.condition
  checkAssignments s.assignments
  return ⟨selection, s.assignments, ← optionalRowBound s.limit⟩

/-- The plan of a deletion. -/
def Delete.plan (env : CompileEnv) (s : Delete) : Except QueryError DeletePlan := do
  let selection ← compileSelection env s.table s.condition
  return ⟨selection, ← optionalRowBound s.limit⟩

/-- The plan of a statement. -/
def Statement.plan (env : CompileEnv) : Statement → Except QueryError StatementPlan
  | .query q => do return .query (← q.compile env)
  | .insert s => do return .insert (← s.plan env)
  | .update s => do return .update (← s.plan env)
  | .delete s => do return .delete (← s.plan env)
  | .truncate table => return .truncate (env.namespaceOf table) table.name
  | .createIndex s =>
    return .createIndex ⟨env.namespaceOf s.table, s.table.name, s.column, s.name, s.type⟩
  | .dropIndex name table => return .dropIndex (env.namespaceOf table) name

end RecordQuery
