import RecordQuery.Plan.Basic
import RecordQuery.Statement

set_option autoImplicit false

/-!
# Scopes

The tables that the columns of a selection refer to. The main table comes first and holds the
columns that are written without a table; the joined tables follow.

## Main definitions

* `CompileEnv` — what is known when a statement is compiled.
* `TableRef`, `Scope` — the tables of a selection.
* `Scope.resolve` — the table that a column belongs to.
* `Scope.rowKey` — the place of a column in the rows.
-/

namespace RecordQuery

/-- What is known when a statement is compiled. -/
structure CompileEnv where
  /-- The namespace of tables that are written without one. -/
  defaultNamespace : String
  /-- The indexes. -/
  indexes : IndexCatalog

namespace CompileEnv

/-- The namespace of a table. -/
def namespaceOf (env : CompileEnv) (table : TableName) : String :=
  table.schema.getD env.defaultNamespace

/-- The plan that reads all of a table. -/
def tablePlan (env : CompileEnv) (table : TableName) (rename : Option String) : TablePlan :=
  let ns := env.namespaceOf table
  { TablePlan.ofSet ns (some table.name) rename with indexes := env.indexes.forSet ns table.name }

end CompileEnv

/-- A table that columns may refer to. -/
structure TableRef where
  /-- The set, if the table is one. -/
  set : Option String
  /-- The other name that the table was given. -/
  rename : Option String
  deriving DecidableEq

namespace TableRef

/-- The name under which columns refer to a table. -/
def qualifier (t : TableRef) : Option String := t.rename.or t.set

end TableRef

/-- The tables of a selection, the main table first. -/
abbrev Scope := List TableRef

namespace Scope

/-- The table of a name. A table that was given another name is known by that one only. -/
def tableOf? (scope : Scope) (name : String) : Option Nat :=
  (scope.findIdx? (fun t => t.rename == some name)).or
    (scope.findIdx? (fun t => t.rename.isNone && t.set == some name))

/-- The table that a column belongs to. -/
def resolve (scope : Scope) (c : ColumnRef) : Except QueryError Nat :=
  match c.table with
  | none => .ok 0
  | some name =>
    match scope.tableOf? name with
    | some i => .ok i
    | none => .error (.unknownTable name)

/-- The name of a table. -/
def qualifier (scope : Scope) (table : Nat) : Option String :=
  scope[table]?.bind TableRef.qualifier

/-- The place of a column in the rows: its name, behind that of its table if that is joined. -/
def rowKey (scope : Scope) (table : Nat) (name : String) : String :=
  match table, scope.qualifier table with
  | _ + 1, some q => q ++ "." ++ name
  | _, _ => name

/-- The table under which a column is shown; the main table has none. -/
def shownTable (scope : Scope) (table : Nat) : Option String :=
  match table with
  | 0 => none
  | _ + 1 => some ((scope.qualifier table).getD "")

end Scope

end RecordQuery
