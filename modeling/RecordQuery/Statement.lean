import RecordQuery.Expr.Reference
import RecordQuery.Store.Index

set_option autoImplicit false

/-!
# Statements

What a program asks of the store: queries and changes.

## Main definitions

* `Statement` — the statements.
* `Statement.maxParam` — the highest parameter of a statement.
* `Config` — the settings under which statements are compiled and run.
-/

namespace RecordQuery

/-- An insertion of rows. -/
structure Insert where
  /-- The table. -/
  table : TableName
  /-- The columns that are written. -/
  columns : List String
  /-- The values of the columns, row by row. -/
  rows : List (List Expr)
  /-- Whether rows whose key exists are passed over. -/
  ignore : Bool

/-- An update of records. -/
structure Update where
  /-- The table. -/
  table : TableName
  /-- The bins that are written and their new values. -/
  assignments : List (String × Expr)
  /-- Which records are changed. -/
  condition : Option Expr
  /-- How many records are changed. -/
  limit : Option Expr

/-- A deletion of records. -/
structure Delete where
  /-- The table. -/
  table : TableName
  /-- Which records are removed. -/
  condition : Option Expr
  /-- How many records are removed. -/
  limit : Option Expr

/-- A definition of an index. -/
structure CreateIndex where
  /-- The name of the index. -/
  name : String
  /-- The table. -/
  table : TableName
  /-- The bin. -/
  column : String
  /-- What the index orders. -/
  type : IndexType

/-- A statement. -/
inductive Statement where
  /-- Returns rows. -/
  | query (q : Query)
  /-- Writes new records. -/
  | insert (s : Insert)
  /-- Changes records. -/
  | update (s : Update)
  /-- Removes records. -/
  | delete (s : Delete)
  /-- Removes all records of a set. -/
  | truncate (table : TableName)
  /-- Defines an index. -/
  | createIndex (s : CreateIndex)
  /-- Removes an index. -/
  | dropIndex (name : String) (table : TableName)

/-- The highest parameter of a statement. -/
def Statement.maxParam : Statement → Nat
  | .query q => q.maxParam
  | .insert s => maxParamExprs s.rows.flatten
  | .update s =>
    max (maxParamExprs (s.assignments.map Prod.snd))
      (max (maxParamOption s.condition) (maxParamOption s.limit))
  | .delete s => max (maxParamOption s.condition) (maxParamOption s.limit)
  | .truncate _ | .createIndex _ | .dropIndex .. => 0

/-- The settings under which statements are compiled and run. -/
structure Config where
  /-- The namespace of tables that are written without one. -/
  defaultNamespace : String
  /-- How many keys are looked up at a time. -/
  batchSize : Nat
  /-- How many rows a sort may hold. -/
  maxSortRows : Option Nat
  deriving Inhabited

/-- The settings that apply where none are given. -/
def Config.standard : Config := ⟨"test", 5000, none⟩

end RecordQuery
