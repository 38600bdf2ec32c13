import RecordQuery.Plan.Access
import RecordQuery.Plan.Column
import RecordQuery.Predicate.Condition
import RecordQuery.Predicate.KeyCondition

set_option autoImplicit false

/-!
# Plans

A plan says how the rows of a query come about: which records of which set are read and by which
strategy, what is computed, joined, grouped, ordered and returned. Plans may hold parameters and
sub-queries that have not run; binding and running replace them.

## Main definitions

* `TablePlan` — the reading of one set; `JoinSpec` — a set read once per row of another.
* `OrderSpec`, `RowBound`, `Reduction` — what is done with rows.
* `QueryPlan`, `SubquerySlot`, `QueryNode`, `ChainPlan`, `ChainLink` — the plan of a query.
* `InsertPlan`, `UpdatePlan`, `DeletePlan`, `StatementPlan` — the plan of a statement.
-/

namespace RecordQuery

/-- How the records of one set are read, and which of their columns are carried. -/
structure TablePlan where
  /-- The namespace. -/
  ns : String
  /-- The set; none if the rows come from a query instead. -/
  set : Option String
  /-- The other name the table was given. -/
  rename : Option String
  /-- The columns, in order. -/
  columns : List Column
  /-- What the store decides about the bins. -/
  condition : Option Condition
  /-- What the store decides about the key. -/
  keyCondition : Option KeyCondition
  /-- The indexes on the set. -/
  indexes : List IndexDefinition
  /-- Whether rows carry the digest of the key. -/
  needsDigest : Bool
  /-- The strategy, once it is chosen. -/
  strategy : Option AccessStrategy

namespace TablePlan

/-- The plan that reads a whole set and has chosen no strategy. -/
def ofSet (ns : String) (set rename : Option String) : TablePlan :=
  ⟨ns, set, rename, [], none, none, [], false, none⟩

/-- The name under which columns refer to the table. -/
def qualifier (p : TablePlan) : Option String := p.rename.or p.set

/-- The labels of the returned columns, in order. -/
def labels (p : TablePlan) : List String := Column.labels p.columns

/-- The plan with one more condition. -/
def addCondition (p : TablePlan) (c : Condition) : TablePlan :=
  { p with condition := some (match p.condition with
      | none => c
      | some d => .all [d, c]) }

/-- The plan with one more condition on the key. -/
def addKeyCondition (p : TablePlan) (c : KeyCondition) : TablePlan :=
  { p with keyCondition := some (match p.keyCondition with
      | none => c
      | some d => d.and c) }

/-- The plan with a strategy, unless it has one. -/
def commit (p : TablePlan) (s : AccessStrategy) : Except QueryError TablePlan :=
  match p.strategy with
  | some t => .error (.strategyCommitted t.name s.name)
  | none => .ok { p with strategy := some s }

end TablePlan

/-- A joined table, read once for every row of the tables before it. -/
structure JoinSpec where
  /-- The kind of join. -/
  kind : JoinKind
  /-- What the names of the joined columns begin with. -/
  qualifier : String
  /-- How the joined set is read. -/
  plan : TablePlan
  /-- The place of the outer value in the rows. -/
  outerKey : String
  /-- The joined column that equals the outer value. -/
  innerColumn : String

/-- What rows are sorted by. -/
inductive OrderKey where
  /-- The value in a place of the rows. -/
  | column (source : String)
  /-- The value of an expression. -/
  | expr (e : Expr)
  /-- The value of a column, counted from one. -/
  | position (n : Nat)

/-- A sort key and its direction. -/
structure OrderSpec where
  /-- The key. -/
  key : OrderKey
  /-- Whether great values come first. -/
  descending : Bool

/-- A limit or an offset. -/
inductive RowBound where
  /-- So many rows. -/
  | rows (n : UInt64)
  /-- A parameter, replaced when the statement is bound. -/
  | param (index : Nat)
  deriving DecidableEq

/-- A reduction of rows and the way its output becomes rows. -/
structure Reduction where
  /-- What is reduced. -/
  call : ReducerCall
  /-- How the output becomes rows. -/
  mapping : OutputMapping

/-- What the result of a sub-query is used for. -/
inductive SubqueryContext where
  /-- One value, on one side of a comparison. -/
  | scalar (c : Comparison)
  /-- The values among which another one is looked for. -/
  | among
  deriving DecidableEq

mutual

/-- The plan of a selection. Its table is what the store reads. -/
structure QueryPlan extends TablePlan where
  /-- Whether all columns are returned. -/
  wildcard : Bool
  /-- The condition that is decided row by row. -/
  rowFilter : Option Expr
  /-- The condition on the main table, kept for the case that a parameter makes the store unable
  to decide it. -/
  whereClause : Option Expr
  /-- The condition that groups satisfy. -/
  having : Option Expr
  /-- The grouping of the rows. -/
  reduction : Option Reduction
  /-- Whether duplicates are dropped. -/
  distinct : Bool
  /-- The joined tables, in order. -/
  joins : List JoinSpec
  /-- The order of the rows. -/
  orderBy : List OrderSpec
  /-- How many rows are skipped. -/
  offset : Option RowBound
  /-- How many rows are kept. -/
  limit : Option RowBound
  /-- The query that the rows come from, if they do not come from the store. -/
  source : Option QueryNode
  /-- The sub-queries of the condition, in order of their slots. -/
  subqueries : List SubquerySlot

/-- A sub-query of a condition. -/
structure SubquerySlot where
  /-- The sub-query. -/
  node : QueryNode
  /-- What its result is used for. -/
  context : SubqueryContext

/-- The plan of a query. -/
inductive QueryNode where
  /-- A selection. -/
  | plan (p : QueryPlan)
  /-- Selections put together by set operations. -/
  | chain (c : ChainPlan)

/-- A first query and those that are put to its rows one after the other. -/
structure ChainPlan where
  /-- The first query, which names the columns. -/
  head : QueryNode
  /-- The others, in order. -/
  links : List ChainLink
  /-- The order of the rows. -/
  orderBy : List OrderSpec
  /-- How many rows are skipped. -/
  offset : Option RowBound
  /-- How many rows are kept. -/
  limit : Option RowBound

/-- A query whose rows are put to those before. -/
structure ChainLink where
  /-- The query. -/
  node : QueryNode
  /-- Whether duplicates are dropped afterwards. -/
  operator : SetOperator

end

namespace QueryPlan

/-- The plan that returns what a table plan reads. -/
def ofTable (t : TablePlan) : QueryPlan :=
  { toTablePlan := t, wildcard := false, rowFilter := none, whereClause := none, having := none,
    reduction := none, distinct := false, joins := [], orderBy := [], offset := none,
    limit := none, source := none, subqueries := [] }

/-- The plan that returns rows of a query. -/
def ofSource (ns : String) (rename : Option String) (source : QueryNode) : QueryPlan :=
  { ofTable (.ofSet ns none rename) with source := some source }

/-- The labels of the returned columns, in order. -/
def labels (p : QueryPlan) : List String := p.toTablePlan.labels

/-- A plan whose table plan is changed. -/
def mapTable (p : QueryPlan) (f : TablePlan → TablePlan) : QueryPlan :=
  { p with toTablePlan := f p.toTablePlan }

end QueryPlan

mutual

/-- The first selection of a query, which names its columns. -/
def QueryNode.firstPlan : QueryNode → QueryPlan
  | .plan p => p
  | .chain c => c.firstPlan

/-- The first selection of a set operation. -/
def ChainPlan.firstPlan : ChainPlan → QueryPlan
  | ⟨head, _, _, _, _⟩ => head.firstPlan

end

/-- The labels of the returned columns, in order; unknown ones of all columns are left out. -/
def QueryNode.labels (n : QueryNode) : List String := n.firstPlan.labels

/-- The plan of an insertion. -/
structure InsertPlan where
  /-- The namespace. -/
  ns : String
  /-- The set. -/
  set : String
  /-- The columns that are written. -/
  columns : List String
  /-- The position of the key among them. -/
  keyIndex : Nat
  /-- The values of the columns, row by row. -/
  rows : List (List Expr)
  /-- Whether rows whose key exists are passed over. -/
  ignore : Bool

/-- The plan of an update. -/
structure UpdatePlan where
  /-- The records that are changed. -/
  selection : QueryPlan
  /-- The bins that are written and their new values. -/
  assignments : List (String × Expr)
  /-- How many records are changed. -/
  limit : Option RowBound

/-- The plan of a deletion. -/
structure DeletePlan where
  /-- The records that are removed. -/
  selection : QueryPlan
  /-- How many records are removed. -/
  limit : Option RowBound

/-- The plan of a statement. -/
inductive StatementPlan where
  /-- Returns rows. -/
  | query (n : QueryNode)
  /-- Writes new records. -/
  | insert (p : InsertPlan)
  /-- Changes records. -/
  | update (p : UpdatePlan)
  /-- Removes records. -/
  | delete (p : DeletePlan)
  /-- Removes all records of a set. -/
  | truncate (ns set : String)
  /-- Defines an index. -/
  | createIndex (i : IndexDefinition)
  /-- Removes an index. -/
  | dropIndex (ns name : String)

/-- The plan by which a statement reads the store. -/
def StatementPlan.queryPlan? : StatementPlan → Option QueryPlan
  | .query (.plan p) => some p
  | .update p => some p.selection
  | .delete p => some p.selection
  | _ => none

end RecordQuery
