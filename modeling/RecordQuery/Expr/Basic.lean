import RecordQuery.Value.Display

set_option autoImplicit false

/-!
# Expressions and queries

The trees that statements are made of. Expressions may hold queries, and queries hold expressions,
so both are one mutual family. The names of columns keep the qualifier under which they were
written.

## Main definitions

* `Comparison`, `Arithmetic`, `BinaryOp` — the binary operators.
* `Expr` — expressions over one row.
* `Query`, `QueryBody`, `Select`, `TableExpr`, `Join` — queries.
* `Expr.unwrap` — an expression without the parentheses around it.
-/

namespace RecordQuery

/-- The comparisons. -/
inductive Comparison where
  | eq
  | ne
  | lt
  | le
  | gt
  | ge
  deriving DecidableEq, Inhabited

namespace Comparison

/-- How a comparison is written. -/
def symbol : Comparison → String
  | eq => "="
  | ne => "!="
  | lt => "<"
  | le => "<="
  | gt => ">"
  | ge => ">="

/-- The comparison seen from the other side: `a < b` is `b > a`. -/
def mirrored : Comparison → Comparison
  | lt => gt
  | le => ge
  | gt => lt
  | ge => le
  | c => c

/-- Whether two values in this order satisfy the comparison. -/
def admits : Comparison → Ordering → Bool
  | eq, o => o == .eq
  | ne, o => o != .eq
  | lt, o => o == .lt
  | le, o => o != .gt
  | gt, o => o == .gt
  | ge, o => o != .lt

/-- Mirroring a comparison is exchanging its operands. -/
theorem admits_mirrored (c : Comparison) (o : Ordering) :
    c.mirrored.admits o = c.admits o.swap := by
  cases c <;> cases o <;> rfl

end Comparison

/-- The arithmetic operators. -/
inductive Arithmetic where
  | add
  | sub
  | mul
  | div
  | rem
  deriving DecidableEq, Inhabited

/-- How an arithmetic operator is written. -/
def Arithmetic.symbol : Arithmetic → String
  | .add => "+"
  | .sub => "-"
  | .mul => "*"
  | .div => "/"
  | .rem => "%"

/-- The operators between two operands. -/
inductive BinaryOp where
  /-- A comparison. -/
  | compare (c : Comparison)
  /-- Conjunction. -/
  | and
  /-- Disjunction. -/
  | or
  /-- An arithmetic operator. -/
  | arith (a : Arithmetic)
  deriving DecidableEq, Inhabited

/-- How a binary operator is written. -/
def BinaryOp.symbol : BinaryOp → String
  | .compare c => c.symbol
  | .and => "AND"
  | .or => "OR"
  | .arith a => a.symbol

/-- A constant in an expression. -/
inductive Literal where
  | null
  | boolean (b : Bool)
  | integer (i : Int64)
  | float (x : Binary64)
  | text (s : String)
  deriving DecidableEq, Inhabited

/-- The value of a constant. -/
def Literal.value : Literal → Value
  | .null => .null
  | .boolean b => .boolean b
  | .integer i => .integer i
  | .float x => .float x
  | .text s => .text s

/-- A reference to a column, with the table it was written under. -/
structure ColumnRef where
  /-- The name or other name of a table, if one was written. -/
  table : Option String
  /-- The name of the column. -/
  name : String
  deriving DecidableEq, Inhabited

/-- The name of a table, with the namespace it was written under. -/
structure TableName where
  /-- The namespace, if one was written. -/
  schema : Option String
  /-- The name of the set. -/
  name : String
  deriving DecidableEq, Inhabited

/-- The two set operations. -/
inductive SetOperator where
  /-- All rows of both sides, duplicates dropped. -/
  | union
  /-- All rows of both sides. -/
  | unionAll
  deriving DecidableEq, Inhabited

/-- The two kinds of join. -/
inductive JoinKind where
  /-- Only rows with a partner. -/
  | inner
  /-- Every row of the left side. -/
  | left
  deriving DecidableEq, Inhabited

mutual

/-- An expression over one row. -/
inductive Expr where
  /-- A constant. -/
  | literal (l : Literal)
  /-- The value of a column. -/
  | column (c : ColumnRef)
  /-- A parameter, numbered from one. -/
  | param (index : Nat)
  /-- A binary operator. -/
  | binary (op : BinaryOp) (left right : Expr)
  /-- The negative of a number. -/
  | negative (e : Expr)
  /-- Logical negation. -/
  | not (e : Expr)
  /-- Whether a value is null, or is not. -/
  | isNull (e : Expr) (negated : Bool)
  /-- Whether a value lies in a range, or does not. -/
  | between (e low high : Expr) (negated : Bool)
  /-- Whether a value is among others, or is not. -/
  | inList (e : Expr) (items : List Expr) (negated : Bool)
  /-- Whether a value is among those of a query, or is not. -/
  | inQuery (e : Expr) (q : Query) (negated : Bool)
  /-- The one value of a query. -/
  | scalarQuery (q : Query)
  /-- A function call. -/
  | call (name : String) (args : List Expr) (distinct : Bool)
  /-- The star inside a call. -/
  | star
  /-- An expression in parentheses. -/
  | paren (e : Expr)
  /-- A list of values. -/
  | array (items : List Expr)
  /-- An element of a list. -/
  | element (e key : Expr)

/-- A query: a body, and what is done with its rows. -/
structure Query where
  /-- Where the rows come from. -/
  body : QueryBody
  /-- The order of the rows, first key first. -/
  orderBy : List OrderItem
  /-- How many rows are kept. -/
  limit : Option Expr
  /-- How many rows are skipped before. -/
  offset : Option Expr

/-- A sort key of a query. -/
structure OrderItem where
  /-- What the rows are sorted by. -/
  expr : Expr
  /-- Whether small values come first. -/
  ascending : Bool

/-- Selections put together by set operations. -/
inductive QueryBody where
  /-- A selection. -/
  | select (s : Select)
  /-- Two bodies put together. -/
  | combine (op : SetOperator) (left right : QueryBody)

/-- A selection of rows from a table and its joins. -/
structure Select where
  /-- Whether duplicates are dropped. -/
  distinct : Bool
  /-- The selected items, in order. -/
  items : List SelectItem
  /-- The main table. -/
  source : TableExpr
  /-- The joined tables, in order. -/
  joins : List Join
  /-- The condition that rows satisfy. -/
  condition : Option Expr
  /-- What rows are grouped by. -/
  groupBy : List Expr
  /-- The condition that groups satisfy. -/
  having : Option Expr

/-- A selected item. -/
inductive SelectItem where
  /-- All columns. -/
  | all
  /-- An expression, and the label it was given. -/
  | expr (e : Expr) (label : Option String)

/-- What rows are selected from. -/
inductive TableExpr where
  /-- A set of the store, and the other name it was given. -/
  | named (name : TableName) (rename : Option String)
  /-- The rows of a query, and the name they were given. -/
  | derived (q : Query) (rename : Option String)

/-- A joined table. -/
structure Join where
  /-- The kind of join. -/
  kind : JoinKind
  /-- What is joined. -/
  table : TableExpr
  /-- Which rows are partners. -/
  condition : Option Expr

end

/-- The star stands for any expression. -/
instance : Inhabited Expr := ⟨.star⟩

namespace ColumnRef

/-- A column reference as written. -/
def text (c : ColumnRef) : String :=
  match c.table with
  | some t => t ++ "." ++ c.name
  | none => c.name

end ColumnRef

namespace Expr

/-- The conjunction of two expressions. -/
def andAlso (a b : Expr) : Expr := binary .and a b

/-- An expression without the parentheses around it. -/
def unwrap : Expr → Expr
  | paren e => e.unwrap
  | e => e

end Expr

end RecordQuery
