import RecordQuery.Expr.Render
import RecordQuery.Reducer.Aggregate

set_option autoImplicit false

/-!
# Columns

The columns that a plan carries through its rows. Every column has a place in the rows, its
source, and a label under which it is returned. Hidden columns are carried because an expression
needs them and are not returned.

## Main definitions

* `ColumnValue`, `Column` — the columns.
* `Column.isCarriedBy`, `Column.add` — whether a column is among others, and adding it to them.
* `Column.labels` — the labels of the returned columns.
-/

namespace RecordQuery

/-- Where the values of a column come from. -/
inductive ColumnValue where
  /-- A bin of the record, or whatever the rows hold in its place. -/
  | bin
  /-- The key of the record. -/
  | key
  /-- The digest of the record's key. -/
  | digest
  /-- A column by which rows are grouped. -/
  | group
  /-- An expression over other columns. -/
  | computed (e : Expr)
  /-- An aggregate, and the call that asks for it. -/
  | reduced (e : Expr) (spec : AggregateSpec)

namespace ColumnValue

/-- The expression behind a column. -/
def expr? : ColumnValue → Option Expr
  | computed e => some e
  | reduced e _ => some e
  | _ => none

/-- The aggregate behind a column. -/
def spec? : ColumnValue → Option AggregateSpec
  | reduced _ spec => some spec
  | _ => none

/-- Whether a column is made by evaluating an expression. -/
def isComputed : ColumnValue → Bool
  | computed _ => true
  | _ => false

end ColumnValue

/-- A column of a plan. -/
structure Column where
  /-- The namespace of the column's table. -/
  catalog : String
  /-- The name of a joined table; the main table has none. -/
  table : Option String
  /-- The name of the bin, or the text of an expression. -/
  name : String
  /-- The label under which the column is returned. -/
  label : String
  /-- The place of the column in the rows. -/
  source : String
  /-- Where the values come from. -/
  value : ColumnValue
  /-- Whether the column is carried and not returned. -/
  hidden : Bool

namespace Column

/-- Whether a column is returned. -/
def isVisible (c : Column) : Bool := !c.hidden

/-- The columns that are returned, in order. -/
def visible (cs : List Column) : List Column := cs.filter isVisible

/-- The labels of the returned columns, in order. -/
def labels (cs : List Column) : List String := (visible cs).map Column.label

/-- Whether one of several columns has a source. -/
def anyFrom (cs : List Column) (source : String) : Bool := cs.any (fun c => c.source == source)

/-- Whether a column need not be added to others. A returned column is there already if another
one returns the same source under the same label; a hidden one if the source is carried at all. -/
def isCarriedBy (c : Column) (cs : List Column) : Bool :=
  if c.isVisible then cs.any (fun d => d.isVisible && d.source == c.source && d.label == c.label)
  else anyFrom cs c.source

/-- Columns with one more. A returned column takes the place of the first hidden one that carries
the same source, at the end. -/
def add (c : Column) (cs : List Column) : List Column :=
  (if c.isVisible then cs.eraseP (fun d => !d.isVisible && d.source == c.source) else cs) ++ [c]

end Column

end RecordQuery
