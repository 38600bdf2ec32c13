import RecordQuery.Plan.Basic
import RecordQuery.Row
import RecordQuery.Text.Slice

set_option autoImplicit false

/-!
# Returned rows

A projection turns the rows that a plan carries into the rows that it returns: the returned columns
under their labels. When all columns are asked for, these come first and stand under their names,
those of joined tables without the name of the table as long as no other column has that name.

## Main definitions

* `Projection` — what is returned of a row; `Projection.ofPlan` — what a plan returns.
* `Projection.allColumns` — all columns of a row.
* `Projection.row` — the returned row.
-/

namespace RecordQuery

/-- What is returned of a row. -/
structure Projection where
  /-- The places of the returned columns in the row, and their labels. -/
  columns : List (String × String)
  /-- Whether all columns are returned. -/
  wildcard : Bool
  /-- The places that hold computed values. These are no columns of a record. -/
  computed : List String
  /-- What the names of joined columns begin with. -/
  qualifiers : List String
  /-- Whether every returned column has to be there. -/
  strict : Bool

/-- The places of computed values that a column adds: its source, and its label if a row filter
may refer to that. -/
def Column.computedPlaces (c : Column) : List String :=
  if c.value.expr?.isNone then []
  else if c.value.isComputed && !c.hidden && c.label != c.source then [c.source, c.label]
  else [c.source]

namespace Projection

/-- The returned columns among given ones. -/
def ofColumns (cs : List Column) (wildcard : Bool) (qualifiers : List String) (strict : Bool) :
    Projection :=
  ⟨(Column.visible cs).map (fun c => (c.source, c.label)), wildcard,
    cs.flatMap Column.computedPlaces, qualifiers, strict⟩

/-- What a plan returns. Rows of a query have to carry every column. -/
def ofPlan (p : QueryPlan) : Projection :=
  ofColumns p.columns p.wildcard (p.joins.map JoinSpec.qualifier) p.source.isSome

/-- The name of a column inside its table, for the first joined table that its name names. -/
def bareName (qualifiers : List String) (name : String) : String :=
  (qualifiers.findSome? (fun q => Text.dropPrefix? (q ++ ".") name)).getD name

/-- Adds a column of a row to those returned already. -/
def addColumn (p : Projection) (row returned : Row) (column : String × Value) : Row :=
  let bare := bareName p.qualifiers column.1
  if p.computed.contains column.1 || bare == keyColumn || bare == digestColumn then returned
  else if bare != column.1 && (row.contains bare || returned.contains bare) then
    returned.set column.1 column.2
  else returned.set bare column.2

/-- All columns of a row, the key and computed values left out. -/
def allColumns (p : Projection) (row : Row) : Row :=
  row.entries.foldl (p.addColumn row) .empty

/-- Adds returned columns to those returned already. An absent value is null, unless all have to be
there. -/
def addLabelled (p : Projection) (row : Row) : Row → List (String × String) →
    Except QueryError Row
  | returned, [] => .ok returned
  | returned, (source, label) :: rest =>
    if p.wildcard && returned.contains label then addLabelled p row returned rest
    else
      match row.get? source with
      | some v => addLabelled p row (returned.set label v) rest
      | none =>
        if p.strict then .error (.columnNotReturned source)
        else addLabelled p row (returned.set label .null) rest

/-- The returned row. -/
def row (p : Projection) (r : Row) : Except QueryError Row :=
  p.addLabelled r (if p.wildcard then p.allColumns r else .empty) p.columns

end Projection

end RecordQuery
