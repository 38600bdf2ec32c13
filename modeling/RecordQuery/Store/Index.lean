import RecordQuery.Predicate.Program

set_option autoImplicit false

/-!
# Indexes

A secondary index lets a scan visit only the records with given values in one bin.

## Main definitions

* `IndexType`, `IndexDefinition` — an index and what it serves.
* `IndexFilter`, `IndexFilter.accepts` — the records a scan visits.
* `IndexCatalog` — the indexes known when a statement is compiled.
-/

namespace RecordQuery

/-- What an index orders. -/
inductive IndexType where
  /-- Integers. -/
  | numeric
  /-- Texts. -/
  | text
  deriving DecidableEq, Inhabited

/-- An index on one bin of a set. -/
structure IndexDefinition where
  /-- The namespace of the set. -/
  ns : String
  /-- The set. -/
  set : String
  /-- The bin. -/
  bin : String
  /-- The name of the index. -/
  name : String
  /-- What it orders. -/
  type : IndexType
  deriving DecidableEq, Inhabited

namespace IndexDefinition

/-- Whether an index finds the records whose bin equals a value. -/
def supports (i : IndexDefinition) (o : Operand) : Bool :=
  match i.type, o with
  | .numeric, .integer _ => true
  | .text, .text _ => true
  | _, _ => false

end IndexDefinition

/-- The records that a scan through an index visits. -/
inductive IndexFilter where
  /-- Those whose bin equals a value. -/
  | equal (bin : String) (v : Value)
  /-- Those whose bin is an integer in a range. -/
  | range (bin : String) (low high : Int64)

namespace IndexFilter

/-- The bin that is looked at. -/
def bin : IndexFilter → String
  | equal b _ => b
  | range b _ _ => b

/-- Whether a record is visited. -/
def accepts (f : IndexFilter) (r : Record) : Bool :=
  match f with
  | equal b v =>
    match r.bin? b with
    | some w => w.equal v
    | none => false
  | range b low high =>
    match r.bin? b with
    | some (.integer i) => decide (low.toInt ≤ i.toInt) && decide (i.toInt ≤ high.toInt)
    | _ => false

/-- A filter as text. -/
def text : IndexFilter → String
  | equal b v => b ++ " = " ++ v.display
  | range b low high => b ++ " BETWEEN " ++ intText low.toInt ++ " AND " ++ intText high.toInt

end IndexFilter

/-- The indexes known when a statement is compiled. -/
abbrev IndexCatalog := List IndexDefinition

/-- The indexes on one set. -/
def IndexCatalog.forSet (catalog : IndexCatalog) (ns set : String) : List IndexDefinition :=
  catalog.filter (fun i => i.ns == ns && i.set == set)

end RecordQuery
