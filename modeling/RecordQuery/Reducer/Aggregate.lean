import RecordQuery.Error
import RecordQuery.Text.Slice
import RecordQuery.Value.Order

set_option autoImplicit false

/-!
# Aggregates

An aggregate condenses the values of one column into one value. Its specification is written
`name:column`, where the column `*` stands for the rows themselves.

## Main definitions

* `AggregateKind`, `AggregateSpec` — the aggregates; `AggregateSpec.text`, `AggregateSpec.parse?`
  — their written form.
* `Total` — a running sum, of integers until the first float.
* `Accumulator` — an aggregate in progress; `Accumulator.add` takes a value in,
  `Accumulator.result` gives the outcome.
-/

namespace RecordQuery

/-- The aggregates. -/
inductive AggregateKind where
  /-- How many values there are. -/
  | count
  /-- Their sum. -/
  | sum
  /-- Their sum divided by their number. -/
  | avg
  /-- The least of them. -/
  | min
  /-- The greatest of them. -/
  | max
  deriving DecidableEq, Inhabited

namespace AggregateKind

/-- The name of an aggregate. -/
def name : AggregateKind → String
  | count => "count"
  | sum => "sum"
  | avg => "avg"
  | min => "min"
  | max => "max"

/-- The aggregate of a name in lower case. -/
def ofLowerName? : String → Option AggregateKind
  | "count" => some count
  | "sum" => some sum
  | "avg" => some avg
  | "min" => some min
  | "max" => some max
  | _ => none

/-- The aggregate of a name, whatever its case. -/
def ofName? (name : String) : Option AggregateKind := ofLowerName? (Text.lowerAscii name)

end AggregateKind

/-- An aggregate of a column, or of the rows themselves. -/
structure AggregateSpec where
  /-- The aggregate. -/
  kind : AggregateKind
  /-- The column; without one, the rows are counted. -/
  column : Option String
  deriving DecidableEq, Inhabited

namespace AggregateSpec

/-- A specification as text. -/
def text (s : AggregateSpec) : String := s.kind.name ++ ":" ++ s.column.getD "*"

/-- The specification that a text stands for. The name ends with the first colon. Only counting
applies to whole rows. -/
def parse? (s : String) : Except QueryError AggregateSpec :=
  match Text.splitOnce? ':' s with
  | none => .error (.aggregateArgument s)
  | some (name, column) =>
    match AggregateKind.ofName? name with
    | none => .error (.functionUnknown name)
    | some kind =>
      if column = "*" then
        if kind = .count then .ok ⟨kind, none⟩ else .error (.reducerOfRows kind.name)
      else .ok ⟨kind, some column⟩

end AggregateSpec

/-- A running sum. -/
inductive Total where
  /-- Nothing has been added. -/
  | empty
  /-- Only integers have been added. -/
  | integer (i : Int64)
  /-- A float has been added. -/
  | float (x : Binary64)
  deriving DecidableEq, Inhabited

namespace Total

/-- The sum with a value added. Integer sums stay within the 64-bit integers; values that are no
numbers are passed over. -/
def add : Total → Value → Total
  | empty, .integer i => integer i
  | integer s, .integer i => integer (clampInt64 (s.toInt + i.toInt))
  | float s, .integer i => float (s.add (Binary64.ofInt64 i))
  | empty, .float x => float x
  | integer s, .float x => float ((Binary64.ofInt64 s).add x)
  | float s, .float x => float (s.add x)
  | t, _ => t

/-- The sum as a value, null if nothing was added. -/
def value : Total → Value
  | empty => .null
  | integer i => .integer i
  | float x => .float x

/-- The sum divided by a number of values. -/
def average : Total → Nat → Value
  | empty, _ => .null
  | integer s, n => .float ((Binary64.ofInt64 s).div (Binary64.ofInt n))
  | float s, n => .float (s.div (Binary64.ofInt n))

end Total

/-- An aggregate in progress. -/
structure Accumulator where
  /-- The aggregate. -/
  kind : AggregateKind
  /-- How many values have been taken in. -/
  count : Nat
  /-- Their sum, as far as they are numbers. -/
  total : Total
  /-- The least or greatest of them so far. -/
  extreme : Option Value
  deriving Inhabited

namespace Accumulator

/-- An aggregate that has seen nothing. -/
def start (kind : AggregateKind) : Accumulator := ⟨kind, 0, .empty, none⟩

/-- The value that is kept of the extreme so far and a new value: the new one if the extreme has
the given order to it. Values without an order leave the extreme as it is. -/
def better (o : Ordering) (current : Option Value) (v : Value) : Option Value :=
  match current with
  | none => some v
  | some w => if w.compare? v == some o then some v else some w

/-- Takes in a value that is not null. -/
def addPresent (a : Accumulator) (v : Value) : Accumulator :=
  let a := { a with count := a.count + 1 }
  match a.kind with
  | .count => a
  | .sum | .avg => { a with total := a.total.add v }
  | .min => { a with extreme := better .gt a.extreme v }
  | .max => { a with extreme := better .lt a.extreme v }

/-- Takes in a value. Absent values and null are passed over. -/
def add (a : Accumulator) (v : Option Value) : Accumulator :=
  match v with
  | none => a
  | some v => if v.isNull then a else a.addPresent v

/-- The outcome. -/
def result (a : Accumulator) : Value :=
  match a.kind with
  | .count => .integer (Int64.ofNat a.count)
  | .sum => a.total.value
  | .avg => if a.count = 0 then .null else a.total.average a.count
  | .min | .max => a.extreme.getD .null

end Accumulator

end RecordQuery
