import RecordQuery.Reducer.Aggregate
import RecordQuery.Row

set_option autoImplicit false

/-!
# Reducers

A reducer groups its inputs by the values of some columns and aggregates each group. Groups stand
in the order in which they first occurred. The store is told what to reduce by a call whose
arguments are texts.

## Main definitions

* `ReducerCall` — a call; `ReducerCall.stats`, `ReducerCall.groupBy`, `ReducerCall.distinct`.
* `Reducer`, `Reducer.ofCall?` — what a call asks for.
* `Groups`, `Groups.feed`, `Groups.ofInputs` — the groups of the inputs so far.
* `Reducer.output` — the bins that describe the groups.
* `OutputMapping` — how these bins become rows.
-/

namespace RecordQuery

/-- A call of a reducer by name, with arguments. -/
structure ReducerCall where
  /-- The family of reducers. -/
  family : String
  /-- The function in the family. -/
  function : String
  /-- The arguments. -/
  args : List String
  deriving DecidableEq, Inhabited

namespace ReducerCall

/-- A call as text. -/
def text (c : ReducerCall) : String :=
  c.family ++ "." ++ c.function ++ "(" ++ commaSeparated c.args ++ ")"

/-- The family that aggregates all inputs as one group. -/
def statsFamily : String := "stats"

/-- The family that groups by columns. -/
def groupByFamily : String := "groupby"

/-- The family that lists the values of a column. -/
def distinctFamily : String := "distinct"

/-- What stands before a grouping column in an argument. -/
def groupMark : String := "groupby:"

/-- The call that aggregates all inputs as one group. -/
def stats (specs : List String) : ReducerCall := ⟨statsFamily, "single_bin_stats", specs⟩

/-- The call that groups by columns and aggregates each group. -/
def groupBy (columns specs : List String) : ReducerCall :=
  ⟨groupByFamily, "groupby", columns.map (groupMark ++ ·) ++ specs⟩

/-- The call that lists the values of a column. -/
def distinct (column : String) : ReducerCall := ⟨distinctFamily, "distinct", [column]⟩

end ReducerCall

/-- What a reducer groups by and aggregates. -/
structure Reducer where
  /-- The grouping columns. -/
  columns : List String
  /-- The aggregates of each group. -/
  specs : List AggregateSpec
  deriving DecidableEq, Inhabited

namespace Reducer

/-- The specifications that arguments stand for. -/
def parseSpecs : List String → Except QueryError (List AggregateSpec)
  | [] => return []
  | arg :: args => do
    let s ← AggregateSpec.parse? arg
    let ss ← parseSpecs args
    return s :: ss

/-- The grouping columns and specifications that arguments stand for. An argument that begins with
the mark is a column. -/
def parseGroupArgs : List String → Except QueryError (List String × List AggregateSpec)
  | [] => return ([], [])
  | arg :: args =>
    match Text.dropPrefix? ReducerCall.groupMark arg with
    | some column => do
      let rest ← parseGroupArgs args
      return (column :: rest.1, rest.2)
    | none => do
      let s ← AggregateSpec.parse? arg
      let rest ← parseGroupArgs args
      return (rest.1, s :: rest.2)

/-- What a call asks for. -/
def ofCall? (call : ReducerCall) : Except QueryError Reducer :=
  if call.family = ReducerCall.statsFamily then do return ⟨[], ← parseSpecs call.args⟩
  else if call.family = ReducerCall.groupByFamily then do
    let parsed ← parseGroupArgs call.args
    if parsed.1.isEmpty then throw .groupingWithoutColumn
    return ⟨parsed.1, parsed.2⟩
  else if call.family = ReducerCall.distinctFamily then
    match call.args with
    | [column] => .ok ⟨[column], []⟩
    | _ => .error .distinctColumns
  else .error (.reducerUnknown call.family)

/-- The aggregates of a group that has no input yet. -/
def fresh (r : Reducer) : List Accumulator := r.specs.map (fun s => Accumulator.start s.kind)

/-- The values by which an input is grouped; an absent one is null. -/
def keyOf (r : Reducer) (lookup : String → Option Value) : List Value :=
  r.columns.map (fun c => (lookup c).getD .null)

/-- The aggregates of a group with one more input. -/
def addInput (r : Reducer) (lookup : String → Option Value) (as : List Accumulator) :
    List Accumulator :=
  List.zipWith (fun (s : AggregateSpec) a =>
    match s.column with
    | none => a.add (some (.integer 1))
    | some c => a.add (lookup c)) r.specs as

end Reducer

/-- Groups in order of first occurrence: the values they are grouped by and their aggregates. -/
abbrev Groups := List (List Value × List Accumulator)

namespace Groups

/-- Whether two lists of values name one group: they are equal and also the same bit by bit. So a
NaN is not even in its own group.

The groups are entries of a hash table whose keys are equal by value and are hashed by their bits.
For `0.0` and `-0.0`, which are equal and have different hashes, a hash table does not specify
whether the entry of one is found under the other. The model takes the usual outcome, that keys with
different hashes are not compared, so the two zeros are different groups. -/
def sameKey (k l : List Value) : Bool := Value.equalList k l && Value.identicalList k l

/-- Takes an input into the first group with its key. -/
def update (r : Reducer) (lookup : String → Option Value) (key : List Value) : Groups → Groups
  | [] => []
  | g :: gs =>
    if sameKey g.1 key then (g.1, r.addInput lookup g.2) :: gs
    else g :: update r lookup key gs

/-- Takes in one input: opens its group if there is none and updates the group. -/
def feed (r : Reducer) (gs : Groups) (lookup : String → Option Value) : Groups :=
  let key := r.keyOf lookup
  let opened := if gs.any (fun g => sameKey g.1 key) then gs else gs ++ [(key, r.fresh)]
  update r lookup key opened

/-- The groups of a sequence of inputs. -/
def ofInputs (r : Reducer) (inputs : List (String → Option Value)) : Groups :=
  inputs.foldl (feed r) []

end Groups

namespace Reducer

/-- The bins that describe one group: the grouping columns, then the aggregates under their written
forms. -/
def describe (r : Reducer) (g : List Value × List Accumulator) : Bins :=
  OrderedMap.ofInserts
    (r.columns.zip g.1 ++ (r.specs.map AggregateSpec.text).zip (g.2.map Accumulator.result))

/-- The bins that describe the groups. Without grouping columns there is one group even if there
was no input. -/
def output (r : Reducer) (gs : Groups) : List Bins :=
  (if r.columns.isEmpty && gs.isEmpty then [([], r.fresh)] else gs).map r.describe

/-- The groups of a sequence of inputs, described. -/
def reduce (r : Reducer) (inputs : List (String → Option Value)) : List Bins :=
  r.output (Groups.ofInputs r inputs)

end Reducer

/-- The labels of a row and the bins of reducer output that they show. -/
abbrev OutputMapping := List (String × String)

namespace OutputMapping

/-- The row that shows a description of a group; a missing bin is null. -/
def row (m : OutputMapping) (bins : Bins) : Row :=
  OrderedMap.ofPairs (m.map (fun e => (e.2, (bins.get? e.1).getD .null)))

end OutputMapping

end RecordQuery
