import RecordQuery.Cursor.Stage
import RecordQuery.Expr.Eval
import RecordQuery.Pipeline.Join
import RecordQuery.Pipeline.Projection

set_option autoImplicit false

/-!
# Pipelines

A pipeline is a tree of stages that turn rows into rows. It says what is done and remembers
nothing; its cursor does the work.

## Main definitions

* `ExecutionEnv` — what is known when rows are computed.
* `Pipeline` — the trees.
* `computeRow`, `sortKeyed`, `relabel` — what single stages do to rows.
* `Pipeline.cursor` — the cursor of a pipeline.
-/

namespace RecordQuery

/-- What is known when rows are computed. -/
structure ExecutionEnv where
  /-- The values of the parameters. -/
  params : List Value
  /-- How many keys are looked up at a time. -/
  batchSize : Nat
  /-- How many rows a sort may hold. -/
  maxSortRows : Option Nat

/-- A tree of stages. -/
inductive Pipeline where
  /-- Given rows. Asking for the row at a given position fails. -/
  | rows (items : List Row) (failAt : Option Nat)
  /-- The records that an access finds. -/
  | fetch (access : TableAccess)
  /-- The groups that the store forms. -/
  | reduce (access : TableAccess) (mapping : OutputMapping)
  /-- The rows on which an expression is true. -/
  | filter (input : Pipeline) (condition : Expr)
  /-- The rows after so many others, up to a limit. -/
  | window (input : Pipeline) (offset : Nat) (limit : Option Nat)
  /-- The rows whose values did not come before. -/
  | distinct (input : Pipeline)
  /-- The rows with computed values in given places, and labels that stand for such places. -/
  | compute (input : Pipeline) (columns : List (String × Expr)) (labels : List (String × String))
  /-- The rows in order, up to a number. -/
  | sort (input : Pipeline) (order : List OrderSpec) (top : Option Nat)
  /-- The rows of two pipelines one after the other, under the given labels. -/
  | append (first second : Pipeline) (labels : Option (List String))
  /-- The groups of the rows. -/
  | aggregate (input : Pipeline) (call : ReducerCall) (mapping : OutputMapping)
  /-- The rows with their partners in a joined table. -/
  | join (input : Pipeline) (spec : JoinSpec)
  /-- The returned columns of the rows. -/
  | project (input : Pipeline) (projection : Projection)

/-! ## Computed columns -/

/-- A row with computed values. Each is computed on what is there before it. -/
def computeColumns (params : List Value) (row : Row) :
    List (String × Expr) → Except QueryError Row
  | [] => .ok row
  | (place, e) :: rest => do
    let v ← e.eval params row
    computeColumns params (row.set place v) rest

/-- A row with a label that stands for a place, unless the row has something under that label. -/
def bindLabel (row : Row) (label : String × String) : Row :=
  if row.contains label.1 then row
  else
    match row.get? label.2 with
    | some v => row.set label.1 v
    | none => row

/-- A row with computed values and with labels for them. -/
def computeRow (params : List Value) (columns : List (String × Expr))
    (labels : List (String × String)) (row : Row) : Except QueryError Row := do
  let row ← computeColumns params row columns
  return labels.foldl bindLabel row

/-! ## Sorting -/

/-- The value by which a row is sorted. -/
def OrderKey.valueOn (params : List Value) (row : Row) : OrderKey → Except QueryError Value
  | column source => .ok ((row.get? source).getD .null)
  | expr e => e.eval params row
  | position n => .ok ((row.values[n - 1]?).getD .null)

/-- The values by which a row is sorted. -/
def sortKey (params : List Value) (row : Row) : List OrderSpec → Except QueryError (List Value)
  | [] => .ok []
  | spec :: specs => do
    let v ← spec.key.valueOn params row
    let vs ← sortKey params row specs
    return v :: vs

/-- The order of two rows by their keys, the first key that differs deciding. -/
def compareKeys : List OrderSpec → List Value → List Value → Ordering
  | spec :: specs, v :: vs, w :: ws =>
    match v.sortOrder w with
    | .eq => compareKeys specs vs ws
    | o => if spec.descending then o.swap else o
  | _, _, _ => .eq

/-- A row with the values by which it is sorted. -/
abbrev KeyedRow := List Value × Row

/-- Takes a row into those to be sorted, last one first, unless these are as many as there may
be. -/
def holdRow (env : ExecutionEnv) (order : List OrderSpec) (held : List KeyedRow) (row : Row) :
    Except QueryError (List KeyedRow) :=
  match env.maxSortRows with
  | some most =>
    if most ≤ held.length then .error (.sortLimit most)
    else do return (← sortKey env.params row order, row) :: held
  | none => do return (← sortKey env.params row order, row) :: held

/-- The rows in order, up to a number. -/
def sortKeyed (order : List OrderSpec) (top : Option Nat) (rows : List KeyedRow) : List Row :=
  let sorted := (stableSort (fun a b => compareKeys order a.1 b.1 == .lt) rows).map Prod.snd
  match top with
  | some n => sorted.take n
  | none => sorted

/-! ## Labels -/

/-- A row under given labels, if it has as many columns as there are labels. -/
def relabel (labels : Option (List String)) (row : Row) : Row :=
  match labels with
  | some ls => if ls.length = row.size ∧ ls ≠ row.keys then Row.ofValues ls row.values else row
  | none => row

/-! ## The cursor of a pipeline -/

/-- The cursor of a pipeline. -/
def Pipeline.cursor (env : ExecutionEnv) : Pipeline → Cursor
  | rows items failAt => .ofRows items failAt
  | fetch access => .ofLoad (access.load env.batchSize) access.bound
  | reduce access mapping => .ofLoad (access.loadGroups mapping) access.bound
  | filter input condition =>
    (input.cursor env).filter (fun row => condition.holdsOn env.params row)
  | window input offset limit => (input.cursor env).window offset limit
  | distinct input => (input.cursor env).distinct
  | compute input columns labels =>
    (input.cursor env).mapRows (computeRow env.params columns labels)
  | sort input order top =>
    (input.cursor env).buffered (holdRow env order) []
      (fun held => sortKeyed order top held.reverse)
  | append first second labels =>
    ((first.cursor env).append (second.cursor env)).mapRows (fun row => .ok (relabel labels row))
  | aggregate input call mapping => (input.cursor env).grouped call mapping
  | join input spec => (input.cursor env).expand (spec.joinRow env.batchSize) spec.bound
  | project input projection => (input.cursor env).mapRows projection.row

end RecordQuery
