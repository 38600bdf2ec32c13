import RecordQuery.Plan.Basic

set_option autoImplicit false

/-!
# Choice of a strategy

A plan reads the store by one strategy. Conditions that name their keys lead to lookups; without a
condition on the key an index is used where one serves a condition; everything else is a scan. An
aggregation is left to the store.

## Main definitions

* `Condition.indexFilter?` — what an index can do for a condition.
* `Condition.splitIndex?` — a condition as a filter and the rest.
* `TablePlan.chooseStrategy`, `QueryPlan.chooseStrategy` — the choice, in place of an earlier one.
-/

namespace RecordQuery

/-- The value of an operand that an index can be asked for. -/
def Operand.indexed? : Operand → Option Value
  | .integer i => some (.integer i)
  | .text s => some (.text s)
  | _ => none

namespace Condition

/-- The filter by which an index decides a condition: an equality, or a range of integers. -/
def indexFilter? (indexes : List IndexDefinition) : Condition → Option IndexFilter
  | compare bin _ .eq o =>
    match o.indexed? with
    | some v =>
      if indexes.any (fun i => i.bin == bin && i.supports o) then some (.equal bin v) else none
    | none => none
  | all [compare bin _ .ge (.integer low), compare other _ .le (.integer high)] =>
    if bin == other && indexes.any (fun i => i.bin == bin && i.type == .numeric) then
      some (.range bin low high)
    else none
  | _ => none

/-- The first filter among several conditions, and the conditions without it. -/
def firstFilter? (indexes : List IndexDefinition) :
    List Condition → Option (IndexFilter × List Condition)
  | [] => none
  | c :: cs =>
    match c.indexFilter? indexes with
    | some f => some (f, cs)
    | none => (firstFilter? indexes cs).map (fun found => (found.1, c :: found.2))

/-- The conjunction of several conditions. -/
def allOf : List Condition → Condition
  | [c] => c
  | cs => all cs

/-- A condition as a filter and what is left to decide. The filter is the whole condition or one of
its conjuncts. -/
def splitIndex? (indexes : List IndexDefinition) (c : Condition) :
    Option (IndexFilter × Option Condition) :=
  match c.indexFilter? indexes with
  | some f => some (f, none)
  | none =>
    match c with
    | all cs => (firstFilter? indexes cs).map (fun found => (found.1, some (allOf found.2)))
    | _ => none

end Condition

/-- Each of several keys, where it occurs first. -/
def distinctKeys (ks : List UserKey) : List UserKey :=
  ks.foldl (fun seen k => if k ∈ seen then seen else seen ++ [k]) []

namespace TablePlan

/-- The filter that an index offers and the program for the rest. -/
def filterAndResidual (p : TablePlan) : Option IndexFilter × Program :=
  match p.condition.bind (Condition.splitIndex? p.indexes) with
  | some (f, rest) => (some f, Condition.programOf rest)
  | none => (none, Condition.programOf p.condition)

/-- The strategy that finds the records of a plan. -/
def readingStrategy (p : TablePlan) : Except QueryError AccessStrategy :=
  let residual := Condition.programOf p.condition
  match p.keyCondition with
  | some (.equal (.key k)) => .ok (.pointLookup k residual)
  | some (.among ks) =>
    if ks.all KeyOperand.isKey then
      .ok (.batchLookup (distinctKeys (ks.filterMap KeyOperand.key?)) residual)
    else do return .fullScan residual (some (← (KeyCondition.among ks).program))
  | some c => do return .fullScan residual (some (← c.program))
  | none =>
    match p.filterAndResidual with
    | (some f, rest) => .ok (.indexScan f rest)
    | (none, rest) => .ok (.fullScan rest none)

/-- The strategy that lets the store reduce the records of a plan. -/
def reducingStrategy (p : TablePlan) (call : ReducerCall) : Except QueryError AccessStrategy := do
  let (filter, residual) := p.filterAndResidual
  let keys ← match p.keyCondition with
    | some c => do pure [← c.program]
    | none => pure []
  return .aggregation filter (Program.conjunction (residual :: keys)) call

/-- The plan with the strategy that finds its records, whatever it had before. -/
def chooseStrategy (p : TablePlan) : Except QueryError TablePlan := do
  let s ← p.readingStrategy
  { p with strategy := none }.commit s

end TablePlan

namespace QueryPlan

/-- The plan with the strategy for what it does, whatever it had before. A plan that does not read
the store has none. -/
def chooseStrategy (p : QueryPlan) : Except QueryError QueryPlan :=
  let cleared := p.mapTable (fun t => { t with strategy := none })
  if p.source.isSome then .ok cleared
  else do
    let s ← match p.reduction with
      | some r => p.reducingStrategy r.call
      | none => p.readingStrategy
    return { cleared with toTablePlan := ← cleared.commit s }

end QueryPlan

end RecordQuery
