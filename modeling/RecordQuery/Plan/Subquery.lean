import RecordQuery.Plan.Binding

set_option autoImplicit false

/-!
# Results of sub-queries

The sub-queries of a plan's condition run before the plan does. Their values take the place of
their slots, and the strategy is chosen again. A null among the values equals nothing.

## Main definitions

* `SubquerySlot.checkColumns`, `SubquerySlot.values` — what is required of a sub-query.
* `Condition.substitute`, `KeyCondition.substitute` — conditions with values for their slots.
* `QueryPlan.resolve` — a plan with the results of its sub-queries.
-/

namespace RecordQuery

namespace SubquerySlot

/-- A sub-query that names its columns names one. -/
def checkColumns (s : SubquerySlot) : Except QueryError Unit :=
  let first := s.node.firstPlan
  if !first.wildcard && first.labels.length != 1 then .error (.columnCount first.labels.length)
  else .ok ()

/-- The values of rows with one column. -/
def singleValues : List Row → Except QueryError (List Value)
  | [] => return []
  | r :: rs => do
    match r.values with
    | [v] =>
      let vs ← singleValues rs
      return v :: vs
    | _ => throw (.columnCount r.size)

/-- The values of a sub-query with these rows. Beside a comparison there is at most one. -/
def values (s : SubquerySlot) (rows : List Row) : Except QueryError (List Value) := do
  let vs ← singleValues rows
  match s.context with
  | .scalar c => if 1 < vs.length then throw (.tooManyRows c.symbol) else return vs
  | .among => return vs

end SubquerySlot

/-- The values that the sub-queries returned, by slot. -/
abbrev SlotResults := List (List Value)

namespace SlotResults

/-- The values of a slot. -/
def all (rs : SlotResults) (slot : Nat) : Except QueryError (List Value) :=
  match rs[slot]? with
  | some vs => .ok vs
  | none => .error (.subqueryNotRun slot)

/-- The values of a slot that are not null. -/
def present (rs : SlotResults) (slot : Nat) : Except QueryError (List Value) := do
  return (← rs.all slot).filter (fun v => !v.isNull)

/-- The one value of a slot, null if there is none. -/
def scalar (rs : SlotResults) (slot : Nat) : Except QueryError Value := do
  return (← rs.all slot).head?.getD .null

end SlotResults

/-- The operand that a value of a sub-query is for the store. Floats are none. -/
def Value.slotOperand (v : Value) : Except QueryError Operand := do
  match ← v.operand? with
  | some o => return o
  | none => throw .floatSubquery

namespace Condition

/-- The comparisons of a bin with each of several values. -/
def equalities (bin : String) (kind : BinKind) : List Value → Except QueryError (List Condition)
  | [] => return []
  | v :: vs => do
    let o ← v.slotOperand
    let cs ← equalities bin kind vs
    return compare bin (kind.orOf o) .eq o :: cs

mutual

/-- A condition with the values of its slots. -/
def substitute (rs : SlotResults) : Condition → Except QueryError Condition
  | compare bin kind c (.slot slot) => do
    let o ← (← rs.scalar slot).slotOperand
    return compare bin (kind.orOf o) c o
  | inSlot bin kind slot => do
    let vs ← rs.present slot
    return any (← equalities bin kind vs)
  | all cs => do return all (← substituteList rs cs)
  | any cs => do return any (← substituteList rs cs)
  | c => .ok c

/-- Several conditions with the values of their slots. -/
def substituteList (rs : SlotResults) : List Condition → Except QueryError (List Condition)
  | [] => return []
  | c :: cs => do
    let d ← substitute rs c
    let ds ← substituteList rs cs
    return d :: ds

end

end Condition

/-- A key with the value of its slot; none for a null. -/
def KeyOperand.substitute (rs : SlotResults) : KeyOperand → Except QueryError (Option KeyOperand)
  | .slot index => do
    let v ← rs.scalar index
    if v.isNull then return none
    return some (.key (← UserKey.ofValue? v))
  | k => .ok (some k)

namespace KeyCondition

/-- The keys that values stand for. -/
def keysOf : List Value → Except QueryError (List KeyOperand)
  | [] => return []
  | v :: vs => do
    let k ← UserKey.ofValue? v
    let ks ← keysOf vs
    return .key k :: ks

mutual

/-- A condition on the key with the values of its slots. -/
def substitute (rs : SlotResults) : KeyCondition → Except QueryError KeyCondition
  | inSlot slot => do
    let vs ← rs.present slot
    return among (← keysOf vs)
  | equal k => do return ((← k.substitute rs).map equal).getD none
  | notEqual k => do return ((← k.substitute rs).map notEqual).getD none
  | all cs => do return conjunction (← substituteList rs cs)
  | c => .ok c

/-- Several conditions on the key with the values of their slots. -/
def substituteList (rs : SlotResults) : List KeyCondition → Except QueryError (List KeyCondition)
  | [] => return []
  | c :: cs => do
    let d ← substitute rs c
    let ds ← substituteList rs cs
    return d :: ds

end

end KeyCondition

/-- The values of sub-queries that run one after the other. Each is checked before it runs and its
rows before the next one. -/
def slotResults {m : Type → Type} [Monad m] [MonadLiftT (Except QueryError) m] :
    List SubquerySlot → List (m (List Row)) → m SlotResults
  | s :: ss, run :: runs => do
    liftM s.checkColumns
    let rows ← run
    let vs ← liftM (s.values rows)
    let rest ← slotResults ss runs
    return vs :: rest
  | _, _ => return []

namespace QueryPlan

/-- A plan with values for the slots of its conditions and the strategy that they allow. -/
def substitute (p : QueryPlan) (rs : SlotResults) : Except QueryError QueryPlan := do
  let condition ← p.condition.mapM (Condition.substitute rs)
  let keyCondition ← p.keyCondition.mapM (KeyCondition.substitute rs)
  { p with condition, keyCondition }.chooseStrategy

/-- A plan with the results of its sub-queries, each of which is run by the action in its place. -/
def resolve {m : Type → Type} [Monad m] [MonadLiftT (Except QueryError) m] (p : QueryPlan)
    (runs : List (m (List Row))) : m QueryPlan :=
  if p.subqueries.isEmpty then return p
  else do
    let rs ← slotResults p.subqueries runs
    liftM (p.substitute rs)

end QueryPlan

end RecordQuery
