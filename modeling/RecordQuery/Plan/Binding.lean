import RecordQuery.Expr.Eval
import RecordQuery.Plan.Strategy

set_option autoImplicit false

/-!
# Binding of parameters

Binding gives the parameters of a plan their values and chooses its strategies again. A null among
keys finds nothing. A float is no operand of the store: where the whole condition can be decided
row by row instead it is, and elsewhere binding fails.

## Main definitions

* `Value.operand?` — the operand that a value is for the store.
* `Condition.bind`, `KeyCondition.bind`, `RowBound.bind` — binding of the parts of a plan.
* `TablePlan.bind`, `QueryPlan.bind`, `QueryNode.bind`, `StatementPlan.bind` — binding of plans.
-/

namespace RecordQuery

/-- The kind as which a bin is read: the given one, or that of the operand if it was unknown. -/
def BinKind.orOf (kind : BinKind) (o : Operand) : BinKind :=
  if kind = .unknown then o.kind else kind

/-- The operand that a value is for the store. It has none for floats. -/
def Value.operand? : Value → Except QueryError (Option Operand)
  | .integer i => .ok (some (.integer i))
  | .boolean b => .ok (some (.integer (boolInt b)))
  | .text s => .ok (some (.text s))
  | .null => .ok (some .null)
  | .float _ => .ok none
  | v@(.blob _) => .error (.predicateKind v.kind)
  | v@(.list _) => .error (.predicateKind v.kind)

/-- Whether a value can stand for an integer in a comparison. -/
def Value.isIntegral : Value → Bool
  | .integer _ => true
  | .boolean _ => true
  | _ => false

/-- An operand with its parameter replaced, and the kind as which the bin is then read. A bin that
is read as an integer admits integers only, and a float leaves the parameter where it is. -/
def Operand.bind (params : List Value) (o : Operand) (kind : BinKind) :
    Except QueryError (Operand × BinKind) :=
  match o with
  | .param index => do
    let v ← param? params index
    if kind = .integer ∧ !v.isIntegral then throw (.betweenParameter index v.kind)
    match ← v.operand? with
    | some bound => return (bound, kind.orOf bound)
    | none => return (o, kind)
  | _ => .ok (o, kind)

namespace Condition

/-- A condition with its parameters replaced, except those that are floats. -/
def bind (params : List Value) (c : Condition) : Except QueryError Condition :=
  c.mapOperands (Operand.bind params)

mutual

/-- The parameters of a condition, left to right. -/
def params : Condition → List Nat
  | compare _ _ _ (.param index) => [index]
  | compare .. => []
  | inSlot .. => []
  | all cs => paramsIn cs
  | any cs => paramsIn cs

/-- The parameters of several conditions, left to right. -/
def paramsIn : List Condition → List Nat
  | [] => []
  | c :: cs => params c ++ paramsIn cs

end

end Condition

/-- A key with its parameter replaced; none for a null. -/
def KeyOperand.bind (params : List Value) : KeyOperand → Except QueryError (Option KeyOperand)
  | .param index => do
    let v ← param? params index
    if v.isNull then return none
    return some (.key (← UserKey.ofValue? v))
  | k => .ok (some k)

namespace KeyCondition

/-- Keys with their parameters replaced, without nulls. -/
def bindKeys (params : List Value) : List KeyOperand → Except QueryError (List KeyOperand)
  | [] => return []
  | k :: ks => do
    let bound ← k.bind params
    let rest ← bindKeys params ks
    return bound.toList ++ rest

mutual

/-- A condition on the key with its parameters replaced. -/
def bind (params : List Value) : KeyCondition → Except QueryError KeyCondition
  | equal k => do return ((← k.bind params).map equal).getD none
  | notEqual k => do return ((← k.bind params).map notEqual).getD none
  | range low high => do
    let l ← low.bind params
    let h ← high.bind params
    match l, h with
    | some l, some h => return range l h
    | _, _ => return none
  | among ks => do return among (← bindKeys params ks)
  | all cs => do return conjunction (← bindList params cs)
  | inSlot slot => .ok (inSlot slot)

/-- Several conditions on the key with their parameters replaced. -/
def bindList (params : List Value) : List KeyCondition → Except QueryError (List KeyCondition)
  | [] => return []
  | c :: cs => do
    let bound ← bind params c
    let rest ← bindList params cs
    return bound :: rest

end

end KeyCondition

/-- A limit or an offset with its parameter replaced. -/
def RowBound.bind (params : List Value) : RowBound → Except QueryError RowBound
  | .param index => do
    match ← param? params index with
    | .integer i =>
      if 0 ≤ i.toInt then return .rows i.toUInt64
      else throw (.rowBoundParameter index (Value.integer i).display)
    | v => throw (.rowBoundParameter index v.display)
  | b => .ok b

/-- An optional limit or offset with its parameter replaced. -/
def bindRowBound (params : List Value) : Option RowBound → Except QueryError (Option RowBound)
  | none => return none
  | some b => do return some (← b.bind params)

namespace TablePlan

/-- A plan with the parameters of its conditions replaced. -/
def bindConditions (params : List Value) (p : TablePlan) : Except QueryError TablePlan := do
  let condition ← p.condition.mapM (Condition.bind params)
  let keyCondition ← p.keyCondition.mapM (KeyCondition.bind params)
  return { p with condition, keyCondition }

/-- The last parameter that binding has left in the condition: a float. -/
def floatParam? (p : TablePlan) : Option Nat :=
  (p.condition.map Condition.params).bind List.getLast?

/-- The plan of a joined table with its parameters replaced. The store has to decide all of it. -/
def bind (params : List Value) (p : TablePlan) : Except QueryError TablePlan := do
  let p ← p.bindConditions params
  match p.floatParam? with
  | some index => throw (.floatParameter index)
  | none => p.chooseStrategy

end TablePlan

/-- Joined tables with their parameters replaced. -/
def bindJoins (params : List Value) : List JoinSpec → Except QueryError (List JoinSpec)
  | [] => return []
  | j :: js => do
    let plan ← j.plan.bind params
    let rest ← bindJoins params js
    return { j with plan } :: rest

namespace QueryPlan

/-- The plan that decides its main condition row by row. A reduction inside the store leaves no
rows to decide on. -/
def filterByRow (p : QueryPlan) (index : Nat) : Except QueryError QueryPlan :=
  match p.whereClause with
  | none => .error (.floatParameter index)
  | some e =>
    if p.reduction.isSome && p.source.isNone then .error (.floatParameter index)
    else .ok { p with condition := none, keyCondition := none, rowFilter := some e }

/-- A plan with its own parameters replaced; its source and its sub-queries are left as they are. -/
def bindOwn (params : List Value) (p : QueryPlan) : Except QueryError QueryPlan := do
  let joins ← bindJoins params p.joins
  let table ← p.toTablePlan.bindConditions params
  let offset ← bindRowBound params p.offset
  let limit ← bindRowBound params p.limit
  let bound := { p with toTablePlan := table, joins, offset, limit }
  match table.floatParam? with
  | some index => (← bound.filterByRow index).chooseStrategy
  | none => bound.chooseStrategy

end QueryPlan

mutual

/-- The plan of a selection with its parameters replaced. -/
def QueryPlan.bind (params : List Value) : QueryPlan → Except QueryError QueryPlan
  | ⟨table, wildcard, rowFilter, whereClause, having, reduction, distinct, joins, orderBy, offset,
      limit, source, subqueries⟩ => do
    let source ← bindSource params source
    let subqueries ← bindSlots params subqueries
    QueryPlan.bindOwn params ⟨table, wildcard, rowFilter, whereClause, having, reduction, distinct,
      joins, orderBy, offset, limit, source, subqueries⟩

/-- The source of a plan with its parameters replaced. -/
def bindSource (params : List Value) : Option QueryNode → Except QueryError (Option QueryNode)
  | none => return none
  | some n => do return some (← n.bind params)

/-- A sub-query with its parameters replaced. -/
def SubquerySlot.bind (params : List Value) : SubquerySlot → Except QueryError SubquerySlot
  | ⟨node, context⟩ => do return ⟨← node.bind params, context⟩

/-- Sub-queries with their parameters replaced. -/
def bindSlots (params : List Value) : List SubquerySlot → Except QueryError (List SubquerySlot)
  | [] => return []
  | s :: ss => do
    let bound ← s.bind params
    let rest ← bindSlots params ss
    return bound :: rest

/-- The plan of a query with its parameters replaced. -/
def QueryNode.bind (params : List Value) : QueryNode → Except QueryError QueryNode
  | .plan p => do return .plan (← p.bind params)
  | .chain c => do return .chain (← c.bind params)

/-- The plan of a set operation with its parameters replaced. -/
def ChainPlan.bind (params : List Value) : ChainPlan → Except QueryError ChainPlan
  | ⟨head, links, orderBy, offset, limit⟩ => do
    let head ← head.bind params
    let links ← bindLinks params links
    let offset ← bindRowBound params offset
    let limit ← bindRowBound params limit
    return ⟨head, links, orderBy, offset, limit⟩

/-- A link with its parameters replaced. -/
def ChainLink.bind (params : List Value) : ChainLink → Except QueryError ChainLink
  | ⟨node, operator⟩ => do return ⟨← node.bind params, operator⟩

/-- Links with their parameters replaced. -/
def bindLinks (params : List Value) : List ChainLink → Except QueryError (List ChainLink)
  | [] => return []
  | l :: ls => do
    let bound ← l.bind params
    let rest ← bindLinks params ls
    return bound :: rest

end

/-- The plan of a statement with its parameters replaced. Written values keep theirs and are
evaluated with them later. -/
def StatementPlan.bind (params : List Value) : StatementPlan → Except QueryError StatementPlan
  | .query n => do return .query (← n.bind params)
  | .update p => do
    let selection ← p.selection.bind params
    let limit ← bindRowBound params p.limit
    return .update { p with selection, limit }
  | .delete p => do
    let selection ← p.selection.bind params
    let limit ← bindRowBound params p.limit
    return .delete { selection, limit }
  | p => .ok p

end RecordQuery
