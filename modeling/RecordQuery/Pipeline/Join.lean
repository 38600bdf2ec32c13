import RecordQuery.Pipeline.Access

set_option autoImplicit false

/-!
# Joins

A joined table is read once for every row of the tables before it. The reading looks for the
records whose column equals a value of that row; other values of the row may stand in the condition
on the table.

## Main definitions

* `Condition.fillOuter` — a condition with the values of a row.
* `JoinSpec.probe?` — the plan that finds the partners of a row.
* `JoinSpec.joinRow` — the rows that a row becomes.
-/

namespace RecordQuery

/-- The operand that a value is in a join. -/
def Value.joinOperand (v : Value) : Except QueryError Operand :=
  match v with
  | .integer i => .ok (.integer i)
  | .boolean b => .ok (.integer (boolInt b))
  | .text s => .ok (.text s)
  | .null => .ok .null
  | v => .error (.joinOn v.kind)

/-- An operand with the value of the row it refers to; an absent value is null. -/
def Operand.fillOuter (row : Row) (o : Operand) (kind : BinKind) :
    Except QueryError (Operand × BinKind) :=
  match o with
  | .outer source => do
    let filled ← match row.get? source with
      | none => pure Operand.null
      | some v => v.joinOperand
    return (filled, filled.kind)
  | o => .ok (o, kind)

/-- A condition with the values of a row. -/
def Condition.fillOuter (row : Row) (c : Condition) : Except QueryError Condition :=
  c.mapOperands (Operand.fillOuter row)

namespace JoinSpec

/-- The plan with the condition that the joined column equals a value; none if the column is the
key and the value is none. -/
def matchValue? (j : JoinSpec) (p : TablePlan) (o : Operand) : Option TablePlan :=
  if j.innerColumn = keyColumn then
    match o with
    | .integer i => some (p.addKeyCondition (.equal (.key (.integer i))))
    | .text s => some (p.addKeyCondition (.equal (.key (.text s))))
    | _ => none
  else some (p.addCondition (.ofOperand j.innerColumn .eq o))

/-- The plan that finds the partners of a row. A row without a value has none. -/
def probe? (j : JoinSpec) (row : Row) : Except QueryError (Option TablePlan) :=
  match row.get? j.outerKey with
  | none => .ok none
  | some .null => .ok none
  | some v => do
    let o ← v.joinOperand
    let condition ← j.plan.condition.mapM (Condition.fillOuter row)
    match j.matchValue? { j.plan with condition } o with
    | some p => return some (← p.chooseStrategy)
    | none => return none

/-- The partners of a row. -/
def partners (j : JoinSpec) (batchSize : Nat) (row : Row) : StoreM (List Row) := do
  match ← j.probe? row with
  | some p =>
    let access ← TableAccess.ofPlan p
    access.load batchSize
  | none => return []

/-- A row with the values of a partner under the name of the joined table. -/
def extend (j : JoinSpec) (row partner : Row) : Row :=
  partner.entries.foldl (fun r e => r.set (j.qualifier ++ "." ++ e.1) e.2) row

/-- A row with null for every column of the joined table that it has no value for. -/
def pad (j : JoinSpec) (row : Row) : Row :=
  j.plan.columns.foldl (fun r c => if r.contains c.source then r else r.set c.source .null) row

/-- The rows that a row becomes with its partners. -/
def combine (j : JoinSpec) (row : Row) (partners : List Row) : List Row :=
  match partners, j.kind with
  | [], .inner => []
  | [], .left => [j.pad row]
  | ps, _ => ps.map (j.extend row)

/-- The rows that a row becomes. -/
def joinRow (j : JoinSpec) (batchSize : Nat) (row : Row) : StoreM (List Row) := do
  return j.combine row (← j.partners batchSize row)

/-- A bound on the number of rows that a row becomes. -/
def bound (j : JoinSpec) (st : Store) : Nat := st.size j.plan.ns (j.plan.set.getD "") + 1

end JoinSpec

end RecordQuery
