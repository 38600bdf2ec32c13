import RecordQuery.Pipeline.OfPlan

set_option autoImplicit false

/-!
# Writing

What insertions, updates and deletions do to the store. Updates and deletions first select all
their records and then write them one by one; insertions write row by row. A failure keeps what was
written before it.

## Main definitions

* `selectedRows` — the records that an update or a deletion selects.
* `InsertPlan.run`, `UpdatePlan.run`, `DeletePlan.run` — the changes, and how many records they
  wrote or removed.
-/

namespace RecordQuery

/-- The records that a selection finds, as rows, up to a limit. -/
def selectedRows (env : ExecutionEnv) (p : QueryPlan) (limit : Option RowBound) :
    StoreM (List Row) := do
  let prepared ← p.prepare env
  let access ← TableAccess.ofPlan prepared.toTablePlan
  let found := (Pipeline.fetch access).filtered prepared.rowFilter
  let limit ← limit.mapM (fun b => liftM b.value)
  let kept := match limit with
    | some n => found.window 0 (some n.toNat)
    | none => found
  (kept.cursor env).drain

/-- The key of the record that a row shows. -/
def recordKeyOf (p : QueryPlan) (row : Row) : Except QueryError RecordKey :=
  let set := p.set.getD ""
  match row.get? keyColumn with
  | none => .error (.rowWithoutKey set)
  | some v => do return ⟨p.ns, set, ← UserKey.ofValue? v⟩

/-! ## Insertion -/

/-- The key and the bins of an inserted row, given those of its columns so far. Columns are counted
from a number on. Nulls are no bins. -/
def fillRow (params : List Value) (keyIndex : Nat) :
    Nat → List (String × Expr) → Option UserKey × Bins → Except QueryError (Option UserKey × Bins)
  | _, [], filled => .ok filled
  | i, (name, e) :: rest, (key, bins) => do
    let v ← e.eval params .empty
    if i = keyIndex then
      let k ← UserKey.ofValue? v
      fillRow params keyIndex (i + 1) rest (some k, bins)
    else
      fillRow params keyIndex (i + 1) rest (key, if v.isNull then bins else bins.insert name v)

namespace InsertPlan

/-- Writes one row, and tells whether it did. -/
def runRow (p : InsertPlan) (params : List Value) (values : List Expr) : StoreM Bool := do
  let (key, bins) ← fillRow params p.keyIndex 0 (p.columns.zip values) (none, .empty)
  match key with
  | none => throw (.insertRowWithoutKey p.set)
  | some key =>
    let written ← StoreM.put ⟨p.ns, p.set, key⟩ bins .create
    if !written && !p.ignore then throw (.keyExists key.display p.set)
    return written

/-- Writes rows one after the other, and tells how many it wrote. -/
def runRows (p : InsertPlan) (params : List Value) : List (List Expr) → StoreM Nat
  | [] => return 0
  | values :: rest => do
    let written ← p.runRow params values
    let others ← runRows p params rest
    return (if written then 1 else 0) + others

/-- Writes the rows of an insertion. -/
def run (p : InsertPlan) (env : ExecutionEnv) : StoreM Nat := p.runRows env.params p.rows

end InsertPlan

/-! ## Update -/

/-- The new values of bins, each computed on the row as it is. The last one of a name counts. -/
def assignedBins (params : List Value) (row : Row) :
    List (String × Expr) → Bins → Except QueryError Bins
  | [], bins => .ok bins
  | (name, e) :: rest, bins => do
    let v ← e.eval params row
    assignedBins params row rest (bins.insert name v)

namespace UpdatePlan

/-- Changes the records that rows show, one after the other, and tells how many there are. -/
def runRows (p : UpdatePlan) (params : List Value) : List Row → StoreM Nat
  | [] => return 0
  | row :: rest => do
    let key ← recordKeyOf p.selection row
    let bins ← assignedBins params row p.assignments .empty
    let _ ← StoreM.put key bins .merge
    let others ← runRows p params rest
    return 1 + others

/-- Changes the selected records. -/
def run (p : UpdatePlan) (env : ExecutionEnv) : StoreM Nat := do
  p.runRows env.params (← selectedRows env p.selection p.limit)

end UpdatePlan

/-! ## Deletion -/

namespace DeletePlan

/-- Removes the records that rows show, one after the other, and tells how many there were. -/
def runRows (p : DeletePlan) : List Row → StoreM Nat
  | [] => return 0
  | row :: rest => do
    let key ← recordKeyOf p.selection row
    let removed ← StoreM.delete key
    let others ← runRows p rest
    return (if removed then 1 else 0) + others

/-- Removes the selected records. -/
def run (p : DeletePlan) (env : ExecutionEnv) : StoreM Nat := do
  p.runRows (← selectedRows env p.selection p.limit)

end DeletePlan

end RecordQuery
