import RecordQuery.Plan.Strategy
import RecordQuery.Row
import RecordQuery.Store.Basic

set_option autoImplicit false

/-!
# Access to the store

How a strategy reads the store: the records that it finds, and the groups that the store forms.

## Main definitions

* `TableAccess` — a set and the strategy that reads it.
* `TableAccess.load` — the records that a strategy finds, as rows.
* `TableAccess.loadGroups` — the groups that the store forms, as rows.
-/

namespace RecordQuery

/-- The consecutive parts of a list, of a given size but for the last, as many as asked for. -/
def chunksWithin {α : Type} (size : Nat) : Nat → List α → List (List α)
  | 0, _ => []
  | _ + 1, [] => []
  | n + 1, a :: as => (a :: as).take size :: chunksWithin size n ((a :: as).drop size)

/-- The consecutive parts of a list, of a given size but for the last. -/
def chunks {α : Type} (size : Nat) (as : List α) : List (List α) :=
  chunksWithin (max size 1) as.length as

/-- How a set is read. -/
structure TableAccess where
  /-- The namespace. -/
  ns : String
  /-- The set. -/
  set : String
  /-- The strategy. -/
  strategy : AccessStrategy
  /-- Whether rows carry the digest of the key. -/
  withDigest : Bool

namespace TableAccess

/-- The access that a plan has chosen. -/
def ofPlan (p : TablePlan) : Except QueryError TableAccess :=
  match p.set, p.strategy with
  | none, _ => .error .readsSubquery
  | some set, none => .error (.noStrategy p.ns set)
  | some set, some strategy => .ok ⟨p.ns, set, strategy, p.needsDigest⟩

/-- The key of a record of the set. -/
def keyOf (a : TableAccess) (k : UserKey) : RecordKey := ⟨a.ns, a.set, k⟩

/-- Records as rows. -/
def rowsOf (a : TableAccess) (rs : List Record) : List Row :=
  rs.map (fun r => Row.ofRecord r a.withDigest)

/-- The records that a program accepts, as rows. -/
def keep (a : TableAccess) (residual : Program) (rs : List Record) : StoreM (List Row) := do
  return a.rowsOf (← filterExcept residual.run rs)

/-- The records of the keys in several parts, each part looked up at once. -/
def loadChunks (a : TableAccess) (residual : Program) : List (List UserKey) → StoreM (List Row)
  | [] => return []
  | ks :: rest => do
    let found ← StoreM.getMany (ks.map a.keyOf)
    let rows ← a.keep residual (found.filterMap id)
    let others ← loadChunks a residual rest
    return rows ++ others

/-- The records that a scan finds, as rows. -/
def loadScan (a : TableAccess) (filter : Option IndexFilter) (program : Program) :
    StoreM (List Row) := do
  return a.rowsOf (← StoreM.scan ⟨a.ns, a.set, filter, program⟩)

/-- The records that the strategy finds, as rows. So many keys are looked up at a time. -/
def load (a : TableAccess) (batchSize : Nat) : StoreM (List Row) :=
  match a.strategy with
  | .pointLookup key residual => do
    let found ← StoreM.get (a.keyOf key)
    a.keep residual found.toList
  | .batchLookup keys residual => a.loadChunks residual (chunks batchSize keys)
  | .indexScan filter residual => a.loadScan (some filter) residual
  | .fullScan residual keyPredicate =>
    a.loadScan none (Program.conjunction [residual, keyPredicate.getD []])
  | .aggregation .. => throw .readsReducer

/-- The groups that the store forms, as rows. -/
def loadGroups (a : TableAccess) (mapping : OutputMapping) : StoreM (List Row) :=
  match a.strategy with
  | .aggregation filter residual call => do
    let groups ← StoreM.aggregate ⟨a.ns, a.set, filter, residual⟩ call
    return groups.map mapping.row
  | s => throw (.cannotAggregate s.name)

/-- A bound on the number of rows: the size of the set, and one for the group of no record. -/
def bound (a : TableAccess) (st : Store) : Nat := st.size a.ns a.set + 1

end TableAccess

end RecordQuery
