import RecordQuery.Reducer.Group
import RecordQuery.Store.Index

set_option autoImplicit false

/-!
# The store

A store holds sets of records in the order in which they were created, and the definitions of
indexes. It counts how often it was read by each path.

## Main definitions

* `Store`, `RecordSet`, `AccessCounts` — the state.
* `Store.find?`, `Store.recordsOf`, `Store.select` — what a store holds.
* `Store.put`, `Store.delete`, `Store.truncate`, `Store.createIndex`, `Store.dropIndex` — writes.
* `StoreM` — computations on a store that can fail; what they have written before stays.
* `StoreM.get`, `StoreM.getMany`, `StoreM.scan`, `StoreM.aggregate` — counted reading.
-/

namespace RecordQuery

/-- The records of a set by key, in order of creation. -/
abbrev RecordSet := OrderedMap UserKey Bins

/-- How often a store was read by each path. -/
structure AccessCounts where
  /-- Lookups of one key. -/
  gets : Nat
  /-- Lookups of several keys. -/
  batchGets : Nat
  /-- Scans of a set. -/
  scans : Nat
  /-- Aggregations of a set. -/
  aggregations : Nat
  deriving DecidableEq, Inhabited

/-- The counts before the first reading. -/
def AccessCounts.zero : AccessCounts := ⟨0, 0, 0, 0⟩

/-- A store. -/
structure Store where
  /-- The sets by namespace and name. -/
  sets : OrderedMap (String × String) RecordSet
  /-- The indexes, in order of definition. -/
  indexes : List IndexDefinition
  /-- How often the store was read. -/
  counts : AccessCounts

/-- What a write does to a key that exists. -/
inductive WriteMode where
  /-- It leaves the record alone. -/
  | create
  /-- It merges the new bins into the record. -/
  | merge
  deriving DecidableEq

/-- What a scan reads: a set, through an index or not, and the program that accepts records. -/
structure ScanRequest where
  /-- The namespace. -/
  ns : String
  /-- The set. -/
  set : String
  /-- The records that an index leads to; all of them without one. -/
  filter : Option IndexFilter
  /-- The program that accepts records. -/
  program : Program

/-- The elements that a test accepts, in order; the first failing test ends the search. -/
def filterExcept {α : Type} (p : α → Except QueryError Bool) : List α → Except QueryError (List α)
  | [] => return []
  | a :: as => do
    let keep ← p a
    let rest ← filterExcept p as
    return if keep then a :: rest else rest

namespace Store

/-- The store without sets. -/
def empty : Store := ⟨.empty, [], .zero⟩

/-- The store without sets stands for any store. -/
instance : Inhabited Store := ⟨empty⟩

/-- The records of a set by key; none if nobody wrote to it. -/
def recordSet (s : Store) (ns set : String) : RecordSet := (s.sets.get? (ns, set)).getD .empty

/-- The number of records of a set. -/
def size (s : Store) (ns set : String) : Nat := (s.recordSet ns set).size

/-- The record of a key. -/
def find? (s : Store) (k : RecordKey) : Option Record :=
  ((s.recordSet k.ns k.set).get? k.user).map (fun bins => ⟨k, bins⟩)

/-- The records of a set, in order. -/
def recordsOf (s : Store) (ns set : String) : List Record :=
  (s.recordSet ns set).entries.map (fun e => ⟨⟨ns, set, e.1⟩, e.2⟩)

/-- Whether a filter has an index to go through. -/
def serves (s : Store) (ns set : String) (f : IndexFilter) : Bool :=
  s.indexes.any (fun i => i.ns == ns && i.set == set && i.bin == f.bin)

/-- Whether an optional filter visits a record. -/
def visits (f : Option IndexFilter) (r : Record) : Bool :=
  match f with
  | some f => f.accepts r
  | none => true

/-- The records that a scan finds, in order. -/
def select (s : Store) (q : ScanRequest) : Except QueryError (List Record) :=
  let found := filterExcept (fun r => q.program.run r)
    ((s.recordsOf q.ns q.set).filter (visits q.filter))
  match q.filter with
  | some f => if s.serves q.ns q.set f then found else .error (.noIndexFor q.ns q.set f.bin)
  | none => found

/-- The bins of a record after a merge: a null removes its bin, another value is written at the
end. -/
def mergeBins (old new : Bins) : Bins :=
  new.entries.foldl
    (fun bins e => if e.2.isNull then bins.erase e.1 else bins.insert e.1 e.2) old

/-- Bins as they are stored: without nulls. -/
def storedBins (bins : Bins) : Bins := bins.filterValues (fun v => !v.isNull)

/-- Writes a record, and tells whether it did. -/
def put (s : Store) (k : RecordKey) (bins : Bins) (mode : WriteMode) : Bool × Store :=
  let records := s.recordSet k.ns k.set
  match records.get? k.user, mode with
  | some _, .create => (false, s)
  | some old, .merge =>
    (true, { s with sets := s.sets.set (k.ns, k.set) (records.set k.user (mergeBins old bins)) })
  | none, _ =>
    (true, { s with sets := s.sets.set (k.ns, k.set) (records.set k.user (storedBins bins)) })

/-- Removes a record, and tells whether it was there. -/
def delete (s : Store) (k : RecordKey) : Bool × Store :=
  let records := s.recordSet k.ns k.set
  if records.contains k.user then
    (true, { s with sets := s.sets.set (k.ns, k.set) (records.erase k.user) })
  else (false, s)

/-- Removes all records of a set, and tells whether anything was ever written to it. -/
def truncate (s : Store) (ns set : String) : Bool × Store :=
  if s.sets.contains (ns, set) then
    (true, { s with sets := s.sets.set (ns, set) .empty })
  else (false, s)

/-- Defines an index. Names are unique in a namespace. -/
def createIndex (s : Store) (i : IndexDefinition) : Except QueryError Store :=
  if s.indexes.any (fun j => j.ns == i.ns && j.name == i.name) then .error (.indexExists i.name)
  else .ok { s with indexes := s.indexes ++ [i] }

/-- Removes an index. -/
def dropIndex (s : Store) (ns name : String) : Except QueryError Store :=
  if s.indexes.any (fun j => j.ns == ns && j.name == name) then
    .ok { s with indexes := s.indexes.filter (fun j => !(j.ns == ns && j.name == name)) }
  else .error (.indexUnknown name)

/-- The indexes of a namespace. -/
def indexesIn (s : Store) (ns : String) : List IndexDefinition :=
  s.indexes.filter (fun i => i.ns == ns)

/-- The groups of the records that a scan finds. The call is understood before anything is read. -/
def reduce (s : Store) (q : ScanRequest) (call : ReducerCall) : Except QueryError (List Bins) := do
  let reducer ← Reducer.ofCall? call
  let records ← s.select q
  return reducer.reduce (records.map Record.bin?)

end Store

/-- Computations on a store that can fail. A failure keeps what was written before it. -/
abbrev StoreM := ExceptT QueryError (StateM Store)

namespace StoreM

/-- Changes the counts. -/
def count (f : AccessCounts → AccessCounts) : StoreM Unit :=
  modify (fun s => { s with counts := f s.counts })

/-- Looks up one key. -/
def get (k : RecordKey) : StoreM (Option Record) := do
  count (fun c => { c with gets := c.gets + 1 })
  return (← getThe Store).find? k

/-- Looks up several keys. The answers stand in the order of the keys. -/
def getMany (ks : List RecordKey) : StoreM (List (Option Record)) := do
  count (fun c => { c with batchGets := c.batchGets + 1 })
  return ks.map (← getThe Store).find?

/-- The records that a scan finds. -/
def scan (q : ScanRequest) : StoreM (List Record) := do
  count (fun c => { c with scans := c.scans + 1 })
  (← getThe Store).select q

/-- The groups of the records that a scan finds. -/
def aggregate (q : ScanRequest) (call : ReducerCall) : StoreM (List Bins) := do
  count (fun c => { c with aggregations := c.aggregations + 1 })
  (← getThe Store).reduce q call

/-- Writes a record, and tells whether it did. -/
def put (k : RecordKey) (bins : Bins) (mode : WriteMode) : StoreM Bool := do
  let done := (← getThe Store).put k bins mode
  set done.2
  return done.1

/-- Removes a record, and tells whether it was there. -/
def delete (k : RecordKey) : StoreM Bool := do
  let done := (← getThe Store).delete k
  set done.2
  return done.1

/-- Removes all records of a set, and tells whether anything was ever written to it. -/
def truncate (ns name : String) : StoreM Bool := do
  let done := (← getThe Store).truncate ns name
  set done.2
  return done.1

/-- Defines an index. -/
def createIndex (i : IndexDefinition) : StoreM Unit := do
  let s ← (← getThe Store).createIndex i
  set s

/-- Removes an index. -/
def dropIndex (ns name : String) : StoreM Unit := do
  let s ← (← getThe Store).dropIndex ns name
  set s

end StoreM

end RecordQuery
