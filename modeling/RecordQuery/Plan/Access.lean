import RecordQuery.Reducer.Group
import RecordQuery.Store.Index

set_option autoImplicit false

/-!
# Access strategies

The ways in which a plan reads the store. A plan has one of them.

## Main definitions

* `AccessStrategy` — the ways to read.
* `AccessStrategy.name`, `AccessStrategy.text` — a strategy in messages.
-/

namespace RecordQuery

/-- A way to read a set of the store. The residual program decides which of the records that are
found are kept. -/
inductive AccessStrategy where
  /-- Looks up one key. -/
  | pointLookup (key : UserKey) (residual : Program)
  /-- Looks up several keys. -/
  | batchLookup (keys : List UserKey) (residual : Program)
  /-- Scans what an index leads to. -/
  | indexScan (filter : IndexFilter) (residual : Program)
  /-- Scans all records; the key may have to satisfy a program too. -/
  | fullScan (residual : Program) (keyPredicate : Option Program)
  /-- Lets the store reduce the records. -/
  | aggregation (filter : Option IndexFilter) (residual : Program) (call : ReducerCall)

namespace AccessStrategy

/-- The name of a strategy. -/
def name : AccessStrategy → String
  | pointLookup .. => "PointLookup"
  | batchLookup .. => "BatchLookup"
  | indexScan .. => "IndexFilteredScan"
  | fullScan .. => "FullScan"
  | aggregation .. => "Aggregation"

/-- A strategy as text: its name and what it looks for. -/
def text : AccessStrategy → String
  | pointLookup key _ => "PointLookup(" ++ key.display ++ ")"
  | batchLookup keys _ => "BatchLookup(" ++ commaSeparated (keys.map UserKey.display) ++ ")"
  | indexScan filter _ => "IndexFilteredScan(" ++ filter.text ++ ")"
  | fullScan _ (some _) => "FullScan(with key predicate)"
  | fullScan _ none => "FullScan"
  | aggregation _ _ call => "Aggregation(" ++ call.text ++ ")"

end AccessStrategy

end RecordQuery
