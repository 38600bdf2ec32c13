import RecordQuery.Record

set_option autoImplicit false

/-!
# Rows

Rows are what expressions are evaluated on and what queries return: values under labels, in order.

## Main definitions

* `Row` — labelled values; `OrderedMap.set` writes one and keeps the place of a label.
* `Row.ofValues` — labels paired with values.
* `Row.contentKey` — what makes two rows duplicates.
* `Row.same` — rows with the same labels in the same order and equal values.
* `Row.ofRecord` — a record as a row.
-/

namespace RecordQuery

/-- Values under labels, in order. -/
abbrev Row := OrderedMap String Value

namespace Row

/-- Labels paired with values, as far as both go. -/
def ofValues (labels : List String) (vs : List Value) : Row := OrderedMap.ofPairs (labels.zip vs)

/-- The bytes that identify the values of a row, whatever their labels. -/
def contentKey (r : Row) : List UInt8 := Value.encodeRow r.values

/-- Whether two rows have the same labels in the same order, with equal values. -/
def same (r s : Row) : Bool := r.keys == s.keys && Value.equalList r.values s.values

/-- A record as a row: its key, on request the digest of its key, and its bins. A bin named like
one of these takes their place. -/
def ofRecord (r : Record) (withDigest : Bool) : Row :=
  let base : Row := OrderedMap.empty.set keyColumn r.key.user.toValue
  let base := if withDigest then base.set digestColumn (.blob r.key.digest) else base
  r.bins.entries.foldl (fun row e => row.set e.1 e.2) base

end Row

end RecordQuery
