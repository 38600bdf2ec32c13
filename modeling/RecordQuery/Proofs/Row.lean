import RecordQuery.Expr.Eval
import RecordQuery.Proofs.OrderedMap

set_option autoImplicit false

/-!
# Reading rows of records

A record becomes a row by writing its key, on request the digest of its key, and its bins one after
the other. What a column finds in such a row is a bin, the key or the digest.

## Main definitions

* `Record.hasSimpleNames` — no bin is named like the key or its digest or has a point in its name.

## Main results

* `Row.get?_ofRecord` — the value under a label.
* `Row.lookup?_ofRecord_bin`, `Row.lookup?_ofRecord_key` — the value that a column finds, if the
  bins have simple names.
-/

namespace RecordQuery

/-- Whether no bin is named like the key or its digest or has a point in its name. -/
def Record.hasSimpleNames (r : Record) : Bool :=
  r.bins.keys.all (fun name =>
    name != keyColumn && name != digestColumn && !name.toList.contains '.')

namespace Row

variable {r : Record} {withDigest : Bool}

/-- The value under a label in a row of a record: a bin, or else the key or its digest. -/
theorem get?_ofRecord (r : Record) (withDigest : Bool) (label : String) :
    (Row.ofRecord r withDigest).get? label =
      (r.bin? label).or
        (if label = digestColumn ∧ withDigest = true then some (.blob r.key.digest)
        else if label = keyColumn then some r.key.user.toValue else none) := by
  rw [Row.ofRecord, OrderedMap.get?_foldl_set _ r.bins.nodup]
  have hbase : (if withDigest = true then
        (OrderedMap.empty.set keyColumn r.key.user.toValue).set digestColumn (.blob r.key.digest)
      else OrderedMap.empty.set keyColumn r.key.user.toValue).get? label =
      (if label = digestColumn ∧ withDigest = true then some (.blob r.key.digest)
        else if label = keyColumn then some r.key.user.toValue else none) := by
    cases withDigest <;> simp [OrderedMap.get?_set]
  rw [hbase]
  rfl

/-- The labels in a row of a record are those of the key, its digest and the bins. -/
lemma mem_keys_ofRecord {label : String} (h : label ∈ (Row.ofRecord r withDigest).keys) :
    label = keyColumn ∨ label = digestColumn ∨ label ∈ r.bins.keys := by
  by_contra hnot
  simp only [not_or] at hnot
  obtain ⟨hkey, hdigest, hbin⟩ := hnot
  have hget : (Row.ofRecord r withDigest).get? label = none := by
    rw [get?_ofRecord, Record.bin?, OrderedMap.get?_eq_none_iff.mpr hbin]
    simp [hkey, hdigest]
  exact OrderedMap.get?_eq_none_iff.mp hget h

/-! ## Simple names -/

/-- A bin with a point in its name is not there. -/
lemma bin?_eq_none_of_point (h : r.hasSimpleNames = true) {name : String}
    (hname : '.' ∈ name.toList) : r.bin? name = none := by
  rw [Record.bin?, OrderedMap.get?_eq_none_iff]
  intro hmem
  have hsimple := List.all_eq_true.mp h name hmem
  simp [hname] at hsimple

/-- A bin named like the key or its digest is not there. -/
lemma bin?_eq_none_of_reserved (h : r.hasSimpleNames = true) {name : String}
    (hname : name = keyColumn ∨ name = digestColumn) : r.bin? name = none := by
  rw [Record.bin?, OrderedMap.get?_eq_none_iff]
  intro hmem
  have hsimple := List.all_eq_true.mp h name hmem
  rcases hname with rfl | rfl <;> simp at hsimple

/-- A label with a point is not in a row of a record whose bins have simple names. -/
lemma get?_ofRecord_of_point (h : r.hasSimpleNames = true) {label : String}
    (hlabel : '.' ∈ label.toList) : (Row.ofRecord r withDigest).get? label = none := by
  have hkey : label ≠ keyColumn := by
    rintro rfl
    revert hlabel
    decide
  have hdigest : label ≠ digestColumn := by
    rintro rfl
    revert hlabel
    decide
  rw [get?_ofRecord, bin?_eq_none_of_point h hlabel]
  simp [hkey, hdigest]

/-- No label of a row of a record whose bins have simple names ends with a point and a name. -/
lemma find?_endsWith_ofRecord (h : r.hasSimpleNames = true) (name : String) :
    (Row.ofRecord r withDigest).entries.find? (fun e => Text.endsWith ("." ++ name) e.1) =
      none := by
  rw [List.find?_eq_none]
  intro e he hends
  have hpoint : '.' ∈ e.1.toList := by
    have hsuffix : ("." ++ name).toList <:+ e.1.toList := List.isSuffixOf_iff_suffix.mp hends
    exact hsuffix.subset (by simp)
  have hnone : (Row.ofRecord r withDigest).get? e.1 = none := get?_ofRecord_of_point h hpoint
  exact OrderedMap.get?_eq_none_iff.mp hnone (List.mem_map_of_mem he)

/-- **What a column finds in a row of a record** whose bins have simple names is what stands under
the column's name, whatever table it is written with. -/
theorem lookup?_ofRecord (h : r.hasSimpleNames = true) (c : ColumnRef) :
    (Row.ofRecord r withDigest).lookup? c = (Row.ofRecord r withDigest).get? c.name := by
  unfold Row.lookup?
  cases c.table with
  | none =>
    simp only [find?_endsWith_ofRecord h, Option.map_none, Option.or_none]
  | some t =>
    have hpoint : '.' ∈ (t ++ "." ++ c.name).toList := by simp
    simp only [get?_ofRecord_of_point h hpoint, Option.none_or]

/-- A column finds the bin of its name. -/
lemma lookup?_ofRecord_bin (h : r.hasSimpleNames = true) {c : ColumnRef}
    (hkey : c.name ≠ keyColumn) (hdigest : c.name ≠ digestColumn) :
    (Row.ofRecord r withDigest).lookup? c = r.bin? c.name := by
  rw [lookup?_ofRecord h, get?_ofRecord]
  simp [hkey, hdigest]

/-- The column of the key finds the key. -/
lemma lookup?_ofRecord_key (h : r.hasSimpleNames = true) {c : ColumnRef}
    (hkey : c.name = keyColumn) :
    (Row.ofRecord r withDigest).lookup? c = some r.key.user.toValue := by
  have hne : keyColumn ≠ digestColumn := by decide
  rw [lookup?_ofRecord h, get?_ofRecord, hkey, bin?_eq_none_of_reserved h (.inl rfl)]
  simp [hne]

end Row

end RecordQuery
