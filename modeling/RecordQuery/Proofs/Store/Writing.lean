import RecordQuery.Proofs.OrderedMap
import RecordQuery.Proofs.Store.Records

set_option autoImplicit false

/-!
# Writes to a set

A write changes the records of one set. The other sets stay as they are, and so do the indexes and
the counts of readings. What it does to the set depends on whether its key is there.

## Main definitions

* `Store.AlikeBut` — two stores differ in one set at most.
* `Store.withRecords` — a store in which a set holds given records.

## Main results

* `Store.put_create_of_mem`, `Store.put_of_not_mem`, `Store.put_merge_of_get?` — writing a record
  whose key is there or not.
* `Store.delete_of_mem` — removing a record.
* `StoreM.bind_of_ok`, `StoreM.bind_of_error` — what computations do to the store one after the
  other.
-/

namespace RecordQuery

namespace Store

variable {s t : Store} {ns set : String} {records : RecordSet}

/-! ## Stores that differ in one set -/

/-- All sets but one are the same in two stores, and so are the indexes. -/
structure AlikeBut (ns set : String) (s t : Store) : Prop where
  /-- The other sets are the same. -/
  sets : ∀ id, id ≠ (ns, set) → s.sets.get? id = t.sets.get? id
  /-- The indexes are the same. -/
  indexes : s.indexes = t.indexes

/-- A store differs from itself in no set. -/
lemma AlikeBut.refl (ns set : String) (s : Store) : AlikeBut ns set s s := ⟨fun _ _ => rfl, rfl⟩

/-- Several changes of one set. -/
lemma AlikeBut.trans {u : Store} (h : AlikeBut ns set s t) (h' : AlikeBut ns set t u) :
    AlikeBut ns set s u :=
  ⟨fun id hid => (h.sets id hid).trans (h'.sets id hid), h.indexes.trans h'.indexes⟩

/-- Like stores differ in no set. -/
lemma Alike.alikeBut (h : s.Alike t) (ns set : String) : AlikeBut ns set s t :=
  ⟨fun id _ => by rw [h.sets], h.indexes⟩

/-- The other sets hold the same records. -/
lemma AlikeBut.recordsOf (h : AlikeBut ns set s t) {ns' set' : String}
    (hother : (ns', set') ≠ (ns, set)) : s.recordsOf ns' set' = t.recordsOf ns' set' := by
  rw [Store.recordsOf, Store.recordsOf, recordSet, recordSet, h.sets _ hother]

/-! ## Replacing the records of a set -/

/-- A store in which a set holds given records. -/
def withRecords (s : Store) (ns set : String) (records : RecordSet) : Store :=
  { s with sets := s.sets.set (ns, set) records }

/-- The set holds these records. -/
@[simp]
lemma recordSet_withRecords : (s.withRecords ns set records).recordSet ns set = records := by
  simp [recordSet, withRecords, OrderedMap.get?_set]

/-- The other sets are left alone. -/
lemma alikeBut_withRecords (s : Store) (ns set : String) (records : RecordSet) :
    AlikeBut ns set s (s.withRecords ns set records) := by
  refine ⟨fun id hid => ?_, rfl⟩
  rw [withRecords, OrderedMap.get?_set, if_neg hid]

/-- A set with records is known. -/
lemma mem_keys_of_mem_recordSet {k : UserKey} (h : k ∈ (s.recordSet ns set).keys) :
    (ns, set) ∈ s.sets.keys := by
  by_contra hnot
  rw [recordSet, OrderedMap.get?_eq_none_iff.mpr hnot] at h
  cases h

/-- No other set becomes known. -/
lemma mem_keys_withRecords {id : String × String} :
    id ∈ (s.withRecords ns set records).sets.keys ↔ id ∈ s.sets.keys ∨ id = (ns, set) := by
  rw [withRecords, OrderedMap.keys_set]
  split
  · rename_i hmem
    refine ⟨.inl, ?_⟩
    rintro (h | rfl)
    · exact h
    · exact hmem
  · simp

/-! ## Single writes -/

variable {k : RecordKey} {bins : Bins}

/-- A record that is there is not created. -/
lemma put_create_of_mem (h : k.user ∈ (s.recordSet k.ns k.set).keys) :
    s.put k bins .create = (false, s) := by
  obtain ⟨old, hold⟩ := Option.ne_none_iff_exists'.mp fun hnone =>
    OrderedMap.get?_eq_none_iff.mp hnone h
  simp only [put, hold]

/-- A record that is not there is written with its bins. -/
lemma put_of_not_mem (h : k.user ∉ (s.recordSet k.ns k.set).keys) (mode : WriteMode) :
    s.put k bins mode = (true, s.withRecords k.ns k.set
      ((s.recordSet k.ns k.set).set k.user (storedBins bins))) := by
  simp only [put, OrderedMap.get?_eq_none_iff.mpr h]
  rfl

/-- Bins are merged into a record that is there. -/
lemma put_merge_of_get? {old : Bins} (h : (s.recordSet k.ns k.set).get? k.user = some old) :
    s.put k bins .merge = (true, s.withRecords k.ns k.set
      ((s.recordSet k.ns k.set).set k.user (mergeBins old bins))) := by
  simp only [put, h]
  rfl

/-- A record that is there is removed. -/
lemma delete_of_mem (h : k.user ∈ (s.recordSet k.ns k.set).keys) :
    s.delete k = (true, s.withRecords k.ns k.set ((s.recordSet k.ns k.set).erase k.user)) := by
  simp only [delete, OrderedMap.contains_eq_true.mpr h, if_true]
  rfl

/-- Bins without nulls are stored as they are. -/
lemma storedBins_eq (h : ∀ e ∈ bins.entries, e.2.isNull = false) : storedBins bins = bins := by
  refine OrderedMap.ext ?_
  rw [storedBins, OrderedMap.filterValues]
  exact List.filter_eq_self.mpr fun e he => by simp [h e he]

end Store

/-! ## Runs of computations that write -/

namespace StoreM

variable {α β : Type} {m : StoreM α} {f : α → StoreM β} {s t : Store}

/-- What follows a computation that returned runs on the store that it left. -/
lemma bind_of_ok {a : α} (h : m s = (.ok a, t)) : (m >>= f) s = f a t := by
  change ExceptT.bindCont f (m s).1 (m s).2 = _
  rw [h]
  rfl

/-- Nothing follows a computation that failed. -/
lemma bind_of_error {e : QueryError} (h : m s = (.error e, t)) : (m >>= f) s = (.error e, t) := by
  change ExceptT.bindCont f (m s).1 (m s).2 = _
  rw [h]
  rfl

/-- What writing a record returns and leaves. -/
lemma put_run (k : RecordKey) (bins : Bins) (mode : WriteMode) (s : Store) :
    put k bins mode s = (.ok (s.put k bins mode).1, (s.put k bins mode).2) := rfl

/-- What removing a record returns and leaves. -/
lemma delete_run (k : RecordKey) (s : Store) :
    delete k s = (.ok (s.delete k).1, (s.delete k).2) := rfl

/-- A computation whose outcome is changed. -/
lemma map_of_ok {a : α} (g : α → β) (h : m s = (.ok a, t)) :
    (do return g (← m) : StoreM β) s = (.ok (g a), t) := bind_of_ok h

end StoreM

end RecordQuery
