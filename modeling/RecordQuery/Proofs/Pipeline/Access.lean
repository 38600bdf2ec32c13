import RecordQuery.Pipeline.Access
import RecordQuery.Proofs.Store.Records

set_option autoImplicit false

/-!
# Access to the store

What a strategy finds is fixed by the sets and indexes of the store. In how many parts keys are
looked up makes no difference to it.

## Main definitions

* `TableAccess.records`, `TableAccess.found` — the records that a strategy finds, and their rows.
* `TableAccess.groups` — the groups that the store forms.
* `AccessStrategy.isProper` — no key is looked up twice.

## Main results

* `TableAccess.reads_load`, `TableAccess.reads_loadGroups` — loading finds these records and groups
  and changes nothing.
* `TableAccess.length_found_le` — there are no more of them than the access announces.
-/

namespace RecordQuery

/-! ## Keys in parts -/

section Chunks

variable {α : Type}

/-- The parts of a list make up the list, if as many as necessary are asked for. -/
lemma flatten_chunksWithin {size n : Nat} (hsize : 0 < size) {as : List α} (hn : as.length ≤ n) :
    (chunksWithin size n as).flatten = as := by
  induction n generalizing as with
  | zero =>
    obtain rfl := List.length_eq_zero_iff.mp (Nat.le_zero.mp hn)
    rfl
  | succ n ih =>
    cases as with
    | nil => rfl
    | cons a as =>
      rw [chunksWithin, List.flatten_cons, ih, List.take_append_drop]
      rw [List.length_drop]
      rw [List.length_cons] at hn ⊢
      omega

/-- **The parts of a list make up the list**, whatever their size. -/
lemma flatten_chunks (size : Nat) (as : List α) : (chunks size as).flatten = as :=
  flatten_chunksWithin (by omega) (Nat.le_refl _)

end Chunks

/-- Whether no key is looked up twice. -/
def AccessStrategy.isProper : AccessStrategy → Prop
  | batchLookup keys _ => keys.Nodup
  | _ => True

namespace TableAccess

variable {K : Store} {a : TableAccess}

/-- The records that the strategy finds. -/
def records (a : TableAccess) (K : Store) : Except QueryError (List Record) :=
  match a.strategy with
  | .pointLookup key residual => filterExcept residual.run (K.find? (a.keyOf key)).toList
  | .batchLookup keys residual =>
    filterExcept residual.run (keys.filterMap (fun k => K.find? (a.keyOf k)))
  | .indexScan filter residual => K.select ⟨a.ns, a.set, some filter, residual⟩
  | .fullScan residual keyPredicate =>
    K.select ⟨a.ns, a.set, none, Program.conjunction [residual, keyPredicate.getD []]⟩
  | .aggregation .. => .error .readsReducer

/-- The rows of the records that the strategy finds. -/
def found (a : TableAccess) (K : Store) : Except QueryError (List Row) := do
  return a.rowsOf (← a.records K)

/-- Keeping the records that a program accepts reads nothing. -/
lemma reads_keep (residual : Program) (rs : List Record) :
    (a.keep residual rs).Reads K (do return a.rowsOf (← filterExcept residual.run rs)) :=
  (StoreM.Reads.lift _).map a.rowsOf

/-- Looking up keys in parts finds the same records as looking them up at once.

**Proof sketch.** By induction on the parts. Looking up the first part and the others in turn reads
the same records as looking up all keys, since filtering a concatenation filters its parts one after
the other. -/
lemma reads_loadChunks (residual : Program) (parts : List (List UserKey)) :
    (a.loadChunks residual parts).Reads K (do
      return a.rowsOf (← filterExcept residual.run
        (parts.flatten.filterMap (fun k => K.find? (a.keyOf k))))) := by
  induction parts with
  | nil => exact .pure _
  | cons ks parts ih =>
    have hsplit : (do return a.rowsOf (← filterExcept residual.run
          (((ks :: parts).flatten).filterMap (fun k => K.find? (a.keyOf k)))) :
          Except QueryError (List Row)) = (do
        let found ← (.ok ((ks.map a.keyOf).map K.find?) : Except QueryError (List (Option Record)))
        let rows ← (do
          return a.rowsOf (← filterExcept residual.run (found.filterMap id)) :
            Except QueryError (List Row))
        let others ← (do
          return a.rowsOf (← filterExcept residual.run
            (parts.flatten.filterMap (fun k => K.find? (a.keyOf k)))) :
            Except QueryError (List Row))
        return rows ++ others) := by
      have hks : ((ks.map a.keyOf).map K.find?).filterMap id =
          ks.filterMap (fun k => K.find? (a.keyOf k)) := by
        rw [List.filterMap_map, List.filterMap_map]
        rfl
      rw [List.flatten_cons, List.filterMap_append, filterExcept_append, Outcome.ok_bind, hks]
      cases filterExcept residual.run (ks.filterMap (fun k => K.find? (a.keyOf k))) with
      | error e => rfl
      | ok kept =>
        cases filterExcept residual.run
            (parts.flatten.filterMap (fun k => K.find? (a.keyOf k))) with
        | error e => rfl
        | ok others => simp [rowsOf, pure, Except.pure]
    rw [hsplit]
    exact (StoreM.reads_getMany _).bind fun found _ =>
      (reads_keep residual (found.filterMap id)).bind fun rows _ =>
        ih.bind fun others _ => .pure _

/-- **Loading finds the records of the strategy**, however many keys are looked up at a time. -/
theorem reads_load (a : TableAccess) (batchSize : Nat) (K : Store) :
    (a.load batchSize).Reads K (a.found K) := by
  unfold load found records
  cases a.strategy with
  | pointLookup key residual =>
    exact (StoreM.reads_get _).bind fun found _ => reads_keep residual found.toList
  | batchLookup keys residual =>
    have hload := reads_loadChunks (a := a) (K := K) residual (chunks batchSize keys)
    rwa [flatten_chunks] at hload
  | indexScan filter residual => exact (StoreM.reads_scan _).map a.rowsOf
  | fullScan residual keyPredicate => exact (StoreM.reads_scan _).map a.rowsOf
  | aggregation filter residual call => exact .throw _

/-- The groups that the store forms, as rows. -/
def groups (a : TableAccess) (mapping : OutputMapping) (K : Store) :
    Except QueryError (List Row) :=
  match a.strategy with
  | .aggregation filter residual call => do
    return (← K.reduce ⟨a.ns, a.set, filter, residual⟩ call).map mapping.row
  | s => .error (.cannotAggregate s.name)

/-- Loading groups returns those that the store forms. -/
lemma reads_loadGroups (a : TableAccess) (mapping : OutputMapping) (K : Store) :
    (a.loadGroups mapping).Reads K (a.groups mapping K) := by
  unfold loadGroups groups
  cases a.strategy with
  | aggregation filter residual call =>
    exact (StoreM.reads_aggregate _ call).map (List.map mapping.row)
  | pointLookup key residual => exact .throw _
  | batchLookup keys residual => exact .throw _
  | indexScan filter residual => exact .throw _
  | fullScan residual keyPredicate => exact .throw _

/-- A scan finds records of the set, in their order. -/
lemma select_sublist {q : ScanRequest} {rs : List Record} (h : K.select q = .ok rs) :
    rs.Sublist (K.recordsOf q.ns q.set) := by
  have hfound : filterExcept (fun r => q.program.run r)
      ((K.recordsOf q.ns q.set).filter (Store.visits q.filter)) = .ok rs := by
    unfold Store.select at h
    split at h
    · split at h
      · exact h
      · cases h
    · exact h
  exact (sublist_filterExcept hfound).trans List.filter_sublist

/-- A scan finds no more records than there are. -/
lemma length_select_le {q : ScanRequest} {rs : List Record} (h : K.select q = .ok rs) :
    rs.length ≤ K.size q.ns q.set := by
  rw [← Store.length_recordsOf]
  exact (select_sublist h).length_le

/-- **A strategy finds records of the set.** -/
theorem mem_recordsOf_of_records {rs : List Record} (h : a.records K = .ok rs) {r : Record}
    (hr : r ∈ rs) : r ∈ K.recordsOf a.ns a.set := by
  have hfind : ∀ k, K.find? (a.keyOf k) = some r → r ∈ K.recordsOf a.ns a.set := fun k hk =>
    (Store.find?_eq_some_iff.mp hk).1
  unfold records at h
  split at h
  · have hmem := (sublist_filterExcept h).subset hr
    exact hfind _ (Option.mem_toList.mp hmem)
  · have hmem := (sublist_filterExcept h).subset hr
    obtain ⟨k, -, hk⟩ := List.mem_filterMap.mp hmem
    exact hfind k hk
  · exact (select_sublist h).subset hr
  · exact (select_sublist h).subset hr
  · cases h

/-- **There are no more rows than the access announces**, if no key is looked up twice.

**Proof sketch.** By the strategy. A point lookup finds at most one record. A batch of distinct keys
finds records of the set that have one of these keys. A scan selects among the records of the set.
-/
theorem length_found_le {rows : List Row} (hproper : a.strategy.isProper)
    (h : a.found K = .ok rows) : rows.length ≤ a.bound K := by
  simp only [found, Outcome.bind_eq_ok, Outcome.pure_eq_ok] at h
  obtain ⟨rs, hrs, rfl⟩ := h
  rw [rowsOf, List.length_map, bound]
  unfold records at hrs
  cases hs : a.strategy with
  | pointLookup key residual =>
    simp only [hs] at hrs
    have hle := (sublist_filterExcept hrs).length_le
    have hone := Option.length_toList_le (o := K.find? (a.keyOf key))
    omega
  | batchLookup keys residual =>
    simp only [hs] at hrs
    have hkeys : keys.Nodup := by simpa [hs, AccessStrategy.isProper] using hproper
    have hle := (sublist_filterExcept hrs).length_le
    have hfound := (Store.perm_filterMap_find? K a.ns a.set hkeys).length_eq
    have hset := (List.filter_sublist (p := Record.hasKey keys)
      (l := K.recordsOf a.ns a.set)).length_le
    have hsize := Store.length_recordsOf K a.ns a.set
    simp only [keyOf] at hle
    omega
  | indexScan filter residual =>
    simp only [hs] at hrs
    exact Nat.le_succ_of_le (length_select_le hrs)
  | fullScan residual keyPredicate =>
    simp only [hs] at hrs
    exact Nat.le_succ_of_le (length_select_le hrs)
  | aggregation filter residual call =>
    simp only [hs] at hrs
    cases hrs

end TableAccess

end RecordQuery
