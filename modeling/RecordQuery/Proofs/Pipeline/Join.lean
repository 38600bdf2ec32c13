import RecordQuery.Pipeline.Join
import RecordQuery.Proofs.Plan.Strategy

set_option autoImplicit false

/-!
# Partners of rows

The partners of a row are read from the store, and what is found is fixed by its sets and indexes.

## Main definitions

* `JoinSpec.found` — the partners of a row.
* `JoinSpec.rowsFor` — the rows that a row becomes.

## Main results

* `JoinSpec.reads_joinRow` — joining a row reads its partners and changes nothing.
* `JoinSpec.length_rowsFor_le` — a row becomes no more rows than the join announces.
-/

namespace RecordQuery

namespace JoinSpec

variable {j : JoinSpec} {K : Store} {row : Row}

/-- The partners of a row. -/
def found (j : JoinSpec) (K : Store) (row : Row) : Except QueryError (List Row) := do
  match ← j.probe? row with
  | some p => do
    let access ← TableAccess.ofPlan p
    access.found K
  | none => return []

/-- The rows that a row becomes. -/
def rowsFor (j : JoinSpec) (K : Store) (row : Row) : Except QueryError (List Row) := do
  return j.combine row (← j.found K row)

/-- Reading the partners of a row finds them, however many keys are looked up at a time. -/
lemma reads_partners (j : JoinSpec) (batchSize : Nat) (K : Store) (row : Row) :
    (j.partners batchSize row).Reads K (j.found K row) := by
  refine (StoreM.Reads.lift (j.probe? row)).bind fun probe _ => ?_
  cases probe with
  | none => exact .pure _
  | some p =>
    exact (StoreM.Reads.lift (TableAccess.ofPlan p)).bind fun access _ =>
      access.reads_load batchSize K

/-- **Joining a row** reads its partners and changes nothing. -/
theorem reads_joinRow (j : JoinSpec) (batchSize : Nat) (K : Store) (row : Row) :
    (j.joinRow batchSize row).Reads K (j.rowsFor K row) :=
  (j.reads_partners batchSize K row).map (j.combine row)

/-- The plan that finds the partners of a row has chosen a strategy for the joined set.

**Proof sketch.** Matching the value changes the condition on the keys or on the bins and nothing
else, and so leaves the set; the probe is this table with the strategy that is chosen for it. -/
lemma probe?_eq_some {p : TablePlan} (h : j.probe? row = .ok (some p)) :
    ∃ (q : TablePlan) (s : AccessStrategy), q.readingStrategy = .ok s ∧
      p = { q with strategy := some s } ∧ q.ns = j.plan.ns ∧ q.set = j.plan.set ∧
        q.needsDigest = j.plan.needsDigest := by
  unfold probe? at h
  split at h
  · cases h
  · cases h
  · simp only [Outcome.bind_eq_ok] at h
    obtain ⟨o, -, condition, -, h⟩ := h
    split at h
    · rename_i q hq
      simp only [Outcome.bind_eq_ok, Outcome.pure_eq_ok, Option.some.injEq] at h
      obtain ⟨p', hp', rfl⟩ := h
      obtain ⟨s, hs, rfl⟩ := TablePlan.chooseStrategy_eq_ok.mp hp'
      refine ⟨q, s, hs, rfl, ?_⟩
      unfold matchValue? at hq
      split at hq
      · split at hq
        · obtain rfl := Option.some.inj hq
          exact ⟨rfl, rfl, rfl⟩
        · obtain rfl := Option.some.inj hq
          exact ⟨rfl, rfl, rfl⟩
        · cases hq
      · obtain rfl := Option.some.inj hq
        exact ⟨rfl, rfl, rfl⟩
    · cases h

/-- The partners of a row are records of the joined set.

**Proof sketch.** Without a probe there are no partners. Otherwise the probe is on the joined set,
and what its access finds are records of this set. -/
lemma exists_records_of_found {rows : List Row} (h : j.found K row = .ok rows) :
    ∃ rs : List Record, rows = rs.map (fun r => Row.ofRecord r j.plan.needsDigest) ∧
      ∀ r ∈ rs, ∃ set, j.plan.set = some set ∧ r ∈ K.recordsOf j.plan.ns set := by
  simp only [found, Outcome.bind_eq_ok] at h
  obtain ⟨probe, hprobe, h⟩ := h
  cases probe with
  | none =>
    obtain rfl := Except.ok.inj h
    exact ⟨[], rfl, by simp⟩
  | some p =>
    obtain ⟨q, s, -, rfl, hns, hset, hdigest⟩ := probe?_eq_some hprobe
    simp only [Outcome.bind_eq_ok] at h
    obtain ⟨access, haccess, h⟩ := h
    unfold TableAccess.ofPlan at haccess
    split at haccess
    · cases haccess
    · cases haccess
    · rename_i set s' hset' _
      obtain rfl := Except.ok.inj haccess
      simp only [TableAccess.found, Outcome.bind_eq_ok, Outcome.pure_eq_ok] at h
      obtain ⟨rs, hrs, rfl⟩ := h
      refine ⟨rs, by rw [← hdigest]; rfl, fun r hr => ⟨set, by rw [← hset]; exact hset', ?_⟩⟩
      rw [← hns]
      exact TableAccess.mem_recordsOf_of_records hrs hr

/-- There are no more partners than records in the joined set.

**Proof sketch.** Without a probe there are no partners. Otherwise the strategy looks up no key
twice, so that the bound of the access holds, and the set is the joined one. -/
lemma length_found_le {rows : List Row} (h : j.found K row = .ok rows) :
    rows.length ≤ j.bound K := by
  simp only [found, Outcome.bind_eq_ok] at h
  obtain ⟨probe, hprobe, h⟩ := h
  cases probe with
  | none =>
    obtain rfl := Except.ok.inj h
    exact Nat.zero_le _
  | some p =>
    obtain ⟨q, s, hs, rfl, hns, hset, -⟩ := probe?_eq_some hprobe
    simp only [Outcome.bind_eq_ok] at h
    obtain ⟨access, haccess, h⟩ := h
    unfold TableAccess.ofPlan at haccess
    split at haccess
    · cases haccess
    · cases haccess
    · rename_i set s' hset' hs'
      obtain rfl := Except.ok.inj haccess
      obtain rfl := Option.some.inj hs'
      have hle := TableAccess.length_found_le (TablePlan.isProper_of_readingStrategy hs) h
      rw [bound, ← hns, ← hset, show q.set = some set from hset']
      exact hle

/-- **A row becomes no more rows than the join announces.** -/
theorem length_rowsFor_le {rows : List Row} {st : Store} (h : j.rowsFor K row = .ok rows)
    (hst : st.Alike K) : rows.length ≤ j.bound st := by
  simp only [rowsFor, Outcome.bind_eq_ok, Outcome.pure_eq_ok] at h
  obtain ⟨partners, hpartners, rfl⟩ := h
  have hle := length_found_le hpartners
  have hbound : j.bound st = j.bound K := by rw [bound, bound, hst.size]
  rw [hbound]
  unfold combine
  split
  · exact Nat.zero_le _
  · exact Nat.succ_le_succ (Nat.zero_le _)
  · rw [List.length_map]
    exact hle

end JoinSpec

end RecordQuery
