import RecordQuery.Proofs.Cursor.Complete
import RecordQuery.Proofs.OrderedMap
import RecordQuery.Proofs.Pipeline.Catalog

set_option autoImplicit false

/-!
# Rows under labels

The rows of a selection that names its columns stand under their labels, in order. A row that is put
to those of another selection takes over its labels and keeps its values.

## Main results

* `Projection.entries_row` — what returned rows hold, under the labels of the projection.
* `keys_relabel`, `values_relabel` — rows under new labels.
* `QueryPlan.keys_of_listing` — the rows of a selection stand under its labels.
-/

namespace RecordQuery

open Outcome

/-! ## Maps -/

namespace OrderedMap

variable {K V : Type} [DecidableEq K]

/-- Pairs with keys of their own are the entries of their map. -/
lemma entries_ofPairs {ps : List (K × V)} (h : (ps.map Prod.fst).Nodup) :
    (ofPairs ps).entries = ps := by
  have hfold : ∀ (ps : List (K × V)) (m : OrderedMap K V), (m.keys ++ ps.map Prod.fst).Nodup →
      (ps.foldl (fun m p => m.set p.1 p.2) m).entries = m.entries ++ ps := by
    intro ps
    induction ps with
    | nil => exact fun m _ => (List.append_nil _).symm
    | cons p ps ih =>
      intro m hm
      have hp : p.1 ∉ m.keys := fun hmem =>
        (List.nodup_append.mp hm).2.2 p.1 hmem p.1 (by simp) rfl
      have hkeys : (m.set p.1 p.2).keys = m.keys ++ [p.1] := by rw [keys_set, if_neg hp]
      rw [List.foldl_cons, ih, entries_set_of_not_mem hp, List.append_assoc]
      · rfl
      · rw [hkeys, List.append_assoc]
        exact hm
  exact hfold ps empty h

end OrderedMap

/-- Values under labels of their own keep their places. -/
lemma Row.entries_ofValues {labels : List String} {vs : List Value} (hlabels : labels.Nodup)
    (hlength : labels.length = vs.length) : (Row.ofValues labels vs).entries = labels.zip vs := by
  refine OrderedMap.entries_ofPairs ?_
  rwa [List.map_fst_zip (Nat.le_of_eq hlength)]

/-! ## New labels -/

section

variable {labels : List String} {row : Row}

/-- **A row under new labels** stands under them. -/
lemma keys_relabel (hlabels : labels.Nodup) (hlength : row.keys.length = labels.length) :
    (relabel (some labels) row).keys = labels := by
  have hvalues : labels.length = row.values.length := by
    rw [← hlength, OrderedMap.keys, OrderedMap.values, List.length_map, List.length_map]
  simp only [relabel]
  split
  · rw [OrderedMap.keys, Row.entries_ofValues hlabels hvalues,
      List.map_fst_zip (Nat.le_of_eq hvalues)]
  · rename_i hnot
    rw [not_and_not_right] at hnot
    exact (hnot (by rw [← hlength, OrderedMap.keys, List.length_map, OrderedMap.size])).symm

/-- **A row under new labels** keeps its values. -/
lemma values_relabel (hlabels : labels.Nodup) (hlength : row.keys.length = labels.length) :
    (relabel (some labels) row).values = row.values := by
  have hvalues : labels.length = row.values.length := by
    rw [← hlength, OrderedMap.keys, OrderedMap.values, List.length_map, List.length_map]
  simp only [relabel]
  split
  · rw [OrderedMap.values, Row.entries_ofValues hlabels hvalues,
      List.map_snd_zip (Nat.le_of_eq hvalues.symm)]
  · rfl

end

/-! ## Projections -/

namespace Projection

variable {p : Projection} {row returned out : Row} {columns : List (String × String)}

/-- Named columns are added one after the other, each with what stands in its place.

**Proof sketch.** By induction on the columns. A label is none of those returned so far, so its
value goes to the end; a missing value is either refused or null. -/
lemma entries_addLabelled (hwildcard : p.wildcard = false)
    (hcolumns : (returned.keys ++ columns.map Prod.snd).Nodup)
    (h : p.addLabelled row returned columns = .ok out) :
    out.entries = returned.entries ++ columns.map (fun c => (c.2, (row.get? c.1).getD .null)) := by
  induction columns generalizing returned with
  | nil =>
    obtain rfl := Except.ok.inj h
    exact (List.append_nil _).symm
  | cons c columns ih =>
    obtain ⟨source, label⟩ := c
    have hlabel : label ∉ returned.keys := fun hmem =>
      (List.nodup_append.mp hcolumns).2.2 label hmem label (by simp) rfl
    have hrest : ∀ v : Value, p.addLabelled row (returned.set label v) columns = .ok out →
        out.entries = returned.entries ++
          (label, v) :: columns.map (fun c => (c.2, (row.get? c.1).getD .null)) := by
      intro v hv
      have hset : (returned.set label v).keys = returned.keys ++ [label] := by
        rw [OrderedMap.keys_set, if_neg hlabel]
      rw [ih (by rw [hset, List.append_assoc]; exact hcolumns) hv,
        OrderedMap.entries_set_of_not_mem hlabel, List.append_assoc]
      rfl
    rw [addLabelled, hwildcard, Bool.false_and, if_neg Bool.false_ne_true] at h
    simp only [List.map_cons]
    split at h
    · rename_i v hv
      rw [hv]
      exact hrest v h
    · rename_i hnone
      split at h
      · cases h
      · rw [hnone]
        exact hrest .null h

/-- **Returned rows hold what stands in the places of their columns**, under the labels of the
projection, if it names its columns. -/
lemma entries_row (hwildcard : p.wildcard = false) (hcolumns : (p.columns.map Prod.snd).Nodup)
    (h : p.row row = .ok out) :
    out.entries = p.columns.map (fun c => (c.2, (row.get? c.1).getD .null)) := by
  rw [Projection.row, hwildcard, if_neg Bool.false_ne_true] at h
  have hempty : ((OrderedMap.empty : Row).keys ++ p.columns.map Prod.snd).Nodup := hcolumns
  exact entries_addLabelled hwildcard hempty h

/-- So they stand under these labels. -/
lemma keys_row (hwildcard : p.wildcard = false) (hcolumns : (p.columns.map Prod.snd).Nodup)
    (h : p.row row = .ok out) : out.keys = p.columns.map Prod.snd := by
  rw [OrderedMap.keys, entries_row hwildcard hcolumns h, List.map_map]
  rfl

end Projection

/-- The labels of the columns that a plan returns. -/
lemma Projection.labels_ofPlan (p : QueryPlan) :
    (Projection.ofPlan p).columns.map Prod.snd = p.labels := by
  simp only [Projection.ofPlan, Projection.ofColumns, List.map_map]
  rfl

/-- The pipeline of a selection ends with its projection. -/
lemma Pipeline.eq_project_of_ofPlan {p : QueryPlan} {source : Option Pipeline} {P : Pipeline}
    (h : Pipeline.ofPlan p source = .ok P) : ∃ Q, P = .project Q (.ofPlan p) := by
  obtain ⟨base, -, h⟩ := bind_eq_ok.mp h
  obtain ⟨offset, -, h⟩ := bind_eq_ok.mp h
  obtain ⟨limit, -, h⟩ := bind_eq_ok.mp h
  exact ⟨_, (Except.ok.inj h).symm⟩

/-- Rows that are changed come of rows. -/
lemma Listing.exists_of_mem_mapRows {f : Row → Except QueryError Row} {l : Listing} {out : Row}
    (h : out ∈ (l.mapRows f).rows) : ∃ row, f row = .ok out := by
  obtain ⟨rows, failure⟩ := l
  unfold Listing.mapRows Listing.expand at h
  simp only at h
  induction rows with
  | nil => cases h
  | cons row rows ih =>
    rw [Listing.expandRows] at h
    cases hrow : f row with
    | error e =>
      rw [hrow] at h
      cases h
    | ok r =>
      rw [hrow] at h
      rcases List.mem_cons.mp h with rfl | h
      · exact ⟨row, hrow⟩
      · exact ih h

/-- **The rows of a selection stand under its labels**, if it names its columns. -/
theorem QueryPlan.keys_of_listing {p : QueryPlan} {P : Pipeline} {l : Listing} {env : ExecutionEnv}
    {K : Store} (hwildcard : p.wildcard = false) (hlabels : p.labels.Nodup)
    (hpipeline : p.pipeline = .ok P) (hlisting : P.listing env K = .ok l) {row : Row}
    (hrow : row ∈ l.rows) : row.keys = p.labels := by
  rw [QueryPlan.pipeline_eq] at hpipeline
  obtain ⟨source, -, hpipeline⟩ := bind_eq_ok.mp hpipeline
  obtain ⟨Q, rfl⟩ := Pipeline.eq_project_of_ofPlan hpipeline
  simp only [Pipeline.listing] at hlisting
  obtain ⟨below, -, rfl⟩ := map_eq_ok.mp hlisting
  obtain ⟨before, hbefore⟩ := Listing.exists_of_mem_mapRows hrow
  rw [← Projection.labels_ofPlan]
  refine Projection.keys_row hwildcard ?_ hbefore
  rwa [Projection.labels_ofPlan]

end RecordQuery
