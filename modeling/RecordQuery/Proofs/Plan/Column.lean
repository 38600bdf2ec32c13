import Mathlib.Tactic.Common
import RecordQuery.Compile.Grouping
import RecordQuery.Compile.Ordering
import RecordQuery.Pipeline.OfPlan

set_option autoImplicit false

/-!
# Columns of tables in any namespace

A column tells the namespace of its table, but nothing that is done with rows asks for it: neither
adding columns nor returning, computing, grouping or ordering them. So plans whose columns are the
same but for the namespaces can be put in each other's place.

## Main definitions

* `Column.anywhere` — a column without its namespace.
* `QueryPlan.SameColumns` — two plans carry the same columns but for the namespaces.

## Main results

* `QueryPlan.SameColumns.register` — they still do with one more column.
* `QueryPlan.SameColumns.outputMapping_eq`, `QueryPlan.SameColumns.aggregation_eq`,
  `QueryPlan.SameColumns.computed_eq`, `QueryPlan.SameColumns.projection_eq` — what is done with the
  rows of such plans.
-/

namespace RecordQuery

namespace Column

variable {c d : Column}

/-- A column without the namespace of its table. -/
def anywhere (c : Column) : Column := { c with catalog := "" }

/-- The columns that are returned are the same without namespaces. -/
lemma visible_map_anywhere (cs : List Column) :
    visible (cs.map anywhere) = (visible cs).map anywhere :=
  List.filter_map

/-- Their labels are the same. -/
lemma labels_map_anywhere (cs : List Column) : labels (cs.map anywhere) = labels cs := by
  rw [labels, visible_map_anywhere, List.map_map]
  rfl

/-- Whether a column need not be added does not depend on namespaces. -/
lemma isCarriedBy_anywhere (c : Column) (cs : List Column) :
    c.anywhere.isCarriedBy (cs.map anywhere) = c.isCarriedBy cs := by
  simp only [isCarriedBy, anyFrom, List.any_map]
  rfl

/-- One more column among others without namespaces. -/
lemma map_anywhere_add (c : Column) (cs : List Column) :
    (c.add cs).map anywhere = c.anywhere.add (cs.map anywhere) := by
  have herase : (cs.eraseP fun d => !d.isVisible && d.source == c.source).map anywhere =
      (cs.map anywhere).eraseP fun d => !d.isVisible && d.source == c.anywhere.source := by
    rw [List.eraseP_map]
    rfl
  rw [add, add, List.map_append, ← herase]
  change (if c.isVisible then _ else _ : List Column).map anywhere ++ _ =
    (if c.isVisible then _ else _) ++ _
  split <;> rfl

end Column

namespace QueryPlan

/-- Two plans carry the same columns, of tables whose namespaces may differ. -/
def SameColumns (p p' : QueryPlan) : Prop :=
  p.columns.map Column.anywhere = p'.columns.map Column.anywhere

/-- The columns that are computed from rows are the same without namespaces. -/
lemma computedColumns_map_anywhere (p : QueryPlan) (cs : List Column) :
    ({ p with columns := cs.map Column.anywhere } : QueryPlan).computedColumns =
      ({ p with columns := cs } : QueryPlan).computedColumns.map fun found =>
        (found.1.anywhere, found.2) := by
  unfold computedColumns
  rw [List.filterMap_map, List.map_filterMap]
  congr 1
  funext c
  obtain ⟨catalog, table, name, label, source, value, hidden⟩ := c
  cases value <;> first | rfl | (cases hidden <;> rfl)

namespace SameColumns

variable {p p' : QueryPlan}

/-- What does not depend on the namespaces is the same of both plans. -/
lemma congr {α : Type} (h : p.SameColumns p') {f : List Column → α}
    (hf : ∀ cs, f (cs.map Column.anywhere) = f cs) : f p.columns = f p'.columns := by
  rw [← hf p.columns, ← hf p'.columns, show p.columns.map _ = _ from h]

/-- The labels are the same. -/
lemma labels_eq (h : p.SameColumns p') : p.labels = p'.labels :=
  h.congr Column.labels_map_anywhere

/-- **One more column** on both sides. -/
lemma register (h : p.SameColumns p') {c c' : Column} (hc : c.anywhere = c'.anywhere) :
    (p.register 0 c).SameColumns (p'.register 0 c') := by
  have hcarried : c.isCarriedBy p.columns = c'.isCarriedBy p'.columns := by
    rw [← Column.isCarriedBy_anywhere, ← c'.isCarriedBy_anywhere, hc,
      show p.columns.map _ = _ from h]
  unfold QueryPlan.register
  rw [hcarried]
  split
  · exact h
  · change (c.add p.columns).map Column.anywhere = (c'.add p'.columns).map Column.anywhere
    rw [Column.map_anywhere_add, Column.map_anywhere_add, hc, show p.columns.map _ = _ from h]

/-- The columns that are returned at a position have the same place in the rows. -/
lemma source_elementAt? (h : p.SameColumns p') (position : Int) :
    (elementAt? (Column.visible p.columns) position).map Column.source =
      (elementAt? (Column.visible p'.columns) position).map Column.source := by
  refine h.congr (f := fun cs => (elementAt? (Column.visible cs) position).map Column.source)
    fun cs => ?_
  simp only [Column.visible_map_anywhere, elementAt?]
  split
  · rw [List.getElem?_map, Option.map_map]
    rfl
  · rfl

/-- The columns that are returned under a label have the same place in the rows. -/
lemma source_labelledColumn? (h : p.SameColumns p') (c : ColumnRef) :
    (labelledColumn? p c).map Column.source = (labelledColumn? p' c).map Column.source := by
  refine h.congr (f := fun cs => (if c.table.isNone then
    (Column.visible cs).find? (fun d => d.label == c.name) else none).map Column.source)
    fun cs => ?_
  rw [Column.visible_map_anywhere]
  split
  · rw [List.find?_map, Option.map_map]
    rfl
  · rfl

/-- **The output of a reducer** fills the same places. -/
lemma outputMapping_eq (h : p.SameColumns p') : p.outputMapping = p'.outputMapping := by
  refine h.congr (f := fun cs => cs.foldl (addOutput (cs.map Column.source)) []) fun cs => ?_
  rw [List.foldl_map, List.map_map]
  rfl

/-- The same aggregates are asked for. -/
lemma aggregateTexts_eq (h : p.SameColumns p') : p.aggregateTexts = p'.aggregateTexts := by
  refine h.congr (f := fun cs => (cs.filterMap fun c => c.value.spec?.map AggregateSpec.text).foldl
    (fun seen t => if t ∈ seen then seen else seen ++ [t]) []) fun cs => ?_
  rw [List.filterMap_map]
  rfl

/-- **The reduction** of both plans is the same. -/
lemma aggregation_eq (h : p.SameColumns p') (groups : List String) :
    p.aggregation groups = p'.aggregation groups := by
  rw [aggregation, aggregation, h.aggregateTexts_eq, h.outputMapping_eq]

/-- **The same values are computed**, early if no joined table is referred to. -/
lemma computed_eq (h : p.SameColumns p') (test : Expr → Bool) (input : Pipeline)
    (withLabels : Bool) :
    input.computed (p.computedColumns.filter fun c => test c.2) withLabels =
      input.computed (p'.computedColumns.filter fun c => test c.2) withLabels := by
  refine h.congr (f := fun cs => input.computed
    (({ p with columns := cs } : QueryPlan).computedColumns.filter fun c => test c.2) withLabels)
    fun cs => ?_
  simp only [computedColumns_map_anywhere p cs, List.filter_map, Pipeline.computed,
    List.isEmpty_map, List.map_map]
  rfl

/-- **The same columns are returned**, if all of them are on both sides or on neither. -/
lemma projection_eq (h : p.SameColumns p') (wildcard : Bool) (qualifiers : List String)
    (strict : Bool) :
    Projection.ofColumns p.columns wildcard qualifiers strict =
      Projection.ofColumns p'.columns wildcard qualifiers strict := by
  refine h.congr (f := fun cs => Projection.ofColumns cs wildcard qualifiers strict) fun cs => ?_
  rw [Projection.ofColumns, Column.visible_map_anywhere, List.map_map, List.flatMap_map]
  rfl

end SameColumns

end QueryPlan

end RecordQuery
