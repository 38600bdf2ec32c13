import RecordQuery.Proofs.Pipeline.AllColumns
import RecordQuery.Proofs.Pipeline.Distinct
import RecordQuery.Proofs.Plan.Grouped

set_option autoImplicit false

/-!
# Groups of records and groups of rows

The store groups the records that a scan finds. Where a query returns the records with all their
columns, its rows can be grouped instead, and the groups are the same. What is done with the groups
afterwards is the same too.

## Main definitions

* `Pipeline.ListsAlike` — two pipelines return the same rows if both return some.

## Main results

* `Projection.get?_allColumns` — a row of all columns has the bins of the record.
* `QueryPlan.GroupsAlike.listsAlike_groups` — the groups of the store and those of the rows.
* `QueryPlan.GroupsAlike.rows` — two plans that group the same records return the same rows.
-/

namespace RecordQuery

open Outcome

/-! ## All columns of a record -/

namespace Projection

variable {proj : Projection} {row : Row}

/-- All columns, if none is joined or computed: the row without the key and its digest. -/
lemma allColumns_eq (hcomputed : proj.computed = []) (hqualifiers : proj.qualifiers = []) :
    proj.allColumns row = (row.entries.filter fun e =>
      e.1 != keyColumn && e.1 != digestColumn).foldl (fun m e => m.set e.1 e.2) .empty := by
  rw [allColumns, List.foldl_filter]
  congr 1
  funext returned e
  simp only [addColumn, hcomputed, hqualifiers, bareName_nil]
  by_cases hkey : e.1 = keyColumn <;> by_cases hdigest : e.1 = digestColumn <;>
    simp [hkey, hdigest]

/-- **A row of all columns has what the row has**, but for the key and its digest. -/
theorem get?_allColumns (hcomputed : proj.computed = []) (hqualifiers : proj.qualifiers = [])
    {name : String} (hname : IsBinName name) : (proj.allColumns row).get? name = row.get? name := by
  rw [allColumns_eq hcomputed hqualifiers,
    OrderedMap.get?_foldl_set _ (row.nodup.sublist (List.filter_sublist.map _)), List.find?_filter,
    OrderedMap.get?_empty, Option.or_none]
  unfold OrderedMap.get?
  congr 2
  funext e
  by_cases he : e.1 = name
  · simp [he, hname.1, hname.2]
  · simp [he]

/-- Columns that are returned where every one of them has to be there are returned anyway.

**Proof sketch.** By induction on the columns. A column that the wildcard returned is passed over by
both, and one with a value is returned by both; without a value the strict projection fails. -/
lemma addLabelled_of_strict {out : Row} (strict : Bool) : {columns : List (String × String)} →
    {returned : Row} →
    ({ proj with strict := true } : Projection).addLabelled row returned columns = .ok out →
    ({ proj with strict } : Projection).addLabelled row returned columns = .ok out
  | [], _, h => h
  | column :: columns, returned, h => by
    rw [addLabelled] at h ⊢
    simp only at h ⊢
    split at h
    · rename_i hwildcard
      rw [if_pos hwildcard]
      exact addLabelled_of_strict strict h
    · rename_i hwildcard
      rw [if_neg hwildcard]
      cases hv : row.get? column.1 with
      | some v =>
        rw [hv] at h
        exact addLabelled_of_strict strict h
      | none =>
        rw [hv] at h
        cases h

/-- What is returned where every column has to be there is returned anyway. -/
lemma row_of_strict {out : Row} (h : ({ proj with strict := true } : Projection).row row = .ok out)
    (strict : Bool) : ({ proj with strict } : Projection).row row = .ok out :=
  addLabelled_of_strict strict h

end Projection

/-! ## Stages -/

namespace Pipeline

variable {env : ExecutionEnv} {K : Store} {P Q : Pipeline}

/-- Two pipelines return the same rows if both return some. -/
def ListsAlike (env : ExecutionEnv) (K : Store) (P Q : Pipeline) : Prop :=
  Agree Eq (P.listing env K) (Q.listing env K)

namespace ListsAlike

/-- Rows on which an optional condition is true. -/
lemma filtered (h : ListsAlike env K P Q) (condition : Option Expr) :
    ListsAlike env K (P.filtered condition) (Q.filtered condition) := by
  cases condition with
  | none => exact h
  | some e => exact h.map fun a b => congrArg _

/-- Rows with computed values. -/
lemma computed (h : ListsAlike env K P Q) (columns : List (Column × Expr)) (withLabels : Bool) :
    ListsAlike env K (P.computed columns withLabels) (Q.computed columns withLabels) := by
  unfold Pipeline.computed
  split
  · exact h
  · exact h.map fun a b => congrArg _

/-- Rows in order and within limits. -/
lemma paged (h : ListsAlike env K P Q) (order : List OrderSpec) (offset limit : Option UInt64) :
    ListsAlike env K (P.paged order offset limit) (Q.paged order offset limit) := by
  have hsorted : ListsAlike env K
      (if order.isEmpty then P else P.sort order (topRows offset limit))
      (if order.isEmpty then Q else Q.sort order (topRows offset limit)) := by
    split
    · exact h
    · exact h.map fun a b => congrArg _
  unfold Pipeline.paged
  simp only
  split
  · exact hsorted
  · exact hsorted.map fun a b => congrArg _

end ListsAlike

/-- What a plan does with its groups. -/
def overGroups (p : QueryPlan) (offset limit : Option UInt64) (groups : Pipeline) : Pipeline :=
  (((groups.computed p.earlyColumns true).filtered p.having).computed p.lateColumns false).paged
    p.orderBy offset limit

/-- The pipeline of a plan that reduces its rows and joins nothing. -/
lemma ofPlan_reduced {p : QueryPlan} (hreduction : p.reduction.isSome = true)
    (hjoins : p.joins = []) (source : Option Pipeline) :
    Pipeline.ofPlan p source = (do
      let base ← ofSource p source
      let offset ← p.offset.mapM RowBound.value
      let limit ← p.limit.mapM RowBound.value
      return (overGroups p offset limit base).project (.ofPlan p)) := by
  have hnone : p.reduction.isNone = false := by
    rw [Option.isSome_iff_exists] at hreduction
    obtain ⟨r, hr⟩ := hreduction
    rw [hr]
    rfl
  unfold Pipeline.ofPlan
  simp only [hjoins, hnone]
  rfl

end Pipeline

/-! ## Groups -/

section

variable {env : ExecutionEnv} {K : Store} {t : TablePlan} {a b : TableAccess}

/-- The conjunction of one program. -/
lemma Program.conjunction_single (q : Program) : Program.conjunction [q] = q := by
  cases q <;> simp [Program.conjunction]

/-- Without a condition on the key the records are found by a scan. -/
lemma TableAccess.records_of_readingStrategy (hkey : t.keyCondition = none)
    (hs : t.readingStrategy = .ok a.strategy) :
    a.records K = K.select ⟨a.ns, a.set, t.filterAndResidual.1, t.filterAndResidual.2⟩ := by
  unfold TablePlan.readingStrategy at hs
  simp only [hkey] at hs
  unfold TableAccess.records
  generalize t.filterAndResidual = scan at hs
  obtain ⟨filter, rest⟩ := scan
  cases filter with
  | some f => rw [← Except.ok.inj hs]
  | none =>
    rw [← Except.ok.inj hs]
    exact congrArg (fun q => K.select ⟨a.ns, a.set, none, q⟩) (Program.conjunction_nil rest)

/-- The store groups what the same scan finds. -/
lemma TableAccess.groups_of_reducingStrategy {call : ReducerCall} (hkey : t.keyCondition = none)
    (hs : t.reducingStrategy call = .ok a.strategy) (mapping : OutputMapping) :
    a.groups mapping K = (do
      return (← K.reduce ⟨a.ns, a.set, t.filterAndResidual.1, t.filterAndResidual.2⟩ call).map
        mapping.row) := by
  unfold TablePlan.reducingStrategy at hs
  simp only [hkey] at hs
  unfold TableAccess.groups
  rw [← Except.ok.inj hs]
  simp only [Program.conjunction_single]

namespace QueryPlan

variable {base p p' : QueryPlan} {r : Reduction}

/-- The rows of a plan that returns the records of a scan with all their columns. -/
lemma IsWhole.listing_eq (h : base.IsWhole) :
    (Pipeline.project (.fetch b) (.ofPlan base)).listing env K =
      (b.found K).map fun rows =>
        .ofRows (rows.map (Projection.ofPlan base).allColumns) := by
  have hrow : ∀ row, (Projection.ofPlan base).row row =
      .ok ((Projection.ofPlan base).allColumns row) := by
    intro row
    simp only [Projection.row, Projection.ofPlan, Projection.ofColumns, h.columns, h.wildcard]
    rfl
  simp only [Pipeline.listing]
  cases b.found K with
  | error e => rfl
  | ok rows => exact congrArg Except.ok (Listing.mapRows_ofRows rows hrow)

/-- The pipeline of such a plan. -/
lemma IsWhole.exists_pipeline {X : Pipeline} (h : base.IsWhole) (hX : base.pipeline = .ok X) :
    ∃ b, TableAccess.ofPlan base.toTablePlan = .ok b ∧
      X = .project (.fetch b) (.ofPlan base) := by
  have hcomputed : base.computedColumns = [] := by
    rw [QueryPlan.computedColumns, h.columns]
    rfl
  rw [QueryPlan.pipeline_eq, h.source] at hX
  obtain ⟨input, hinput, hX⟩ := bind_eq_ok.mp hX
  obtain rfl := Except.ok.inj hinput
  rw [Pipeline.ofPlan_eq hcomputed h.having h.joins h.orderBy h.offset h.limit] at hX
  obtain ⟨source, hsource, hX⟩ := bind_eq_ok.mp hX
  simp only [Pipeline.ofSource, h.reduction] at hsource
  obtain ⟨b, hb, hsource⟩ := bind_eq_ok.mp hsource
  obtain rfl := Except.ok.inj hsource
  simp only [h.reduction, h.rowFilter] at hX
  exact ⟨b, hb, (Except.ok.inj hX).symm⟩

/-- **The stages of a plan** that reduces its rows and joins nothing: its groups, what is done with
them, and what is returned of them. -/
lemma exists_groups {P : Pipeline} (hreduction : p.reduction.isSome = true) (hjoins : p.joins = [])
    (h : p.pipeline = .ok P) :
    ∃ input groups offset limit, sourcePipeline p.source = .ok input ∧
      Pipeline.ofSource p input = .ok groups ∧ p.offset.mapM RowBound.value = .ok offset ∧
      p.limit.mapM RowBound.value = .ok limit ∧
      P = (Pipeline.overGroups p offset limit groups).project (.ofPlan p) := by
  rw [QueryPlan.pipeline_eq] at h
  obtain ⟨input, hinput, h⟩ := bind_eq_ok.mp h
  rw [Pipeline.ofPlan_reduced hreduction hjoins] at h
  obtain ⟨groups, hgroups, h⟩ := bind_eq_ok.mp h
  obtain ⟨offset, hoffset, h⟩ := bind_eq_ok.mp h
  obtain ⟨limit, hlimit, h⟩ := bind_eq_ok.mp h
  exact ⟨input, groups, offset, limit, hinput, hgroups, hoffset, hlimit, (Except.ok.inj h).symm⟩

/-- **Both plans scan for the same records**, one to group them and the other to return them.

**Proof sketch.** Both plans have chosen a strategy and read the same set. Without a condition on
the keys both strategies scan with the condition of the bins, which is the same. -/
lemma GroupsAlike.exists_scan (h : base.GroupsAlike p p') (hr : p.reduction = some r)
    (ha : TableAccess.ofPlan p.toTablePlan = .ok a)
    (hb : TableAccess.ofPlan base.toTablePlan = .ok b) :
    ∃ q : ScanRequest, b.records K = K.select q ∧
      a.groups r.mapping K = (do return (← K.reduce q r.call).map r.mapping.row) := by
  obtain ⟨s, hs, hstable⟩ := h.settled.exists_strategy (by simp [h.source])
  obtain ⟨u, hu, hutable⟩ := h.settledBase.exists_strategy (by simp [h.whole.source])
  have hreduce : p.reducingStrategy r.call = .ok s := by simpa [strategyFor, hr] using hs
  have hread : base.readingStrategy = .ok u := by
    simpa [strategyFor, h.whole.reduction] using hu
  obtain ⟨hns, hset⟩ := TableAccess.place_of_ofPlan ha
  obtain ⟨hns', hset'⟩ := TableAccess.place_of_ofPlan hb
  rw [hstable] at ha
  rw [hutable] at hb
  rw [← Pipeline.strategy_of_ofPlan ha] at hreduce
  rw [← Pipeline.strategy_of_ofPlan hb] at hread
  have hplace : a.ns = b.ns ∧ a.set = b.set := by
    rw [h.table] at hns hset
    exact ⟨hns.trans hns'.symm, Option.some.inj (hset.symm.trans hset')⟩
  have hscan : p.filterAndResidual = base.filterAndResidual := by
    rw [h.table]
    rfl
  have hkey : p.keyCondition = none := by
    rw [h.table]
    exact h.whole.keyCondition
  refine ⟨_, TableAccess.records_of_readingStrategy h.whole.keyCondition hread, ?_⟩
  rw [TableAccess.groups_of_reducingStrategy hkey hreduce, hscan, hplace.1, hplace.2]

/-- **A reducer of bins** makes the same of records and of their rows with all columns. -/
lemma GroupsAlike.reduce_allColumns (h : base.GroupsAlike p p') (hr : p.reduction = some r)
    {reducer : Reducer} (hcall : Reducer.ofCall? r.call = .ok reducer) (rs : List Record) :
    reducer.reduce (((b.rowsOf rs).map (Projection.ofPlan base).allColumns).map OrderedMap.get?) =
      reducer.reduce (rs.map Record.bin?) := by
  have hnames : r.call.Names IsBinName := by
    obtain ⟨r', hr', hnames⟩ := h.reduction
    rwa [Option.some.inj (hr'.symm.trans hr)] at hnames
  have hcomputed : (Projection.ofPlan base).computed = [] := by
    simp [Projection.ofPlan, Projection.ofColumns, h.whole.columns]
  have hqualifiers : (Projection.ofPlan base).qualifiers = [] := by
    simp [Projection.ofPlan, Projection.ofColumns, h.whole.joins]
  rw [TableAccess.rowsOf, List.map_map, List.map_map]
  refine Reducer.reduce_congr fun record _ c hc => ?_
  have hname := hnames.of_mem_reads hcall c hc
  simp only [Function.comp_apply, Projection.get?_allColumns hcomputed hqualifiers hname,
    Row.get?_ofRecord]
  simp [hname.1, hname.2]

/-- **The groups of the store and those of the rows.** The same scan finds the records, in the same
order, and the reducer looks at their bins only.

**Proof sketch.** Both listings are unfolded to the groups of a scan that finds the same records. On
the one side the records are reduced, on the other side the rows of all their columns, and the
reducer makes the same of both. -/
theorem GroupsAlike.listsAlike_groups (h : base.GroupsAlike p p') (hr : p.reduction = some r)
    (ha : TableAccess.ofPlan p.toTablePlan = .ok a)
    (hb : TableAccess.ofPlan base.toTablePlan = .ok b) :
    Pipeline.ListsAlike env K (.reduce a r.mapping)
      (.aggregate (.project (.fetch b) (.ofPlan base)) r.call r.mapping) := by
  obtain ⟨q, hrecords, hgroups⟩ := h.exists_scan (K := K) hr ha hb
  intro l l' hl hl'
  -- the store groups the records
  obtain ⟨out, hout, rfl⟩ := map_eq_ok.mp hl
  rw [hgroups] at hout
  obtain ⟨_, hreduced, hout⟩ := bind_eq_ok.mp hout
  obtain ⟨reducer, hcall, hreduced⟩ := bind_eq_ok.mp hreduced
  obtain ⟨rs, hrs, hreduced⟩ := bind_eq_ok.mp hreduced
  obtain rfl := Except.ok.inj hreduced
  obtain rfl := Except.ok.inj hout
  -- the rows of the records are grouped outside of it
  have hfound : b.found K = .ok (b.rowsOf rs) := by
    rw [TableAccess.found, hrecords, hrs]
    rfl
  have hrows : groupRows r.call r.mapping ((b.rowsOf rs).map (Projection.ofPlan base).allColumns) =
      .ok ((reducer.reduce (((b.rowsOf rs).map (Projection.ofPlan base).allColumns).map
        OrderedMap.get?)).map r.mapping.row) := by
    rw [groupRows, hcall]
    rfl
  have hgrouped := Listing.grouped_of_groupRows hrows
  change (Pipeline.project (.fetch b) (.ofPlan base)).listing env K >>= _ = _ at hl'
  rw [h.whole.listing_eq, hfound] at hl'
  obtain rfl := Except.ok.inj (hgrouped.symm.trans hl')
  -- and the reducer makes the same of both
  rw [h.reduce_allColumns hr hcall]

/-- What is done with the groups is the same. -/
lemma GroupsAlike.overGroups_eq (h : base.GroupsAlike p p') (offset limit : Option UInt64)
    (groups : Pipeline) :
    Pipeline.overGroups p' offset limit groups = Pipeline.overGroups p offset limit groups := by
  obtain ⟨t, rfl⟩ := h.eq
  unfold Pipeline.overGroups QueryPlan.earlyColumns QueryPlan.lateColumns
  rw [h.columns.computed_eq (fun e => !p.refersToJoin e),
    h.columns.computed_eq (fun e => p.refersToJoin e)]
  rfl

/-- What the second plan returns of a row, the first one returns too. -/
lemma GroupsAlike.row_of_row (h : base.GroupsAlike p p') {row out : Row}
    (hout : (Projection.ofPlan p').row row = .ok out) :
    (Projection.ofPlan p).row row = .ok out := by
  obtain ⟨t, rfl⟩ := h.eq
  have hprojection : Projection.ofPlan (p.overRows base t) =
      { Projection.ofPlan p with strict := true } := by
    rw [Projection.ofPlan, ← h.columns.projection_eq]
    rfl
  rw [hprojection] at hout
  exact Projection.row_of_strict hout (Projection.ofPlan p).strict

/-- **Two plans that group the same records return the same rows**, if both are read to the end.

**Proof sketch.** The groups are the same (`QueryPlan.GroupsAlike.listsAlike_groups`), and every
stage after them keeps that. Only the last stage is stricter where the rows come from a query, and
what it returns there it returns anyway. -/
theorem GroupsAlike.rows {P Q : Pipeline} {rows rows' : List Row} (h : base.GroupsAlike p p')
    (hP : p.pipeline = .ok P) (hQ : p'.pipeline = .ok Q)
    (hrows : P.listing env K = .ok (.ofRows rows))
    (hrows' : Q.listing env K = .ok (.ofRows rows')) : rows = rows' := by
  obtain ⟨t, ht⟩ := h.eq
  obtain ⟨r, hr, -⟩ := h.reduction
  obtain ⟨input, groups, offset, limit, hinput, hgroups, hoffset, hlimit, rfl⟩ :=
    exists_groups (by rw [hr]; rfl) h.joins hP
  obtain ⟨input', groups', offset', limit', hinput', hgroups', hoffset', hlimit', rfl⟩ :=
    exists_groups (by rw [ht, show (p.overRows base t).reduction = _ from hr]; rfl)
      (by rw [ht]; exact h.joins) hQ
  rw [ht] at hinput' hgroups' hoffset' hlimit'
  obtain rfl := Except.ok.inj (hoffset.symm.trans hoffset')
  obtain rfl := Except.ok.inj (hlimit.symm.trans hlimit')
  have hbase : Pipeline.ListsAlike env K groups groups' := by
    obtain ⟨X, hX, hinput'⟩ := bind_eq_ok.mp hinput'
    obtain rfl := Except.ok.inj hinput'
    rw [h.source] at hinput
    obtain rfl := Except.ok.inj hinput
    simp only [Pipeline.ofSource, hr] at hgroups
    obtain ⟨a, ha, hgroups⟩ := bind_eq_ok.mp hgroups
    obtain rfl := Except.ok.inj hgroups
    simp only [Pipeline.ofSource, overRows, hr, h.rowFilter] at hgroups'
    obtain rfl := Except.ok.inj hgroups'
    obtain ⟨b, hb, rfl⟩ := h.whole.exists_pipeline hX
    exact h.listsAlike_groups hr ha hb
  have hlists : Pipeline.ListsAlike env K (Pipeline.overGroups p offset limit groups)
      (Pipeline.overGroups p' offset limit groups') := by
    rw [h.overGroups_eq]
    exact (((hbase.computed _ _).filtered _).computed _ _).paged _ _ _
  obtain ⟨l, hl, hmapped⟩ := map_eq_ok.mp hrows
  obtain ⟨l', hl', hmapped'⟩ := map_eq_ok.mp hrows'
  obtain rfl := hlists l l' hl hl'
  obtain ⟨-, hshown⟩ := Listing.exists_of_mapRows hmapped
  obtain ⟨-, hshown'⟩ := Listing.exists_of_mapRows hmapped'
  -- what is returned of a row is the same where both return it
  refine List.map_injective_iff.mpr (fun _ _ => Option.some.inj) ?_
  rw [map_eq_map_of_mapM (g := fun row => ((Projection.ofPlan p).row row).toOption) hshown
      fun row _ out hout => by rw [hout]; rfl,
    map_eq_map_of_mapM (g := fun row => ((Projection.ofPlan p).row row).toOption) hshown'
      fun row _ out hout => by rw [h.row_of_row hout]; rfl]

end QueryPlan

end

end RecordQuery
