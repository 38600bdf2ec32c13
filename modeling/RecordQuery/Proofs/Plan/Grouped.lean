import RecordQuery.Proofs.Pipeline.Preparation
import RecordQuery.Proofs.Plan.Column
import RecordQuery.Proofs.Plan.Substitution
import RecordQuery.Proofs.Reducer.Call

set_option autoImplicit false

/-!
# Plans that group the same records

A grouped selection from a set leaves it to the store to group the records; made from a query that
returns these records with all their columns, it groups the rows of that query. The two plans do the
same with the groups, and stay so when they are bound and prepared.

## Main definitions

* `IsBinName` — a name is neither that of the key nor that of its digest.
* `QueryPlan.IsWhole` — a plan returns all columns of what the store finds.
* `QueryPlan.GroupsAlike` — two plans group the same records, in the store and outside of it.

## Main results

* `QueryPlan.GroupsAlike.bind` — binding the two plans.
* `QueryPlan.GroupsAlike.prepare` — preparing them changes nothing.
-/

namespace RecordQuery

open Outcome

/-- A name is neither that of the key nor that of its digest. -/
def IsBinName (name : String) : Prop := name ≠ keyColumn ∧ name ≠ digestColumn

namespace QueryPlan

variable {params : List Value} {base p p' q q' : QueryPlan}

/-- A plan returns all columns of the records that satisfy a condition on their bins. -/
structure IsWhole (p : QueryPlan) : Prop where
  /-- No column is carried besides. -/
  columns : p.columns = []
  /-- All columns are returned. -/
  wildcard : p.wildcard = true
  /-- There is no condition on the key. -/
  keyCondition : p.keyCondition = none
  /-- No condition is decided row by row. -/
  rowFilter : p.rowFilter = none
  /-- There is no condition on groups. -/
  having : p.having = none
  /-- Nothing is reduced. -/
  reduction : p.reduction = none
  /-- Nothing is joined. -/
  joins : p.joins = []
  /-- The rows come as they are read. -/
  orderBy : p.orderBy = []
  /-- No row is skipped. -/
  offset : p.offset = none
  /-- No row is cut off. -/
  limit : p.limit = none
  /-- The rows come from the store. -/
  source : p.source = none
  /-- There are no sub-queries. -/
  subqueries : p.subqueries = []

/-- The plan that does with the rows of a query what another one does with those of a set. -/
def overRows (p base : QueryPlan) (t : TablePlan) : QueryPlan :=
  { p with toTablePlan := t, whereClause := none, source := some (.plan base) }

/-- Two plans group the same records and do the same with the groups. The first one leaves the
grouping to the store; the second one groups the rows of a plan that returns the records. -/
structure GroupsAlike (base p p' : QueryPlan) : Prop where
  /-- The records are returned with all their columns. -/
  whole : base.IsWhole
  /-- They are what the first plan reads. -/
  table : p.toTablePlan = { base.toTablePlan with
    columns := p.columns, needsDigest := p.needsDigest, strategy := p.strategy }
  /-- The first plan reads the store. -/
  source : p.source = none
  /-- There are no sub-queries. -/
  subqueries : p.subqueries = []
  /-- Nothing is joined. -/
  joins : p.joins = []
  /-- No condition is decided row by row. -/
  rowFilter : p.rowFilter = none
  /-- Bins are grouped and aggregated. -/
  reduction : ∃ r, p.reduction = some r ∧ r.call.Names IsBinName
  /-- The second plan does the same with the rows of the plan of the records. -/
  eq : ∃ t, p' = p.overRows base t
  /-- It reads nothing else. -/
  condition : p'.condition = none
  /-- Neither does it read keys. -/
  keyCondition : p'.keyCondition = none
  /-- Both plans carry the same columns. -/
  columns : p.SameColumns p'
  /-- The strategy of the plan of the records is the one for its conditions. -/
  settledBase : base.isSettled
  /-- So is that of the first plan. -/
  settled : p.isSettled

/-- The rows of another query. -/
lemma overRows_of_source (hslots : p.subqueries = []) (bound : QueryPlan) (t : TablePlan) :
    { p.overRows base t with source := some (.plan bound), subqueries := [] } =
      p.overRows bound t := by
  simp only [overRows, hslots]

/-! ## Binding -/

/-- **Binding the plan of the records**, if all parameters of its condition are ones that the store
can be given. -/
lemma IsWhole.bind (h : base.IsWhole) (hbase : base.bind params = .ok q) :
    ∃ c, base.condition.mapM (Condition.bind params) = .ok c ∧
      (Condition.isBoundIn c →
        q.IsWhole ∧ q.isSettled ∧
          q.toTablePlan = { base.toTablePlan with condition := c, strategy := q.strategy }) := by
  obtain ⟨c, k, offset, limit, hc, hk, hoffset, hlimit, hcases⟩ :=
    exists_of_bind h.source h.subqueries h.joins hbase
  refine ⟨c, hc, fun hbound => ?_⟩
  rcases hcases with ⟨-, hchoose⟩ | ⟨hfloat, -⟩
  · rw [h.keyCondition] at hk
    rw [h.offset] at hoffset
    rw [h.limit] at hlimit
    obtain rfl := Except.ok.inj hk
    obtain rfl := Except.ok.inj hoffset
    obtain rfl := Except.ok.inj hlimit
    have hsettled := isSettled_of_chooseStrategy hchoose
    obtain ⟨s, rfl⟩ := eq_of_chooseStrategy hchoose
    refine ⟨{ h with keyCondition := rfl, offset := rfl, limit := rfl }, hsettled, ?_⟩
    simp only [mapTable, h.keyCondition]
  · exact absurd hbound hfloat

/-- **Binding a plan of rows** without conditions binds the plan that the rows come from.

**Proof sketch.** The source is bound, and there are no sub-queries. Conditions that are absent stay
absent and have no float parameter, so only the limits are bound and a strategy is chosen. -/
lemma exists_of_bind_overRows {t : TablePlan} (hslots : p.subqueries = []) (hjoins : p.joins = [])
    (hcondition : t.condition = none) (hkey : t.keyCondition = none)
    (h : (p.overRows base t).bind params = .ok q) :
    ∃ bound offset limit s, base.bind params = .ok bound ∧
      bindRowBound params p.offset = .ok offset ∧ bindRowBound params p.limit = .ok limit ∧
      q = ({ p with offset, limit } : QueryPlan).overRows bound
        { t with condition := none, keyCondition := none, strategy := s } := by
  rw [bind_eq] at h
  obtain ⟨source, hsource, h⟩ := bind_eq_ok.mp h
  obtain ⟨slots, hbound, h⟩ := bind_eq_ok.mp h
  rw [show (p.overRows base t).subqueries = [] from hslots] at hbound
  obtain rfl := Except.ok.inj hbound
  obtain ⟨n, hnode, hsource⟩ := bind_eq_ok.mp hsource
  obtain rfl := Except.ok.inj hsource
  obtain ⟨bound, hbound, hnode⟩ := bind_eq_ok.mp hnode
  obtain rfl := Except.ok.inj hnode
  rw [overRows_of_source hslots] at h
  obtain ⟨c, k, offset, limit, hc, hk, hoffset, hlimit, hcases⟩ :=
    exists_of_bindOwn (p := p.overRows bound t) hjoins h
  rw [show (p.overRows bound t).condition = none from hcondition] at hc
  rw [show (p.overRows bound t).keyCondition = none from hkey] at hk
  obtain rfl := Except.ok.inj hc
  obtain rfl := Except.ok.inj hk
  rcases hcases with ⟨-, hchoose⟩ | ⟨hfloat, -⟩
  · obtain ⟨s, rfl⟩ := eq_of_chooseStrategy hchoose
    exact ⟨bound, offset, limit, s, hbound, hoffset, hlimit, rfl⟩
  · exact absurd (fun d hd => absurd hd (by simp)) hfloat

/-- **Binding the two plans.** A parameter that the store cannot be given is refused by the first
one.

**Proof sketch.** The plan of rows binds the plan that the rows come from, with the same condition
as the first plan. If the condition may be given to the store then both choose their strategies for
it. Otherwise the first plan would need a row filter in front of its reduction, and is refused. -/
theorem GroupsAlike.bind (h : base.GroupsAlike p p') (hp : p.bind params = .ok q)
    (hp' : p'.bind params = .ok q') : ∃ bound : QueryPlan, bound.GroupsAlike q q' := by
  obtain ⟨t, rfl⟩ := h.eq
  obtain ⟨r, hr, hcall⟩ := h.reduction
  have hkey : p.keyCondition = none := by
    rw [h.table]
    exact h.whole.keyCondition
  obtain ⟨bound, offset', limit', s', hbound, hoffset', hlimit', rfl⟩ :=
    exists_of_bind_overRows h.subqueries h.joins h.condition h.keyCondition hp'
  obtain ⟨d, hd, hwhole⟩ := h.whole.bind hbound
  -- the first plan binds the condition of the records
  rw [bind_eq_bindOwn h.source h.subqueries] at hp
  obtain ⟨c, k, offset, limit, hc, hk, hoffset, hlimit, hcases⟩ := exists_of_bindOwn h.joins hp
  obtain rfl := Except.ok.inj (hoffset.symm.trans hoffset')
  obtain rfl := Except.ok.inj (hlimit.symm.trans hlimit')
  rw [hkey] at hk
  obtain rfl := Except.ok.inj hk
  rw [show p.condition = base.condition by rw [h.table]] at hc
  obtain rfl := Except.ok.inj (hc.symm.trans hd)
  rcases hcases with ⟨hstored, hchoose⟩ | ⟨-, hrows, -⟩
  · obtain ⟨hwhole, hsettledBase, htable⟩ := hwhole hstored
    have hsettled := isSettled_of_chooseStrategy hchoose
    obtain ⟨s, rfl⟩ := eq_of_chooseStrategy hchoose
    refine ⟨bound, ?_⟩
    exact {
      whole := hwhole
      table := by
        rw [htable]
        simp only [mapTable]
        rw [h.table, h.whole.keyCondition]
      source := h.source
      subqueries := h.subqueries
      joins := h.joins
      rowFilter := h.rowFilter
      reduction := ⟨r, hr, hcall⟩
      eq := ⟨_, rfl⟩
      condition := rfl
      keyCondition := rfl
      columns := h.columns
      settledBase := hsettledBase
      settled := hsettled }
  · simp [hr, h.source] at hrows

/-! ## Preparing -/

/-- **Preparing the two plans** changes nothing: there are no sub-queries. -/
theorem GroupsAlike.prepare (env : ExecutionEnv) (h : base.GroupsAlike p p') :
    p.prepare env = pure p ∧ p'.prepare env = pure p' := by
  refine ⟨prepare_eq_pure env h.source h.subqueries, ?_⟩
  obtain ⟨t, rfl⟩ := h.eq
  have hnode : (QueryNode.plan base).prepare env = pure (.plan base) := by
    rw [QueryNode.prepare, prepare_eq_pure env h.whole.source h.whole.subqueries, pure_bind]
  rw [prepare_eq, show (p.overRows base t).source = some (.plan base) from rfl]
  change (do
    let source ← (do return some (← (QueryNode.plan base).prepare env))
    QueryPlan.resolve { p.overRows base t with source } (slotRuns env p.subqueries)) = _
  rw [hnode, pure_bind, pure_bind]
  exact resolve_eq_pure (p := p.overRows base t) h.subqueries _

end QueryPlan

end RecordQuery
