import RecordQuery.Proofs.Fault.Access
import RecordQuery.Proofs.Pipeline.Preparation

set_option autoImplicit false

/-!
# Pipelines have no grave failures of their own

The pipeline of a prepared plan reads every table by a strategy that is fit for it, and such a
pipeline has no grave failure but those of the parameters in its expressions. Preparing a bound plan
runs the pipelines of its sub-queries, which are prepared first, so it has no others either.

## Main definitions

* `Pipeline.IsFit` — every table of a pipeline is read by a strategy that is fit for it, and the
  parameters in its expressions do not fail in a given way.
* `QueryPlan.IsSupplied`, `ChainPlan.IsSupplied` — neither do those of a plan.

## Main results

* `Pipeline.IsFit.avoids_cursor` — neither does the cursor of such a pipeline.
* `QueryPlan.IsPrepared.ofPlan` — the stages of a prepared plan make such a pipeline.
* `QueryNode.avoids_prepare` — neither does the preparation of a bound query, and then it has such a
  pipeline.
-/

namespace RecordQuery

open Outcome

/-! ## Loading -/

/-- Loading records by a strategy that finds them. -/
lemma TableAccess.load_benign {a : TableAccess} (h : a.strategy.CanFind) (batchSize : Nat) :
    (a.load batchSize).Benign :=
  .of_reads (a.reads_load batchSize) (a.found_benign h)

/-- Loading groups by a strategy that leaves them to the store. -/
lemma TableAccess.loadGroups_benign {a : TableAccess} (h : a.strategy.CanReduce)
    (mapping : OutputMapping) : (a.loadGroups mapping).Benign :=
  .of_reads (a.reads_loadGroups mapping) (a.groups_benign h mapping)

/-- Joining a row. -/
lemma JoinSpec.joinRow_benign {j : JoinSpec} (h : j.plan.isWithin ⟨fun _ => false, true, 0⟩ = true)
    (batchSize : Nat) (row : Row) : (j.joinRow batchSize row).Benign :=
  .of_reads (fun K => j.reads_joinRow batchSize K row) fun K => j.rowsFor_benign h K row

/-- A limit does not fail in a given way, if there is one. -/
def RowBound.IsSupplied (bad : QueryError → Bool) (b : Option RowBound) : Prop :=
  ∀ c ∈ b, Avoids bad (fun _ => True) c.value

/-- The value of such a limit. -/
lemma RowBound.IsSupplied.mapM_value {bad : QueryError → Bool} {b : Option RowBound}
    (h : IsSupplied bad b) : Avoids bad (fun _ => True) (b.mapM RowBound.value) :=
  (Avoids.mapM h).mono fun _ _ => trivial

/-! ## Pipelines -/

namespace Pipeline

variable {P Q : Pipeline} {env : ExecutionEnv} {bad : QueryError → Bool} {params : List Value}

/-- Every table of a pipeline is read by a strategy that is fit for it, no joined table waits for
more than a row, and the parameters in expressions do not fail in a given way. -/
def IsFit (bad : QueryError → Bool) (params : List Value) : Pipeline → Prop
  | rows _ _ => True
  | fetch access => access.strategy.CanFind
  | reduce access _ => access.strategy.CanReduce
  | filter input condition => input.IsFit bad params ∧ condition.AvoidsParams bad params
  | compute input columns _ =>
    input.IsFit bad params ∧ ∀ c ∈ columns, c.2.AvoidsParams bad params
  | sort input order _ => input.IsFit bad params ∧ ∀ o ∈ order, o.key.AvoidsParams bad params
  | window input _ _ | distinct input | aggregate input _ _ | project input _ =>
    input.IsFit bad params
  | append first second _ => first.IsFit bad params ∧ second.IsFit bad params
  | join input spec => input.IsFit bad params ∧ spec.plan.isWithin ⟨fun _ => false, true, 0⟩ = true

/-- **The cursor of a fit pipeline does not fail in the given way.** By induction on the pipeline:
no stage adds such a failure. -/
theorem IsFit.avoids_cursor [QueryError.Grave bad] (h : P.IsFit bad env.params) :
    (P.cursor env).Avoids bad := by
  induction P with
  | rows items failAt => exact .ofRows items failAt
  | fetch access => exact .ofLoad (.of_safe (access.load_benign h _)) access.bound
  | reduce access mapping =>
    exact .ofLoad (.of_safe (access.loadGroups_benign h mapping)) access.bound
  | filter input condition ih => exact (ih h.1).filter h.2.holdsOn
  | window input offset limit ih => exact (ih h).window offset limit
  | distinct input ih => exact (ih h).distinct
  | compute input columns labels ih => exact (ih h.1).mapRows (computeRow_avoids h.2 labels)
  | sort input order top ih => exact (ih h.1).buffered (holdRow_avoids h.2) _ _
  | append first second labels ih ih' => exact ((ih h.1).append (ih' h.2)).mapRows fun _ => trivial
  | aggregate input call mapping ih => exact (ih h).grouped call mapping
  | join input spec ih =>
    exact (ih h.1).expand (fun row => .of_safe (spec.joinRow_benign h.2 env.batchSize row)) _
  | project input projection ih =>
    exact (ih h).mapRows fun row => .of_safe (projection.row_benign row)

/-- Filtered rows. -/
lemma IsFit.filtered (h : P.IsFit bad params) {condition : Option Expr}
    (hcondition : ∀ e ∈ condition, e.AvoidsParams bad params) :
    (P.filtered condition).IsFit bad params := by
  cases condition with
  | none => exact h
  | some e => exact ⟨h, hcondition e rfl⟩

/-- Rows with computed values. -/
lemma IsFit.computed (h : P.IsFit bad params) {columns : List (Column × Expr)}
    (hcolumns : ∀ c ∈ columns, c.2.AvoidsParams bad params) (withLabels : Bool) :
    (P.computed columns withLabels).IsFit bad params := by
  unfold Pipeline.computed
  split
  · exact h
  · refine ⟨h, fun c hc => ?_⟩
    obtain ⟨d, hd, rfl⟩ := List.mem_map.mp hc
    exact hcolumns d hd

/-- Rows in order and within limits. -/
lemma IsFit.paged (h : P.IsFit bad params) {order : List OrderSpec}
    (horder : ∀ o ∈ order, o.key.AvoidsParams bad params) (offset limit : Option UInt64) :
    (P.paged order offset limit).IsFit bad params := by
  have hsorted : (if order.isEmpty then P else P.sort order (topRows offset limit)).IsFit bad
      params := by
    split
    · exact h
    · exact ⟨h, horder⟩
  unfold Pipeline.paged
  simp only
  split <;> exact hsorted

/-- Rows behind others. -/
lemma IsFit.linked (h : P.IsFit bad params) (h' : Q.IsFit bad params)
    (labels : Option (List String)) (op : SetOperator) :
    (P.linked labels op Q).IsFit bad params := by
  cases op <;> exact ⟨h, h'⟩

/-- Joined rows. -/
lemma IsFit.joined {joins : List JoinSpec}
    (hjoins : ∀ j ∈ joins, j.plan.isWithin ⟨fun _ => false, true, 0⟩ = true)
    (h : P.IsFit bad params) :
    (joins.foldl join P).IsFit bad params := by
  induction joins generalizing P with
  | nil => exact h
  | cons j joins ih =>
    exact ih (fun k hk => hjoins k (by simp [hk])) (P := join P j) ⟨h, hjoins j (by simp)⟩

end Pipeline

/-! ## Sub-queries -/

namespace SubquerySlot

/-- What is required of the columns of a sub-query. -/
lemma checkColumns_benign (s : SubquerySlot) : Benign s.checkColumns := by
  unfold checkColumns
  simp only
  split
  · rfl
  · trivial

/-- The values of rows with one column. -/
lemma singleValues_benign (rows : List Row) : Benign (singleValues rows) := by
  induction rows with
  | nil => trivial
  | cons row rows ih =>
    unfold singleValues
    split
    · exact ih.bind fun _ _ => .pure trivial
    · rfl

/-- The values of a sub-query. -/
lemma values_benign (s : SubquerySlot) (rows : List Row) : Benign (s.values rows) := by
  refine (singleValues_benign rows).bind fun vs _ => ?_
  split
  · split
    · rfl
    · trivial
  · trivial

/-- **There is a result for every sub-query** that runs. -/
lemma avoids_slotResults {bad : QueryError → Bool} [QueryError.Grave bad] {ss : List SubquerySlot}
    {runs : List (StoreM (List Row))} (hlength : runs.length = ss.length)
    (hruns : ∀ run ∈ runs, run.Avoids bad fun _ => True) :
    StoreM.Avoids bad (fun rs => rs.length = ss.length) (slotResults (m := StoreM) ss runs) := by
  induction ss generalizing runs with
  | nil =>
    obtain rfl := List.eq_nil_of_length_eq_zero hlength
    exact .pure rfl
  | cons s ss ih =>
    cases runs with
    | nil => cases hlength
    | cons run runs =>
      rw [slotResults]
      refine (StoreM.Avoids.lift (.of_safe s.checkColumns_benign)).bind fun _ _ => ?_
      refine (hruns run (by simp)).bind fun rows _ => ?_
      refine (StoreM.Avoids.lift (.of_safe (s.values_benign rows))).bind fun vs _ => ?_
      refine (ih (Nat.succ.inj hlength) fun r hr => hruns r (by simp [hr])).bind
        fun rest hrest => .pure ?_
      rw [List.length_cons, hrest, List.length_cons]

end SubquerySlot

/-! ## Plans -/

section Supplied

variable {bad : QueryError → Bool} {params : List Value}

/-- The parameters in what a selection does with rows do not fail in a given way. -/
structure QueryPlan.IsSupplied (bad : QueryError → Bool) (params : List Value) (p : QueryPlan) :
    Prop where
  /-- The condition that is decided row by row. -/
  rowFilter : ∀ e ∈ p.rowFilter, e.AvoidsParams bad params
  /-- The condition on groups. -/
  having : ∀ e ∈ p.having, e.AvoidsParams bad params
  /-- The computed columns. -/
  columns : ∀ c ∈ p.columns, ∀ e, c.value = .computed e → e.AvoidsParams bad params
  /-- The order. -/
  orderBy : ∀ o ∈ p.orderBy, o.key.AvoidsParams bad params
  /-- How many rows are skipped. -/
  offset : RowBound.IsSupplied bad p.offset
  /-- How many rows are kept. -/
  limit : RowBound.IsSupplied bad p.limit

/-- The same of a set operation. -/
structure ChainPlan.IsSupplied (bad : QueryError → Bool) (params : List Value) (c : ChainPlan) :
    Prop where
  /-- The order. -/
  orderBy : ∀ o ∈ c.orderBy, o.key.AvoidsParams bad params
  /-- How many rows are skipped. -/
  offset : RowBound.IsSupplied bad c.offset
  /-- How many rows are kept. -/
  limit : RowBound.IsSupplied bad c.limit

end Supplied

namespace QueryPlan

variable {p q : QueryPlan} {bad : QueryError → Bool} {params : List Value}

/-- Whether parameters fail does not depend on the conditions, the source and the sub-queries. -/
lemma IsSupplied.of_same (h : p.IsSupplied bad params) (hrowFilter : q.rowFilter = p.rowFilter)
    (hhaving : q.having = p.having) (hcolumns : q.columns = p.columns)
    (horderBy : q.orderBy = p.orderBy) (hoffset : q.offset = p.offset)
    (hlimit : q.limit = p.limit) :
    q.IsSupplied bad params :=
  ⟨hrowFilter ▸ h.rowFilter, hhaving ▸ h.having, hcolumns ▸ h.columns, horderBy ▸ h.orderBy,
    hoffset ▸ h.offset, hlimit ▸ h.limit⟩

/-- The computed columns of a selection. -/
lemma IsSupplied.computedColumns (h : p.IsSupplied bad params) :
    ∀ c ∈ p.computedColumns, c.2.AvoidsParams bad params := by
  intro c hc
  obtain ⟨d, hd, hvalue⟩ := List.mem_filterMap.mp hc
  split at hvalue
  · rename_i e he
    split at hvalue
    · cases hvalue
    · obtain rfl := Option.some.inj hvalue
      exact h.columns d hd e he
  · cases hvalue

/-- The results of sub-queries change nothing but the conditions. -/
lemma IsSupplied.substitute {rs : SlotResults} (h : p.IsSupplied bad params)
    (hq : p.substitute rs = .ok q) : q.IsSupplied bad params := by
  simp only [QueryPlan.substitute, bind_eq_ok] at hq
  obtain ⟨c, -, k, -, hq⟩ := hq
  obtain ⟨s, rfl⟩ := eq_of_chooseStrategy hq
  exact h.of_same rfl rfl rfl rfl rfl rfl

/-- A prepared plan that reads the store is given access to it by the strategy for what it does. -/
lemma IsPrepared.safe_access (h : p.IsPrepared) (hsource : p.source.isSome = false) :
    Safe (fun a => if p.reduction.isSome then a.strategy.CanReduce else a.strategy.CanFind)
      (TableAccess.ofPlan p.toTablePlan) := by
  obtain ⟨s, hs, htable⟩ := h.settled.exists_strategy hsource
  rw [htable]
  refine (TableAccess.safe_ofPlan rfl).mono fun a ha => ?_
  rw [ha]
  unfold strategyFor at hs
  cases hreduction : p.reduction with
  | none => exact p.toTablePlan.canFind h.table (by rwa [hreduction] at hs)
  | some r => exact p.toTablePlan.canReduce h.table (by rwa [hreduction] at hs)

/-- What a prepared plan starts with. -/
lemma IsPrepared.ofSource [QueryError.Grave bad] (h : p.IsPrepared) (hp : p.IsSupplied bad params)
    {source : Option Pipeline} (hsome : source.isSome = p.source.isSome)
    (hsource : ∀ P ∈ source, P.IsFit bad params) :
    Avoids bad (Pipeline.IsFit bad params) (Pipeline.ofSource p source) := by
  unfold Pipeline.ofSource
  cases source with
  | some input =>
    have hinput := hsource input rfl
    cases p.reduction with
    | some r => exact .ok (hinput.filtered hp.rowFilter)
    | none => exact .ok hinput
  | none =>
    have haccess := h.safe_access hsome.symm
    cases hreduction : p.reduction with
    | some r =>
      rw [hreduction] at haccess
      exact (Avoids.of_safe haccess).bind fun a ha => .pure ha
    | none =>
      rw [hreduction] at haccess
      exact (Avoids.of_safe haccess).bind fun a ha => .pure ha

/-- **The stages of a prepared plan make a fit pipeline.** -/
theorem IsPrepared.ofPlan [QueryError.Grave bad] (h : p.IsPrepared) (hp : p.IsSupplied bad params)
    {source : Option Pipeline} (hsome : source.isSome = p.source.isSome)
    (hsource : ∀ P ∈ source, P.IsFit bad params) :
    Avoids bad (Pipeline.IsFit bad params) (Pipeline.ofPlan p source) := by
  refine (h.ofSource hp hsome hsource).bind fun base hbase => ?_
  have hearly : ∀ c ∈ p.earlyColumns, c.2.AvoidsParams bad params :=
    fun c hc => hp.computedColumns c (List.mem_filter.mp hc).1
  have hlate : ∀ c ∈ p.lateColumns, c.2.AvoidsParams bad params :=
    fun c hc => hp.computedColumns c (List.mem_filter.mp hc).1
  have hkept : (if p.reduction.isNone then (base.computed p.earlyColumns true).filtered p.rowFilter
      else base.computed p.earlyColumns true).IsFit bad params := by
    split
    · exact (hbase.computed hearly _).filtered hp.rowFilter
    · exact hbase.computed hearly _
  refine hp.offset.mapM_value.bind fun offset _ => ?_
  refine hp.limit.mapM_value.bind fun limit _ => ?_
  exact .pure ((((hkept.filtered hp.having).joined h.joins).computed hlate false).paged
    hp.orderBy offset limit)

/-- A bound plan that is given the results of its sub-queries, where the runs of these do not fail
in a given way. -/
lemma IsBound.resolve [QueryError.Grave bad] (h : p.IsBound) (hp : p.IsSupplied bad params)
    {runs : List (StoreM (List Row))} (hlength : runs.length = p.subqueries.length)
    (hruns : ∀ run ∈ runs, run.Avoids bad fun _ => True) :
    StoreM.Avoids bad (fun q => q.IsPrepared ∧ p.SameFrame q ∧ q.IsSupplied bad params)
      (p.resolve (m := StoreM) runs) := by
  unfold QueryPlan.resolve
  split
  · rename_i hslots
    exact .pure ⟨h.isPrepared (List.isEmpty_iff.mp hslots), ⟨rfl, rfl, rfl, rfl, rfl⟩, hp⟩
  · refine (SubquerySlot.avoids_slotResults hlength hruns).bind fun rs hrs => .lift ?_
    have hsubstitute : Avoids bad (fun q => q.IsPrepared ∧ p.SameFrame q) (p.substitute rs) :=
      .of_safe (h.substitute hrs)
    exact (hsubstitute.mono fun _ _ => trivial).of_returned fun q hq =>
      ⟨(hsubstitute.of_eq_ok hq).1, (hsubstitute.of_eq_ok hq).2, hp.substitute hq⟩

end QueryPlan

/-! ## Queries -/

section Queries

variable {env : ExecutionEnv} {bad : QueryError → Bool}

/-- What the preparation of a query asks of a selection: it is bound, and its parameters do not fail
in a given way. -/
abbrev QueryPlan.IsReadyFor (bad : QueryError → Bool) (params : List Value) (p : QueryPlan) :
    Prop :=
  p.IsBound ∧ p.IsSupplied bad params

mutual

/-- **A bound selection is prepared without failing in the given way**, and then has a fit
pipeline. -/
theorem QueryPlan.avoids_prepare [QueryError.Grave bad] : {p : QueryPlan} →
    p.All (QueryPlan.IsReadyFor bad env.params) (ChainPlan.IsSupplied bad env.params) →
    StoreM.Avoids bad (fun q => q.IsPrepared ∧ q.IsSupplied bad env.params ∧
      q.source.isSome = p.source.isSome ∧ q.reduction = p.reduction ∧
        Avoids bad (Pipeline.IsFit bad env.params) q.pipeline) (p.prepare env)
  | p, .intro ⟨h, hp⟩ hsource hslots => by
    rw [QueryPlan.prepare_eq]
    refine (avoids_prepareSource hsource).bind fun source ⟨hsome, hpipeline⟩ => ?_
    have hbound : QueryPlan.IsBound { p with source } :=
      ⟨⟨h.table, h.joins⟩, h.settled.withSource hsome⟩
    have hsupplied : QueryPlan.IsSupplied bad env.params { p with source } :=
      hp.of_same rfl rfl rfl rfl rfl rfl
    obtain ⟨hlength, hruns⟩ := avoids_slotRuns hslots
    refine StoreM.Avoids.mono (hbound.resolve hsupplied hlength hruns) fun q ⟨hq, hsame, hqs⟩ => ?_
    have hqsome : q.source.isSome = p.source.isSome := by
      rw [hsame.source]
      exact hsome
    refine ⟨hq, hqs, hqsome, hsame.reduction, ?_⟩
    rw [QueryPlan.pipeline_eq, hsame.source]
    exact hpipeline.bind fun input ⟨hinput, hfit⟩ => hq.ofPlan hqs (hinput.trans hqsome.symm) hfit

/-- A bound source. -/
theorem avoids_prepareSource [QueryError.Grave bad] : {s : Option QueryNode} →
    SourceAll (QueryPlan.IsReadyFor bad env.params) (ChainPlan.IsSupplied bad env.params) s →
    StoreM.Avoids bad (fun t => t.isSome = s.isSome ∧ Avoids bad (fun P => P.isSome = s.isSome ∧
      ∀ Q ∈ P, Q.IsFit bad env.params) (sourcePipeline t)) (prepareSource env s)
  | _, .none => .pure ⟨rfl, rfl, fun Q hQ => by cases hQ⟩
  | _, .some h => (QueryNode.avoids_prepare h).bind fun m hm =>
      .pure ⟨rfl, hm.bind fun P hP => .pure ⟨rfl, fun Q hQ => Option.some.inj hQ ▸ hP⟩⟩

/-- The runs of bound sub-queries. -/
theorem avoids_slotRuns [QueryError.Grave bad] : {ss : List SubquerySlot} →
    SlotsAll (QueryPlan.IsReadyFor bad env.params) (ChainPlan.IsSupplied bad env.params) ss →
    (slotRuns env ss).length = ss.length ∧
      ∀ run ∈ slotRuns env ss, run.Avoids bad fun _ => True
  | _, .nil => ⟨rfl, fun _ h => absurd h List.not_mem_nil⟩
  | _, .cons h hs => by
    obtain ⟨hlength, hruns⟩ := avoids_slotRuns hs
    refine ⟨congrArg Nat.succ hlength, fun run hrun => ?_⟩
    rcases List.mem_cons.mp hrun with rfl | hrun
    · rw [SubquerySlot.run]
      refine (QueryNode.avoids_prepare h).bind fun m hm => ?_
      exact (StoreM.Avoids.lift hm).bind fun P hP => hP.avoids_cursor.drain
    · exact hruns run hrun

/-- **A bound query is prepared without failing in the given way**, and then has a fit pipeline. -/
theorem QueryNode.avoids_prepare [QueryError.Grave bad] : {n : QueryNode} →
    n.All (QueryPlan.IsReadyFor bad env.params) (ChainPlan.IsSupplied bad env.params) →
    StoreM.Avoids bad (fun m => Avoids bad (Pipeline.IsFit bad env.params) m.pipeline)
      (n.prepare env)
  | _, .plan h => (QueryPlan.avoids_prepare h).bind fun _ hq => .pure hq.2.2.2.2
  | _, .chain h => (ChainPlan.avoids_prepare h).bind fun _ hd => .pure hd

/-- A bound set operation. -/
theorem ChainPlan.avoids_prepare [QueryError.Grave bad] : {c : ChainPlan} →
    c.All (QueryPlan.IsReadyFor bad env.params) (ChainPlan.IsSupplied bad env.params) →
    StoreM.Avoids bad (fun d => Avoids bad (Pipeline.IsFit bad env.params) d.pipeline)
      (c.prepare env)
  | ⟨_, _, _, _, _⟩, .intro hc h hls => by
    refine (QueryNode.avoids_prepare h).bind fun head hhead => ?_
    refine (avoids_prepareLinks hls).bind fun links hlinks => .pure ?_
    refine hhead.bind fun first hfirst => (hlinks _ first hfirst).bind fun all hall => ?_
    refine hc.offset.mapM_value.bind fun o _ => ?_
    exact hc.limit.mapM_value.bind fun l _ => .pure (hall.paged hc.orderBy o l)

/-- Bound links. -/
theorem avoids_prepareLinks [QueryError.Grave bad] : {ls : List ChainLink} →
    LinksAll (QueryPlan.IsReadyFor bad env.params) (ChainPlan.IsSupplied bad env.params) ls →
    StoreM.Avoids bad (fun ms => ∀ (labels : Option (List String)) (P : Pipeline),
      P.IsFit bad env.params →
        Avoids bad (Pipeline.IsFit bad env.params)
    (linkPipelines labels P ms)) (prepareLinks env ls)
  | _, .nil => .pure fun _ _ hP => hP
  | _, .cons h hls => by
    refine StoreM.Avoids.bind
      (P := fun l => Avoids bad (fun m => m.2.IsFit bad env.params) l.pipeline)
      ((QueryNode.avoids_prepare h).bind fun m hm => .pure ?_) ?_
    · exact hm.map (f := fun P => (_, P)) fun P hP => hP
    refine fun l hl => (avoids_prepareLinks hls).bind fun ms hms => .pure fun labels P hP => ?_
    exact hl.bind fun m hm => hms labels _ (hP.linked hm labels m.1)

end

end Queries

end RecordQuery
