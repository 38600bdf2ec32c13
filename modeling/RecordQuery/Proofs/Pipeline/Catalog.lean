import RecordQuery.Proofs.Cursor.Extension
import RecordQuery.Proofs.Pipeline.Listing
import RecordQuery.Proofs.Plan.Binding

set_option autoImplicit false

/-!
# Pipelines with and without indexes

The pipelines of two plans that differ in indexes and strategies have the same stages. What the one
without indexes returns, the other one returns too, as long as the store has the indexes and no
truth value lies where a numeric one orders integers. Where the pipeline without indexes fails, the
other one may go further: a program that fails on a record is not run on records that an index
leaves out.

## Main definitions

* `Pipeline.Precedes` — the listing of one pipeline is extended by that of another.

## Main results

* `JoinSpec.Twin.rowsFor` — joins with an index find the same partners.
* `Pipeline.follows_ofPlan` — the pipelines of related selections.
* `QueryNode.Related.pipeline` — the pipelines of related queries.
-/

namespace RecordQuery

open Outcome

variable {catalog : IndexCatalog} {K : Store}

/-! ## Access to the store -/

namespace TablePlan

variable {t t' : TablePlan} {s s' : AccessStrategy}

/-- Plans that choose the strategies for their conditions. -/
lemma Indexed.chosen (h : t.Indexed catalog t') :
    Follows (fun q q' => ∃ s s', t.readingStrategy = .ok s ∧ t'.readingStrategy = .ok s' ∧
        q = { t with strategy := some s } ∧ q' = { t' with strategy := some s' })
      t.chooseStrategy t'.chooseStrategy :=
  h.exists_readingStrategy.returned.bind fun s s' ⟨_, hs, hs'⟩ => .ok ⟨s, s', hs, hs', rfl, rfl⟩

/-- What two plans that chose strategies find. -/
lemma Indexed.found (h : t.Indexed catalog t') (hK : K.Backs catalog)
    (hs : t.readingStrategy = .ok s) (hs' : t'.readingStrategy = .ok s') :
    Follows (fun a a' => Follows Eq (a.found K) (a'.found K))
      (TableAccess.ofPlan { t with strategy := some s })
      (TableAccess.ofPlan { t' with strategy := some s' }) := by
  cases hset : t.set with
  | none =>
    simp only [TableAccess.ofPlan]
    exact .error _
  | some set =>
    obtain ⟨s'', hchosen, hfound⟩ := h.readingStrategy hset hK t.needsDigest s hs
    obtain rfl := Except.ok.inj (hs'.symm.trans hchosen)
    obtain ⟨indexes, strategy, rfl⟩ := h.exists_eq
    simp only [TableAccess.ofPlan, hset]
    exact .ok (hfound.map fun rs rs' hrs => by rw [hrs]; rfl)

/-- What two plans that chose strategies to reduce by find. -/
lemma Indexed.groups {call : ReducerCall} (h : t.Indexed catalog t') (hK : K.Backs catalog)
    (hs : t.reducingStrategy call = .ok s) (hs' : t'.reducingStrategy call = .ok s')
    (mapping : OutputMapping) :
    Follows (fun a a' => Follows Eq (a.groups mapping K) (a'.groups mapping K))
      (TableAccess.ofPlan { t with strategy := some s })
      (TableAccess.ofPlan { t' with strategy := some s' }) := by
  cases hset : t.set with
  | none =>
    simp only [TableAccess.ofPlan]
    exact .error _
  | some set =>
    obtain ⟨s'', hchosen, hgroups⟩ := h.reducingStrategy hset hK call t.needsDigest mapping s hs
    obtain rfl := Except.ok.inj (hs'.symm.trans hchosen)
    obtain ⟨indexes, strategy, rfl⟩ := h.exists_eq
    simp only [TableAccess.ofPlan, hset]
    exact .ok hgroups

end TablePlan

/-! ## Joins -/

namespace JoinSpec

variable {j j' : JoinSpec}

/-- Rows become the same with the same partners. -/
lemma Twin.combine_eq (h : j.Twin (TablePlan.Indexed catalog) j') : j.combine = j'.combine := by
  have hcolumns : j.plan.columns = j'.plan.columns := by rw [h.plan.same]
  have hextend : j.extend = j'.extend := by
    funext row partner
    rw [extend, extend, h.qualifier]
  funext row partners
  simp only [combine, pad, h.kind, hcolumns, hextend]

/-- Plans that look for the same value. -/
lemma Twin.matchValue? (h : j.Twin (TablePlan.Indexed catalog) j') {t t' : TablePlan}
    (ht : t.Indexed catalog t') (o : Operand) :
    Option.Rel (TablePlan.Indexed catalog) (j.matchValue? t o) (j'.matchValue? t' o) := by
  unfold JoinSpec.matchValue?
  rw [h.innerColumn]
  split
  · split
    · exact .some (ht.addKeyCondition _)
    · exact .some (ht.addKeyCondition _)
    · exact .none
  · exact .some (ht.addCondition (Condition.isKinded_ofOperand ..))

/-- Plans that look for the partners of a row.

**Proof sketch.** Both joins read the same value of the row and fill the same condition, which keeps
the kinds of its values. So the tables with the filled condition are again alike but for the index,
and so are they after the value is matched. Tables that are alike get strategies that find the same
records. -/
lemma Twin.probe? (h : j.Twin (TablePlan.Indexed catalog) j') (row : Row) :
    Follows (Option.Rel fun q q' => ∃ t t' s s', TablePlan.Indexed catalog t t' ∧
        t.readingStrategy = .ok s ∧ t'.readingStrategy = .ok s' ∧
        q = { t with strategy := some s } ∧ q' = { t' with strategy := some s' })
      (j.probe? row) (j'.probe? row) := by
  have hplan := h.plan
  have hcondition : j.plan.condition = j'.plan.condition := by rw [hplan.same]
  unfold JoinSpec.probe?
  rw [h.outerKey]
  split
  · exact .ok .none
  · exact .ok .none
  · refine (Follows.of_eq _).bind fun o _ ho => ?_
    subst ho
    rw [hcondition]
    refine (Follows.of_eq _).returned.bind fun c _ ⟨hc, hfilled, _⟩ => ?_
    subst hc
    have hkinded : c.all Condition.isKinded = true := by
      rcases mapM_eq_ok hfilled with ⟨-, rfl⟩ | ⟨d, d', hd, rfl, hfill⟩
      · rfl
      · have hk := hplan.kinded
        rw [hcondition, hd] at hk
        exact Condition.isKinded_fillOuter hfill hk
    have hwith : TablePlan.Indexed catalog { j.plan with condition := c }
        { j'.plan with condition := c } := by
      have hboth := hplan.withConditions j.plan.keyCondition hkinded
      obtain ⟨indexes, strategy, heq⟩ := hplan.exists_eq
      rw [heq] at hboth ⊢
      exact hboth
    have hmatch := h.matchValue? hwith o
    revert hmatch
    cases j.matchValue? { j.plan with condition := c } o <;>
      cases j'.matchValue? { j'.plan with condition := c } o <;> intro hmatch <;> cases hmatch
    · exact .pure .none
    · rename_i t t' ht
      refine ht.chosen.map fun q q' ⟨s, s', hs, hs', hq, hq'⟩ => ?_
      exact .some ⟨t, t', s, s', ht, hs, hs', hq, hq'⟩

/-- **Joins with an index find the same partners.** -/
theorem Twin.rowsFor (h : j.Twin (TablePlan.Indexed catalog) j') (hK : K.Backs catalog)
    (row : Row) :
    Follows Eq (j.rowsFor K row) (j'.rowsFor K row) := by
  have hfound : Follows Eq (j.found K row) (j'.found K row) := by
    refine (h.probe? row).bind fun q q' hq => ?_
    cases hq with
    | none => exact .pure rfl
    | some hq =>
      obtain ⟨t, t', s, s', ht, hs, hs', rfl, rfl⟩ := hq
      exact (ht.found hK hs hs').bind fun a a' ha => ha
  exact hfound.map fun rs rs' hrs => by rw [hrs, h.combine_eq]

/-- Joins that are twins have the same names. -/
lemma map_qualifier_eq {T : TablePlan → TablePlan → Prop} {js js' : List JoinSpec}
    (h : ∀ i : Nat, Option.Rel (JoinSpec.Twin T) js[i]? js'[i]?) :
    js.map qualifier = js'.map qualifier := by
  refine List.ext_getElem? fun i => ?_
  have hi := h i
  rw [List.getElem?_map, List.getElem?_map]
  revert hi
  cases js[i]? <;> cases js'[i]? <;> intro hi <;> cases hi
  · rfl
  · rename_i hj
    exact congrArg some hj.qualifier

end JoinSpec

/-! ## Pipelines -/

namespace Pipeline

variable {env : ExecutionEnv} {P P' Q Q' : Pipeline}

/-- The listing of the second pipeline extends that of the first one. -/
def Precedes (env : ExecutionEnv) (K : Store) (P P' : Pipeline) : Prop :=
  Follows Listing.Extends (P.listing env K) (P'.listing env K)

namespace Precedes

/-- A stage that keeps the order of listings. -/
lemma map {f f' : Listing → Listing} {x y : Except QueryError Listing}
    (h : Follows Listing.Extends x y) (hf : ∀ l m, l.Extends m → (f l).Extends (f' m)) :
    Follows Listing.Extends (x.map f) (y.map f') := by
  intro l hl
  cases x with
  | error e => cases hl
  | ok l' =>
    obtain rfl := Except.ok.inj hl
    obtain ⟨m, rfl, hlm⟩ := h l' rfl
    exact ⟨f' m, rfl, hf l' m hlm⟩

/-- The same rows, as they were found. -/
lemma ofRows {x y : Except QueryError (List Row)} (h : Follows Eq x y) :
    Follows Listing.Extends (x.map .ofRows) (y.map .ofRows) := by
  intro l hl
  obtain ⟨rows, hrows, rfl⟩ := map_eq_ok.mp hl
  obtain ⟨_, hsame, rfl⟩ := h rows hrows
  exact ⟨.ofRows rows, map_eq_ok.mpr ⟨rows, hsame, rfl⟩, .refl _⟩

/-- The rows on which an expression is true. -/
lemma filter (h : P.Precedes env K P') (e : Expr) : (P.filter e).Precedes env K (P'.filter e) :=
  map h fun _ _ hlm => hlm.filter _

/-- The rows on which an optional condition is true. -/
lemma filtered (h : P.Precedes env K P') (e : Option Expr) :
    (P.filtered e).Precedes env K (P'.filtered e) := by
  cases e with
  | none => exact h
  | some e => exact h.filter e

/-- The rows in a window. -/
lemma window (h : P.Precedes env K P') (offset : Nat) (limit : Option Nat) :
    (P.window offset limit).Precedes env K (P'.window offset limit) :=
  map h fun _ _ hlm => hlm.window offset limit

/-- The rows without duplicates. -/
lemma distinct (h : P.Precedes env K P') : P.distinct.Precedes env K P'.distinct :=
  map h fun _ _ hlm => hlm.distinct

/-- The rows with computed values. -/
lemma computed (h : P.Precedes env K P') (columns : List (Column × Expr)) (withLabels : Bool) :
    (P.computed columns withLabels).Precedes env K (P'.computed columns withLabels) := by
  unfold Pipeline.computed
  split
  · exact h
  · exact map h fun _ _ hlm => hlm.mapRows _

/-- The rows in order. -/
lemma sort (h : P.Precedes env K P') (order : List OrderSpec) (top : Option Nat) :
    (P.sort order top).Precedes env K (P'.sort order top) :=
  map h fun _ _ hlm => hlm.buffered _ _ _

/-- The rows in order and within limits. -/
lemma paged (h : P.Precedes env K P') (order : List OrderSpec) (offset limit : Option UInt64) :
    (P.paged order offset limit).Precedes env K (P'.paged order offset limit) := by
  have hsorted : (if order.isEmpty then P else P.sort order (topRows offset limit)).Precedes env K
      (if order.isEmpty then P' else P'.sort order (topRows offset limit)) := by
    split
    · exact h
    · exact h.sort order _
  unfold Pipeline.paged
  simp only
  split
  · exact hsorted
  · exact hsorted.window _ _

/-- The rows of two pipelines one after the other. -/
lemma linked (h : P.Precedes env K P') (h' : Q.Precedes env K Q') (labels : Option (List String))
    (op : SetOperator) : (P.linked labels op Q).Precedes env K (P'.linked labels op Q') := by
  have happend : (P.append Q labels).Precedes env K (P'.append Q' labels) :=
    map (h.bind fun _ _ hlm => Follows.map h' fun _ _ hlm' => hlm.append hlm') fun _ _ hlm =>
      hlm.mapRows _
  cases op with
  | union => exact happend.distinct
  | unionAll => exact happend

/-- The groups of the rows. -/
lemma aggregate (h : P.Precedes env K P') (call : ReducerCall) (mapping : OutputMapping) :
    (P.aggregate call mapping).Precedes env K (P'.aggregate call mapping) :=
  h.bind fun _ _ hlm => hlm.grouped call mapping

/-- **The rows with their partners.** -/
lemma foldl_join {js js' : List JoinSpec} (h : P.Precedes env K P') (hK : K.Backs catalog)
    (hjs : ∀ i : Nat, Option.Rel (JoinSpec.Twin (TablePlan.Indexed catalog)) js[i]? js'[i]?) :
    (js.foldl join P).Precedes env K (js'.foldl join P') := by
  induction js generalizing js' P P' with
  | nil =>
    obtain rfl := eq_nil_of_rel (R := fun _ => JoinSpec.Twin (TablePlan.Indexed catalog)) hjs
    exact h
  | cons j js ih =>
    obtain ⟨j', js', rfl, hj, hjs⟩ :=
      exists_of_rel_cons (R := fun _ => JoinSpec.Twin (TablePlan.Indexed catalog)) hjs
    have hjoin : (P.join j).Precedes env K (P'.join j') :=
      map h fun _ _ hlm => hlm.expand (hj.rowsFor hK)
    rw [List.foldl_cons, List.foldl_cons]
    exact ih hjoin hjs

/-- The returned columns of the rows. -/
lemma project (h : P.Precedes env K P') (projection : Projection) :
    (P.project projection).Precedes env K (P'.project projection) :=
  map h fun _ _ hlm => hlm.mapRows _

end Precedes

/-! ## Selections -/

variable {p p' : QueryPlan}

/-- The access to a table goes by the strategy of its plan. -/
lemma strategy_of_ofPlan {t : TablePlan} {s : AccessStrategy} {a : TableAccess}
    (h : TableAccess.ofPlan { t with strategy := some s } = .ok a) : a.strategy = s := by
  unfold TableAccess.ofPlan at h
  split at h
  · cases h
  · cases h
  · rename_i hs
    obtain rfl := Except.ok.inj h
    exact (Option.some.inj hs).symm

/-- Reading finds no records where the store is asked to reduce them. -/
lemma records_ne_ok_of_reducingStrategy {t : TablePlan} {call : ReducerCall} {a : TableAccess}
    {rs : List Record} (h : t.reducingStrategy call = .ok a.strategy) : a.records K ≠ .ok rs := by
  have haggregation : ∃ f q c, a.strategy = .aggregation f q c := by
    unfold TablePlan.reducingStrategy at h
    cases hk : t.keyCondition with
    | none =>
      simp only [hk] at h
      exact ⟨_, _, _, (Except.ok.inj h).symm⟩
    | some k =>
      simp only [hk] at h
      obtain ⟨q, -, h⟩ := bind_eq_ok.mp h
      exact ⟨_, _, _, (Except.ok.inj h).symm⟩
  obtain ⟨f, q, c, hs⟩ := haggregation
  simp [TableAccess.records, hs]

/-- **Fetching with an index.**

**Proof sketch.** Both plans are settled, so they have a strategy unless they have a source, and
then there is no access. An aggregating strategy finds no records at all. Otherwise the strategies
find the same rows, which is all that a listing of fetched rows consists of. -/
lemma follows_fetch (h : p.Ready catalog p') (hK : K.Backs catalog)
    (hsource : p.source.isSome = p'.source.isSome) :
    Follows (fun a a' => (fetch a).Precedes env K (fetch a')) (TableAccess.ofPlan p.toTablePlan)
      (TableAccess.ofPlan p'.toTablePlan) := by
  cases hsome : p.source.isSome with
  | true => exact fun a ha => absurd ha (h.settled.ofPlan_ne_ok hsome)
  | false =>
    obtain ⟨s, hs, heq⟩ := h.settled.exists_strategy hsome
    obtain ⟨s', hs', heq'⟩ := h.settled'.exists_strategy (hsource ▸ hsome)
    rw [heq, heq']
    have hfound : Follows (fun a a' => Follows Eq (a.found K) (a'.found K))
        (TableAccess.ofPlan { p.toTablePlan with strategy := some s })
        (TableAccess.ofPlan { p'.toTablePlan with strategy := some s' }) := by
      have hreduction := h.indexed.reduction
      unfold QueryPlan.strategyFor at hs hs'
      rw [← hreduction] at hs'
      split at hs
      · rename_i r hr
        refine ((TablePlan.Indexed.groups h.indexed.table hK hs (by simpa [hr] using hs')
          r.mapping).returned).mono fun a a' ⟨_, ha, _⟩ rows hrows => ?_
        obtain ⟨rs, hrs, -⟩ := bind_eq_ok.mp hrows
        rw [← strategy_of_ofPlan ha] at hs
        exact absurd hrs (records_ne_ok_of_reducingStrategy hs)
      · rename_i hr
        exact TablePlan.Indexed.found h.indexed.table hK hs (by simpa [hr] using hs')
    exact hfound.mono fun a a' ha => Precedes.ofRows ha

/-- Reducing with an index.

**Proof sketch.** Both plans have an aggregating strategy. The groups they form are the same
whenever the first ones are formed, and the listing consists of them. -/
lemma follows_reduce {r : Reduction} (h : p.Ready catalog p') (hK : K.Backs catalog)
    (hsource : p.source.isSome = p'.source.isSome) (hreduction : p.reduction = some r) :
    Follows (fun a a' => (reduce a r.mapping).Precedes env K (reduce a' r.mapping))
      (TableAccess.ofPlan p.toTablePlan) (TableAccess.ofPlan p'.toTablePlan) := by
  cases hsome : p.source.isSome with
  | true => exact fun a ha => absurd ha (h.settled.ofPlan_ne_ok hsome)
  | false =>
    obtain ⟨s, hs, heq⟩ := h.settled.exists_strategy hsome
    obtain ⟨s', hs', heq'⟩ := h.settled'.exists_strategy (hsource ▸ hsome)
    rw [QueryPlan.strategyFor, hreduction] at hs
    rw [QueryPlan.strategyFor, ← h.indexed.reduction, hreduction] at hs'
    rw [heq, heq']
    exact (TablePlan.Indexed.groups h.indexed.table hK hs hs' r.mapping).mono
      fun a a' ha => Precedes.ofRows ha

/-- The rows that selections start with. -/
lemma follows_ofSource {input input' : Option Pipeline} (h : p.Ready catalog p')
    (hK : K.Backs catalog) (hsource : p.source.isSome = p'.source.isSome)
    (hinput : Option.Rel (Precedes env K) input input') :
    Follows (Precedes env K) (ofSource p input) (ofSource p' input') := by
  have hfilter : p.rowFilter = p'.rowFilter := h.indexed.rest.rowFilter
  have hreduction := h.indexed.reduction
  unfold ofSource
  cases hinput with
  | some hP =>
    rw [hfilter, hreduction]
    cases p'.reduction with
    | none => exact .ok hP
    | some r => exact .ok ((hP.filtered p'.rowFilter).aggregate r.call r.mapping)
  | none =>
    rw [← hreduction]
    cases hr : p.reduction with
    | none => exact (follows_fetch h hK hsource).map fun a a' ha => ha
    | some r => exact (follows_reduce h hK hsource hr).map fun a a' ha => ha

/-- **The pipelines of selections with and without indexes.**

**Proof sketch.** The columns, their order of computation, the projection, the filters, the order
and the limits depend on the parts that the plans share; of the joins only the names count for
these. The bases precede one another, and so does every stage that is put on top of them. -/
theorem follows_ofPlan {input input' : Option Pipeline} (h : p.Ready catalog p')
    (hK : K.Backs catalog) (hsource : p.source.isSome = p'.source.isSome)
    (hinput : Option.Rel (Precedes env K) input input') :
    Follows (Precedes env K) (ofPlan p input) (ofPlan p' input') := by
  have hindexed := h.indexed
  have hcolumns := QueryPlan.Twin.columns_eq hindexed (TablePlan.Indexed.twinning catalog)
  have hnames := JoinSpec.map_qualifier_eq hindexed.joins
  have hrefers : p.refersToJoin = p'.refersToJoin := by
    have hany : ∀ (q : QueryPlan) (t : String), q.joins.any (fun j => j.qualifier == t) =
        (q.joins.map JoinSpec.qualifier).any (· == t) := by
      intro q t
      rw [List.any_map]
      rfl
    funext e
    simp only [QueryPlan.refersToJoin, hany, hnames]
  have hcomputed : p.computedColumns = p'.computedColumns := by
    simp only [QueryPlan.computedColumns, hcolumns]
  have hearly : p.earlyColumns = p'.earlyColumns := by
    simp only [QueryPlan.earlyColumns, hcomputed, hrefers]
  have hlate : p.lateColumns = p'.lateColumns := by
    simp only [QueryPlan.lateColumns, hcomputed, hrefers]
  have hprojection : Projection.ofPlan p = Projection.ofPlan p' := by
    simp only [Projection.ofPlan, hcolumns, hindexed.wildcard, hnames, hsource]
  have hfilter : p.rowFilter = p'.rowFilter := hindexed.rest.rowFilter
  unfold ofPlan
  rw [hearly, hlate, hprojection, hfilter, hindexed.reduction, hindexed.having, hindexed.offset,
    hindexed.limit, hindexed.orderBy]
  refine (follows_ofSource h hK hsource hinput).bind fun base base' hbase => ?_
  have hkept :
      (if p'.reduction.isNone then (base.computed p'.earlyColumns true).filtered p'.rowFilter
        else base.computed p'.earlyColumns true).Precedes env K
      (if p'.reduction.isNone then (base'.computed p'.earlyColumns true).filtered p'.rowFilter
        else base'.computed p'.earlyColumns true) := by
    split
    · exact (hbase.computed _ _).filtered _
    · exact hbase.computed _ _
  have hlast := ((hkept.filtered p'.having).foldl_join hK hindexed.joins).computed p'.lateColumns
    false
  refine (Follows.of_eq _).bind fun offset _ hoffset => ?_
  subst hoffset
  refine (Follows.of_eq _).map fun limit _ hlimit => ?_
  subst hlimit
  exact (hlast.paged p'.orderBy offset limit).project _

end Pipeline

/-! ## Queries -/

/-- What the pipeline of a selection is. -/
lemma QueryPlan.pipeline_eq (p : QueryPlan) :
    p.pipeline = (do
      let input ← sourcePipeline p.source
      Pipeline.ofPlan p input) := by
  cases p
  rw [QueryPlan.pipeline]

section

variable {env : ExecutionEnv}

mutual

/-- The pipelines of related selections. -/
theorem QueryPlan.Related.pipeline (hK : K.Backs catalog) : {p p' : QueryPlan} →
    p.Related (QueryPlan.Ready catalog) p' →
    Follows (Pipeline.Precedes env K) p.pipeline p'.pipeline
  | p, p', .intro h hsource hslots => by
    rw [QueryPlan.pipeline_eq, QueryPlan.pipeline_eq]
    refine (SourceRelated.pipeline hK hsource).bind fun input input' hinput => ?_
    exact Pipeline.follows_ofPlan h hK hsource.isSome_eq hinput

/-- The pipelines of related sources. -/
theorem SourceRelated.pipeline (hK : K.Backs catalog) : {s s' : Option QueryNode} →
    SourceRelated (QueryPlan.Ready catalog) s s' →
    Follows (Option.Rel (Pipeline.Precedes env K)) (sourcePipeline s) (sourcePipeline s')
  | _, _, .none => .pure .none
  | _, _, .some h => (QueryNode.Related.pipeline hK h).map fun _ _ hP => .some hP

/-- **The pipelines of related queries.** -/
theorem QueryNode.Related.pipeline (hK : K.Backs catalog) : {n n' : QueryNode} →
    n.Related (QueryPlan.Ready catalog) n' →
    Follows (Pipeline.Precedes env K) n.pipeline n'.pipeline
  | _, _, .plan h => QueryPlan.Related.pipeline hK h
  | _, _, .chain h => ChainPlan.Related.pipeline hK h

/-- The pipelines of related set operations. -/
theorem ChainPlan.Related.pipeline (hK : K.Backs catalog) : {c c' : ChainPlan} →
    c.Related (QueryPlan.Ready catalog) c' →
    Follows (Pipeline.Precedes env K) c.pipeline c'.pipeline
  | _, _, .intro orderBy offset limit h hls => by
    have hfirst := h.firstPlan.indexed
    have hlabels := QueryPlan.Twin.labels_eq hfirst (TablePlan.Indexed.twinning catalog)
    simp only [ChainPlan.pipeline, QueryNode.labels, hfirst.wildcard, hlabels]
    refine (QueryNode.Related.pipeline hK h).bind fun P P' hP => ?_
    refine (LinksRelated.pipeline hK hP hls).bind fun Q Q' hQ => ?_
    refine (Follows.of_eq _).bind fun offset _ hoffset => ?_
    subst hoffset
    refine (Follows.of_eq _).map fun limit _ hlimit => ?_
    subst hlimit
    exact hQ.paged orderBy offset limit

/-- Pipelines with related links behind them. -/
theorem LinksRelated.pipeline (hK : K.Backs catalog) {labels : Option (List String)}
    {P P' : Pipeline} (hP : P.Precedes env K P') : {ls ls' : List ChainLink} →
    LinksRelated (QueryPlan.Ready catalog) ls ls' →
    Follows (Pipeline.Precedes env K) (linkPipelines labels P ls) (linkPipelines labels P' ls')
  | _, _, .nil => .pure hP
  | _, _, @LinksRelated.cons _ _ _ op _ _ h hls => by
    simp only [linkPipelines, ChainLink.pipeline, bind_assoc]
    refine (QueryNode.Related.pipeline hK h).bind fun Q Q' hQ => ?_
    exact LinksRelated.pipeline hK (hP.linked hQ labels op) hls

end

end

end RecordQuery
