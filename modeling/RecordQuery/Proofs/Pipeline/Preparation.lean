import RecordQuery.Proofs.Pipeline.Catalog

set_option autoImplicit false

/-!
# Sub-queries with and without indexes

The sub-queries of a query run before the query does. With indexes they return the same values as
without, so that the values that take their places are the same and the query stays as it is but for
indexes and strategies.

## Main results

* `QueryPlan.Ready.substitute` — the results of sub-queries settle a plan again.
* `QueryNode.Related.prepare` — queries whose sub-queries have run.
-/

namespace RecordQuery

open Outcome

variable {catalog : IndexCatalog} {K : Store} {env : ExecutionEnv}

/-- The same is required of related sub-queries. -/
lemma QueryNode.Related.checkColumns_eq {n n' : QueryNode}
    (h : n.Related (QueryPlan.Ready catalog) n') (context : SubqueryContext) :
    SubquerySlot.checkColumns ⟨n, context⟩ = SubquerySlot.checkColumns ⟨n', context⟩ := by
  have hfirst := h.firstPlan.indexed
  have hlabels := QueryPlan.Twin.labels_eq hfirst (TablePlan.Indexed.twinning catalog)
  simp only [SubquerySlot.checkColumns, hfirst.wildcard, hlabels]

/-- The values of related sub-queries whose runs follow each other.

**Proof sketch.** By induction on the slots. Related slots have the same columns to check and take
their values from the rows in the same way, so each step follows the other one. -/
lemma SlotsRelated.slotResults {ss ss' : List SubquerySlot} {runs runs' : List (StoreM (List Row))}
    (h : SlotsRelated (QueryPlan.Ready catalog) ss ss')
    (hruns : List.Forall₂ (StoreM.Follows K Eq) runs runs') :
    StoreM.Follows K Eq (slotResults (m := StoreM) ss runs) (slotResults ss' runs') := by
  induction ss generalizing ss' runs runs' with
  | nil =>
    cases h
    exact .pure rfl
  | cons s ss ih =>
    cases h with
    | @cons n n' context _ ss' hn hss =>
      cases hruns with
      | nil => exact .pure rfl
      | cons hrun hruns =>
        simp only [RecordQuery.slotResults, hn.checkColumns_eq]
        refine (StoreM.Follows.lift (.of_eq _)).bind fun _ _ _ => ?_
        refine hrun.bind fun rows _ hrows => ?_
        subst hrows
        refine (StoreM.Follows.lift (.of_eq (SubquerySlot.values ⟨n, context⟩ rows))).bind
          fun vs _ hvs => ?_
        subst hvs
        exact (ih hss hruns).map fun rest _ hrest => by rw [hrest]

namespace QueryPlan

variable {p p' : QueryPlan}

/-- **The results of sub-queries settle a plan again.**

**Proof sketch.** The conditions are the same on both sides, and so are the results that are filled
in. The filled condition keeps the kinds of its values, so the plans are again alike but for the
index, and choose their strategies again. -/
lemma Ready.substitute (h : p.Ready catalog p') (hsource : p.source.isSome = p'.source.isSome)
    (rs : SlotResults) :
    Follows (fun q q' => q.Ready catalog q' ∧ q.rest = p.rest ∧ q'.rest = p'.rest)
      (p.substitute rs) (p'.substitute rs) := by
  have htable : p.toTablePlan.Indexed catalog p'.toTablePlan := h.indexed.table
  have hcondition : p'.condition = p.condition := by rw [htable.same]
  have hkey : p'.keyCondition = p.keyCondition := by rw [htable.same]
  unfold QueryPlan.substitute
  rw [hcondition, hkey]
  refine (Follows.of_eq _).returned.bind fun c _ ⟨hc, hfilled, _⟩ => ?_
  subst hc
  refine (Follows.of_eq _).bind fun k _ hk => ?_
  subst hk
  have hkinded : c.all Condition.isKinded = true := by
    rcases mapM_eq_ok hfilled with ⟨-, rfl⟩ | ⟨d, d', hd, rfl, hsubstitute⟩
    · rfl
    · have hkinded := htable.kinded
      rw [hd] at hkinded
      exact Condition.isKinded_substitute d d' hsubstitute hkinded
  have hwith : QueryPlan.Indexed catalog { p with condition := c, keyCondition := k }
      { p' with condition := c, keyCondition := k } :=
    { h.indexed with
      table := htable.withConditions k hkinded
      rest := ⟨h.indexed.rest.1, h.indexed.rest.2⟩ }
  exact hwith.ready hsource

/-- Selections with the results of their sub-queries. -/
lemma Related.resolve {runs runs' : List (StoreM (List Row))}
    (h : p.Related (QueryPlan.Ready catalog) p')
    (hruns : List.Forall₂ (StoreM.Follows K Eq) runs runs') :
    StoreM.Follows K (QueryPlan.Related (QueryPlan.Ready catalog)) (p.resolve (m := StoreM) runs)
      (p'.resolve runs') := by
  unfold QueryPlan.resolve
  rw [h.subqueries.isEmpty_eq]
  split
  · exact .pure h
  · refine (h.subqueries.slotResults hruns).bind fun rs _ hrs => ?_
    subst hrs
    refine .lift ((h.self.substitute h.source.isSome_eq rs).mono fun q q' ⟨hq, hr, hr'⟩ => ?_)
    refine .intro hq ?_ ?_
    · rw [show q.source = p.source from congrArg Rest.source hr,
        show q'.source = p'.source from congrArg Rest.source hr']
      exact h.source
    · rw [show q.subqueries = p.subqueries from congrArg Rest.subqueries hr,
        show q'.subqueries = p'.subqueries from congrArg Rest.subqueries hr']
      exact h.subqueries

/-- What preparing a selection does. -/
lemma prepare_eq (env : ExecutionEnv) (p : QueryPlan) :
    p.prepare env = (do
      let source ← prepareSource env p.source
      QueryPlan.resolve { p with source } (slotRuns env p.subqueries)) := by
  cases p
  rw [QueryPlan.prepare]

/-- Without sub-queries there is nothing to put in. -/
lemma resolve_eq_pure (hslots : p.subqueries = []) (runs : List (StoreM (List Row))) :
    p.resolve runs = (pure p : StoreM QueryPlan) := by
  unfold resolve
  rw [if_pos (List.isEmpty_iff.mpr hslots)]

/-- A plan of the store without sub-queries needs no preparing. -/
lemma prepare_eq_pure (env : ExecutionEnv) (hsource : p.source = none)
    (hslots : p.subqueries = []) : p.prepare env = pure p := by
  have hself : { p with source := none } = p := by
    cases p
    cases hsource
    rfl
  rw [prepare_eq, hsource]
  exact (resolve_eq_pure (p := { p with source := none }) hslots _).trans (congrArg pure hself)

end QueryPlan

mutual

/-- Selections whose sub-queries, and those of their sources, have run. -/
theorem QueryPlan.Related.prepare (hK : K.Backs catalog) : {p p' : QueryPlan} →
    p.Related (QueryPlan.Ready catalog) p' →
    StoreM.Follows K (QueryPlan.Related (QueryPlan.Ready catalog)) (p.prepare env) (p'.prepare env)
  | p, p', .intro h hsource hslots => by
    rw [QueryPlan.prepare_eq, QueryPlan.prepare_eq]
    refine (SourceRelated.prepare hK hsource).bind fun source source' ⟨hs, hsome⟩ => ?_
    have hsome' : source'.isSome = p'.source.isSome := by
      rw [← hs.isSome_eq, hsome, hsource.isSome_eq]
    have hinside : QueryPlan.Ready catalog { p with source := source }
        { p' with source := source' } :=
      ⟨{ h.indexed with rest := ⟨h.indexed.rest.rowFilter, h.indexed.rest.whereClause⟩ },
        h.settled.withSource hsome, h.settled'.withSource hsome'⟩
    exact (QueryPlan.Related.intro hinside hs hslots).resolve (SlotsRelated.runs hK hslots)

/-- Sources whose sub-queries have run. -/
theorem SourceRelated.prepare (hK : K.Backs catalog) : {s s' : Option QueryNode} →
    SourceRelated (QueryPlan.Ready catalog) s s' →
    StoreM.Follows K (fun t t' => SourceRelated (QueryPlan.Ready catalog) t t' ∧
      t.isSome = s.isSome)
      (prepareSource env s) (prepareSource env s')
  | _, _, .none => .pure ⟨.none, rfl⟩
  | _, _, .some h => (QueryNode.Related.prepare hK h).map fun _ _ hn => ⟨.some hn, rfl⟩

/-- The runs of related sub-queries return the same. -/
theorem SlotsRelated.runs (hK : K.Backs catalog) : {ss ss' : List SubquerySlot} →
    SlotsRelated (QueryPlan.Ready catalog) ss ss' →
    List.Forall₂ (StoreM.Follows K Eq) (slotRuns env ss) (slotRuns env ss')
  | _, _, .nil => .nil
  | _, _, .cons h hss => by
    refine .cons ?_ (SlotsRelated.runs hK hss)
    refine (QueryNode.Related.prepare hK h).bind fun n n' hn => ?_
    have hpipelines : Follows (Pipeline.Precedes env K) n.pipeline n'.pipeline :=
      QueryNode.Related.pipeline hK hn
    refine (StoreM.Follows.lift hpipelines).bind fun P P' hP => ?_
    exact .of_reads (P.reads_drain env K) (P'.reads_drain env K)
      (hP.bind fun l m hlm => hlm.complete)

/-- **Queries whose sub-queries have run.** -/
theorem QueryNode.Related.prepare (hK : K.Backs catalog) : {n n' : QueryNode} →
    n.Related (QueryPlan.Ready catalog) n' →
    StoreM.Follows K (QueryNode.Related (QueryPlan.Ready catalog)) (n.prepare env) (n'.prepare env)
  | _, _, .plan h => (QueryPlan.Related.prepare hK h).map fun _ _ hp => .plan hp
  | _, _, .chain h => (ChainPlan.Related.prepare hK h).map fun _ _ hc => .chain hc

/-- Set operations whose sub-queries have run. -/
theorem ChainPlan.Related.prepare (hK : K.Backs catalog) : {c c' : ChainPlan} →
    c.Related (QueryPlan.Ready catalog) c' →
    StoreM.Follows K (ChainPlan.Related (QueryPlan.Ready catalog)) (c.prepare env) (c'.prepare env)
  | _, _, .intro orderBy offset limit h hls => by
    refine (QueryNode.Related.prepare hK h).bind fun n n' hn => ?_
    exact (LinksRelated.prepare hK hls).map fun ls ls' hls => .intro orderBy offset limit hn hls

/-- Links whose sub-queries have run. -/
theorem LinksRelated.prepare (hK : K.Backs catalog) : {ls ls' : List ChainLink} →
    LinksRelated (QueryPlan.Ready catalog) ls ls' →
    StoreM.Follows K (LinksRelated (QueryPlan.Ready catalog)) (prepareLinks env ls)
      (prepareLinks env ls')
  | _, _, .nil => .pure .nil
  | _, _, .cons h hls => by
    simp only [prepareLinks, ChainLink.prepare, bind_assoc, pure_bind]
    refine (QueryNode.Related.prepare hK h).bind fun n n' hn => ?_
    exact (LinksRelated.prepare hK hls).map fun ls ls' hls => .cons hn hls

end

end RecordQuery
