import RecordQuery.Proofs.Pipeline.Reading

set_option autoImplicit false

/-!
# Plans without duplicates

A selection of one column without duplicates reduces what the selection with duplicates reads. Both
plans are the same but for the reduction, and stay so when they are bound and prepared.

## Main definitions

* `QueryPlan.IsPlain`, `QueryPlan.Returns` — a plan returns a column of what it reads, as it is.
* `QueryPlan.deduplicated` — the plan that reduces the rows of another one to those of a column.
* `QueryPlan.Deduplicates` — the two plans of a selection.

## Main results

* `QueryPlan.Deduplicates.bind` — binding the two plans.
* `QueryPlan.Deduplicates.prepare` — preparing them.
-/

namespace RecordQuery

open Outcome

/-- A column that shows a bin of the main table stands under the name of that bin, and is neither
the key nor its digest if it is returned. A column that is not returned shows a bin. -/
structure Column.IsOwn (c : Column) : Prop where
  /-- Columns are carried for their bins. -/
  carried : c.isVisible = false → c.value = .bin
  /-- The place in the rows. -/
  source : c.value = .bin → c.source = c.name
  /-- The name. -/
  isBin : c.value = .bin → c.isVisible = true → c.name ≠ keyColumn ∧ c.name ≠ digestColumn

namespace QueryPlan

variable {c : Column} {p q p' q' : QueryPlan} {params : List Value}

/-- A plan reads no index and shows columns of one table; nothing is joined, reduced, ordered or cut
off. -/
structure IsPlain (p : QueryPlan) : Prop where
  /-- Every column is one of the main table. -/
  own : ∀ d ∈ p.columns, d.IsOwn
  /-- No index is read. -/
  indexes : p.indexes = []
  /-- Nothing is joined. -/
  joins : p.joins = []
  /-- Nothing is reduced. -/
  reduction : p.reduction = none
  /-- There is no condition on groups. -/
  having : p.having = none
  /-- The rows come as they are read. -/
  orderBy : p.orderBy = []
  /-- No row is skipped. -/
  offset : p.offset = none
  /-- No row is cut off. -/
  limit : p.limit = none

/-- A plain plan returns one column, which shows a bin. -/
structure Returns (c : Column) (p : QueryPlan) : Prop extends p.IsPlain where
  /-- One column is returned. -/
  visible : Column.visible p.columns = [c]
  /-- It shows a bin. -/
  value : c.value = .bin
  /-- No other column is returned. -/
  wildcard : p.wildcard = false

/-- The plan that reduces what another one reads to the different values of a column. -/
def deduplicated (p : QueryPlan) (c : Column) (s : Option AccessStrategy) : QueryPlan :=
  { p with
    toTablePlan := { p.toTablePlan with strategy := s }
    reduction := some ⟨.distinct c.name, p.outputMapping⟩
    distinct := true }

/-- The plan of a selection of one column, and the one of the selection without duplicates. -/
structure Deduplicates (c : Column) (p q : QueryPlan) : Prop where
  /-- The first plan returns the column. -/
  returns : p.Returns c
  /-- The second one reduces the rows of the first one. -/
  eq : ∃ s, q = p.deduplicated c s
  /-- The rows of a set are filtered by the store. -/
  rowFilter : p.source = none → p.rowFilter = none
  /-- The strategy of the first plan is the one for its conditions. -/
  settled : p.isSettled
  /-- So is that of the second one. -/
  settled' : q.isSettled

/-- The choice of strategies. -/
lemma Deduplicates.of_chooseStrategy {s : Option AccessStrategy} (h : p.Returns c)
    (hfilter : p.source = none → p.rowFilter = none) (hp : p.chooseStrategy = .ok p')
    (hq : (p.deduplicated c s).chooseStrategy = .ok q') : Deduplicates c p' q' := by
  have hsettled := isSettled_of_chooseStrategy hp
  have hsettled' := isSettled_of_chooseStrategy hq
  obtain ⟨t, rfl⟩ := eq_of_chooseStrategy hp
  obtain ⟨t', rfl⟩ := eq_of_chooseStrategy hq
  exact ⟨{ h with }, ⟨t', rfl⟩, hfilter, hsettled, hsettled'⟩

/-- The queries inside the two plans are replaced by others. -/
lemma Deduplicates.withQueries (h : Deduplicates c p q) {source : Option QueryNode}
    (hsource : source.isSome = p.source.isSome) (subqueries : List SubquerySlot) :
    Deduplicates c { p with source, subqueries } { q with source, subqueries } := by
  have hfilter : source = none → p.rowFilter = none := by
    rintro rfl
    exact h.rowFilter (Option.not_isSome_iff_eq_none.mp (by simp [← hsource]))
  obtain ⟨s, rfl⟩ := h.eq
  exact ⟨{ h.returns with }, ⟨s, rfl⟩, hfilter, h.settled.withSource hsource,
    h.settled'.withSource hsource⟩

/-! ## Binding -/

/-- **Binding the own parameters** of the two plans. Where a parameter is a float, the rows of a set
could not be reduced any more.

**Proof sketch.** Both bindings do the same steps with the same results. Without a float parameter
both choose a strategy for the bound conditions. With one, both turn to a row filter; for the plan
that reduces this is refused for a set, so there is a source, whose rows may be filtered. -/
lemma Deduplicates.bindOwn (h : Deduplicates c p q) (hp : p.bindOwn params = .ok p')
    (hq : q.bindOwn params = .ok q') : Deduplicates c p' q' := by
  obtain ⟨s, rfl⟩ := h.eq
  have hreturns := h.returns
  have hfilter := h.rowFilter
  simp only [QueryPlan.bindOwn, TablePlan.bindConditions, bind_eq_ok, pure_eq_ok] at hp hq
  obtain ⟨joins, hjoins, _, ⟨n, hn, k, hk, rfl⟩, offset, hoffset, limit, hlimit, hp⟩ := hp
  obtain ⟨joins', hjoins', _, ⟨n', hn', k', hk', rfl⟩, offset', hoffset', limit', hlimit', hq⟩ := hq
  obtain rfl := Except.ok.inj (hjoins.symm.trans hjoins')
  obtain rfl := Except.ok.inj (hn.symm.trans hn')
  obtain rfl := Except.ok.inj (hk.symm.trans hk')
  obtain rfl := Except.ok.inj (hoffset.symm.trans hoffset')
  obtain rfl := Except.ok.inj (hlimit.symm.trans hlimit')
  rw [hreturns.joins] at hjoins
  rw [hreturns.offset] at hoffset
  rw [hreturns.limit] at hlimit
  obtain rfl := Except.ok.inj hjoins
  obtain rfl := Except.ok.inj hoffset
  obtain rfl := Except.ok.inj hlimit
  have hbound : QueryPlan.Returns c
      { p with condition := n, keyCondition := k, joins := [], offset := none, limit := none } :=
    { hreturns with joins := rfl, offset := rfl, limit := rfl }
  split at hp
  · rename_i index hfloat
    obtain ⟨m, hm, hp⟩ := bind_eq_ok.mp hp
    simp only [show (({ p.deduplicated c s with condition := n, keyCondition := k } :
      QueryPlan).toTablePlan).floatParam? = some index from hfloat] at hq
    obtain ⟨m', hm', hq⟩ := bind_eq_ok.mp hq
    simp only [QueryPlan.filterByRow, deduplicated, Option.isSome_some, Bool.true_and] at hm hm'
    cases hclause : p.whereClause with
    | none =>
      rw [hclause] at hm
      cases hm
    | some e =>
      simp only [hclause, hreturns.reduction, Option.isSome_none, Bool.false_and,
        Bool.false_eq_true, if_false] at hm hm'
      split at hm'
      · cases hm'
      · rename_i hsource
        obtain rfl := Except.ok.inj hm
        obtain rfl := Except.ok.inj hm'
        have hreturned : QueryPlan.Returns c
            { p with
              condition := none, keyCondition := none, rowFilter := some e, whereClause := some e
              reduction := none, joins := [], offset := none, limit := none } :=
          { hbound with reduction := rfl }
        exact .of_chooseStrategy hreturned (fun hnone => absurd (by rw [hnone]; rfl) hsource) hp hq
  · rename_i hfloat
    simp only [show (({ p.deduplicated c s with condition := n, keyCondition := k } :
      QueryPlan).toTablePlan).floatParam? = none from hfloat] at hq
    exact .of_chooseStrategy hbound hfilter hp hq

/-- **Binding the two plans.**

**Proof sketch.** Both plans have the same source and the same sub-queries, so these are bound to
the same ones, and there is a source after the binding if and only if there was one before. The own
parts are bound by `Deduplicates.bindOwn`. -/
theorem Deduplicates.bind (h : Deduplicates c p q) (hp : p.bind params = .ok p')
    (hq : q.bind params = .ok q') : Deduplicates c p' q' := by
  obtain ⟨s, rfl⟩ := h.eq
  rw [QueryPlan.bind_eq] at hp hq
  obtain ⟨source, hsource, hp⟩ := bind_eq_ok.mp hp
  obtain ⟨slots, hslots, hp⟩ := bind_eq_ok.mp hp
  obtain ⟨source', hsource', hq⟩ := bind_eq_ok.mp hq
  obtain ⟨slots', hslots', hq⟩ := bind_eq_ok.mp hq
  obtain rfl := Except.ok.inj (hsource.symm.trans hsource')
  obtain rfl := Except.ok.inj (hslots.symm.trans hslots')
  refine (h.withQueries ?_ slots).bindOwn hp hq
  cases hnode : p.source with
  | none =>
    rw [hnode] at hsource
    obtain rfl := Except.ok.inj hsource
    rfl
  | some n =>
    rw [hnode] at hsource
    obtain ⟨m, -, hm⟩ := bind_eq_ok.mp hsource
    obtain rfl := Except.ok.inj hm
    rfl

/-! ## Preparing -/

/-- **The results of their sub-queries** are put into the two plans. -/
lemma Deduplicates.substitute (h : Deduplicates c p q) {rs : SlotResults}
    (hp : p.substitute rs = .ok p') (hq : q.substitute rs = .ok q') : Deduplicates c p' q' := by
  obtain ⟨s, rfl⟩ := h.eq
  unfold QueryPlan.substitute at hp hq
  obtain ⟨n, hn, hp⟩ := bind_eq_ok.mp hp
  obtain ⟨k, hk, hp⟩ := bind_eq_ok.mp hp
  obtain ⟨n', hn', hq⟩ := bind_eq_ok.mp hq
  obtain ⟨k', hk', hq⟩ := bind_eq_ok.mp hq
  obtain rfl := Except.ok.inj (hn.symm.trans hn')
  obtain rfl := Except.ok.inj (hk.symm.trans hk')
  have hreturns : QueryPlan.Returns c { p with condition := n, keyCondition := k } :=
    { h.returns with }
  exact .of_chooseStrategy hreturns h.rowFilter hp hq

/-- What preparing selections with the same queries inside comes to. -/
lemma exists_reads_prepare (env : ExecutionEnv) (K : Store) (source : Option QueryNode)
    (subqueries : List SubquerySlot) :
    ∃ (x : Except QueryError (Option QueryNode)) (y : Except QueryError SlotResults),
      (∀ s, x = .ok s → s.isSome = source.isSome) ∧
      ∀ p : QueryPlan, p.source = source → p.subqueries = subqueries →
        (p.prepare env).Reads K (x >>= fun s =>
          if subqueries.isEmpty then .ok { p with source := s }
          else y >>= QueryPlan.substitute { p with source := s }) := by
  obtain ⟨x, hx, hsome⟩ := @readsOnly_prepareSource K env source
  obtain ⟨y, hy, -⟩ := @readsOnly_slotResults K subqueries _ (@readsOnly_slotRuns K env subqueries)
  refine ⟨x, y, hsome, fun p hsource hslots => ?_⟩
  rw [QueryPlan.prepare_eq, hsource, hslots]
  refine hx.bind fun s _ => ?_
  unfold QueryPlan.resolve
  split
  · exact .pure _
  · exact hy.bind fun rs _ => .lift _

/-- **Preparing the two plans.** Their sub-queries, and those of their sources, return the same.

**Proof sketch.** What is read for the source and the sub-queries depends on these only, and both
plans have the same. So they are prepared with the same source, and either both have no sub-queries
or the same results are substituted in both. -/
theorem Deduplicates.prepare {env : ExecutionEnv} {K : Store} (h : Deduplicates c p q)
    (hp : (p.prepare env).Reads K (.ok p')) (hq : (q.prepare env).Reads K (.ok q')) :
    Deduplicates c p' q' := by
  obtain ⟨s, rfl⟩ := h.eq
  obtain ⟨x, y, hsome, hprepare⟩ := exists_reads_prepare env K p.source p.subqueries
  have hp' := (hprepare p rfl rfl).unique hp
  have hq' := (hprepare (p.deduplicated c s) rfl rfl).unique hq
  obtain ⟨source, hsource, hp'⟩ := bind_eq_ok.mp hp'
  obtain ⟨source', hsource', hq'⟩ := bind_eq_ok.mp hq'
  obtain rfl := Except.ok.inj (hsource.symm.trans hsource')
  have hinside := h.withQueries (hsome source hsource) p.subqueries
  split at hp'
  · rename_i hempty
    rw [if_pos hempty] at hq'
    obtain rfl := Except.ok.inj hp'
    obtain rfl := Except.ok.inj hq'
    exact hinside
  · rename_i hslots
    rw [if_neg hslots] at hq'
    obtain ⟨rs, hrs, hp'⟩ := bind_eq_ok.mp hp'
    obtain ⟨rs', hrs', hq'⟩ := bind_eq_ok.mp hq'
    obtain rfl := Except.ok.inj (hrs.symm.trans hrs')
    exact hinside.substitute hp' hq'

end QueryPlan

end RecordQuery
