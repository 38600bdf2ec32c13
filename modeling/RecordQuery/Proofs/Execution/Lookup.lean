import RecordQuery.Proofs.Execution.Catalog

set_option autoImplicit false

/-!
# Queries that an index misleads

A numeric index on a bin answers the query for the records whose bin equals an integer. It does not
lead to the records that hold a truth value in the bin, while a scan compares truth values as `0`
and `1`. So one such record is enough for an index to change the answer of a query.

## Main definitions

* `Query.lookup` — the query for the records of a set whose bin equals an integer.

## Main results

* `Statement.reads_lookup` — the query answers with the records that its strategy finds.
* `Statement.answer_catalog` — indexes leave all answers as they are if no record holds a truth
  value where a numeric index orders integers, and otherwise some query shows the difference. -/

namespace RecordQuery

open Outcome

variable {ns set bin : String} {k : Int64}

/-- The condition that a bin equals an integer. -/
def Expr.lookup (bin : String) (k : Int64) : Expr :=
  .binary (.compare .eq) (.column ⟨none, bin⟩) (.literal (.integer k))

/-- The query for the records of a set whose bin equals an integer. -/
def Query.lookup (ns set bin : String) (k : Int64) : Query :=
  { body := .select
      { distinct := false, items := [.all], source := .named ⟨some ns, set⟩ none, joins := [],
        condition := some (.lookup bin k), groupBy := [], having := none }
    orderBy := [], limit := none, offset := none }

/-- The plan of such a query, with a strategy. -/
def QueryPlan.lookup (ns set bin : String) (k : Int64) (indexes : List IndexDefinition)
    (s : Option AccessStrategy) : QueryPlan :=
  { QueryPlan.ofTable
      { TablePlan.ofSet ns (some set) none with
        condition := some (.ofOperand bin .eq (.integer k)), indexes, strategy := s } with
    wildcard := true
    whereClause := some (.lookup bin k) }

/-- The condition that a bin equals an integer is left to the store.

**Proof sketch.** The column is neither the key nor the digest, so its side is a bin (`hside`), and
the comparison of a bin with an integer is one that the store decides (`hnative`). There is a single
conjunct, and it goes to the only table. -/
lemma compileWhere_lookup (hkey : bin ≠ keyColumn) (hdigest : bin ≠ digestColumn)
    (compileSub : Query → Except QueryError QueryNode) (scope : Scope) {p : QueryPlan}
    (hsource : p.source = none) (hjoins : p.joins = []) :
    compileWhere compileSub scope p (.lookup bin k) =
      .ok { p with
        toTablePlan := p.addCondition (.ofOperand bin .eq (.integer k))
        subqueries := [], whereClause := some (.lookup bin k) } := by
  have hside : side scope 0 (.column ⟨none, bin⟩) = .ok (.bin bin) := by
    simp [side, Expr.unwrap, Scope.resolve, hkey, hdigest]
  have hnative : (compileConjuncts compileSub scope 0 [.lookup bin k]).run [] =
      .ok ([some (.bins (.ofOperand bin .eq (.integer k)))], []) := by
    simp only [compileConjuncts, Expr.lookup, compileConjunct, hside]
    rfl
  have hmain : mainConditions compileSub scope p [.lookup bin k] =
      .ok ([some (.bins (.ofOperand bin .eq (.integer k)))], []) := by
    rw [mainConditions, hsource, hnative]
    rfl
  have hrouted :
      routeConjuncts scope (Expr.lookup bin k).conjuncts = .ok [(0, .lookup bin k)] := rfl
  obtain ⟨t, _, _, _, _, _, _, joins, _, _, _, source, _⟩ := p
  obtain rfl : joins = [] := hjoins
  simp only [compileWhere, hrouted, ok_bind]
  simp only [compileMain]
  change (mainConditions compileSub scope _ [Expr.lookup bin k] >>= _) >>= _ = _
  rw [hmain]
  rfl

/-- The plan of the query for such records. -/
lemma compileSelect_lookup (env : CompileEnv) (hkey : bin ≠ keyColumn)
    (hdigest : bin ≠ digestColumn) {s : AccessStrategy}
    (compileSub : Query → Except QueryError QueryNode)
    (hs :
      (QueryPlan.lookup ns set bin k (env.indexes.forSet ns set) none).readingStrategy = .ok s) :
    compileSelect env compileSub
      { distinct := false, items := [.all], source := .named ⟨some ns, set⟩ none, joins := [],
        condition := some (.lookup bin k), groupBy := [], having := none } [] none none =
      .ok (.lookup ns set bin k (env.indexes.forSet ns set) (some s)) := by
  have hwhere := compileWhere_lookup hkey hdigest (k := k) compileSub [⟨some set, none⟩]
    (p := { QueryPlan.ofTable (env.tablePlan ⟨some ns, set⟩ none) with wildcard := true }) rfl rfl
  unfold compileSelect
  change (compileWhere compileSub _ _ (.lookup bin k) >>= _) = _
  refine (congrArg (fun x => x >>= _) hwhere).trans ?_
  change (TablePlan.readingStrategy _ >>= _) = _
  refine (congrArg (fun x => x >>= _) hs).trans ?_
  rfl

/-- The query is compiled to that plan, and binding it to no parameters changes nothing. -/
lemma plan_lookup (hkey : bin ≠ keyColumn) (hdigest : bin ≠ digestColumn) (ns' : String)
    {catalog : IndexCatalog} {s : AccessStrategy}
    (hs : (QueryPlan.lookup ns set bin k (catalog.forSet ns set) none).readingStrategy = .ok s) :
    (Statement.query (.lookup ns set bin k)).plan ⟨ns', catalog⟩ =
      .ok (.query (.plan (.lookup ns set bin k (catalog.forSet ns set) (some s)))) := by
  have hselect := compileSelect_lookup ⟨ns', catalog⟩ hkey hdigest
    (compileBelow ⟨ns', catalog⟩ 0) hs
  have hquery : compileWith ⟨ns', catalog⟩ (compileBelow ⟨ns', catalog⟩ 0)
      (.lookup ns set bin k) =
        .ok (.plan (.lookup ns set bin k (catalog.forSet ns set) (some s))) :=
    congrArg (fun x => x >>= fun p => pure (QueryNode.plan p)) hselect
  exact congrArg (fun x => x >>= fun n => pure (StatementPlan.query n)) hquery

/-- Binding the plan to parameters changes nothing. -/
lemma bind_lookup (params : List Value) {indexes : List IndexDefinition} {s : AccessStrategy}
    (hs : (QueryPlan.lookup ns set bin k indexes none).readingStrategy = .ok s) :
    (StatementPlan.query (.plan (.lookup ns set bin k indexes (some s)))).bind params =
      .ok (.query (.plan (.lookup ns set bin k indexes (some s)))) := by
  have hplan : (QueryPlan.lookup ns set bin k indexes (some s)).bind params =
      .ok (.lookup ns set bin k indexes (some s)) :=
    congrArg (fun x => x >>= fun s => pure (QueryPlan.lookup ns set bin k indexes (some s))) hs
  have hnode : (QueryNode.plan (.lookup ns set bin k indexes (some s))).bind params =
      .ok (.plan (.lookup ns set bin k indexes (some s))) :=
    congrArg (fun x => x >>= fun p => pure (QueryNode.plan p)) hplan
  exact congrArg (fun x => x >>= fun n => pure (StatementPlan.query n)) hnode

/-- **The query answers with the records that its strategy finds**, all columns of each.

**Proof sketch.** The plan of the query and its binding are known (`plan_lookup`, `bind_lookup`),
and it is not changed by preparing it. Its pipeline projects all columns of what the strategy finds
(`hlisting`), and an answer reads the listing of its pipeline (`Statement.reads_answer`). -/
theorem Statement.reads_lookup (hkey : bin ≠ keyColumn) (hdigest : bin ≠ digestColumn)
    (config : Config) {catalog : IndexCatalog} {s : AccessStrategy} (params : List Value)
    (hs : (QueryPlan.lookup ns set bin k (catalog.forSet ns set) none).readingStrategy = .ok s)
    {K : Store} {rs : List Record}
    (hfound : (⟨ns, set, s, false⟩ : TableAccess).records K = .ok rs) :
    ((Statement.query (.lookup ns set bin k)).answer config catalog params).Reads K
      (.ok (.rows [] (rs.map fun r =>
        Projection.allColumns ⟨[], true, [], [], false⟩ (Row.ofRecord r false)))) := by
  have hcompile : (Statement.query (.lookup ns set bin k)).compile config catalog =
      .ok ⟨.query (.plan (.lookup ns set bin k (catalog.forSet ns set) (some s))), 0, config⟩ :=
    congrArg (fun x => x >>= fun p => pure (Executable.mk p 0 config))
      (plan_lookup hkey hdigest config.defaultNamespace hs)
  have hbound : ((Statement.query (.lookup ns set bin k)).compile config catalog >>= fun e =>
      e.bind params) = .ok ⟨.query (.plan (.lookup ns set bin k (catalog.forSet ns set) (some s))),
        params, config⟩ := by
    rw [hcompile]
    change Executable.bind ⟨_, 0, config⟩ params = _
    unfold Executable.bind
    rw [if_neg (Nat.not_lt_zero _)]
    exact congrArg (fun x => x >>= fun p => pure (BoundStatement.mk p params config))
      (bind_lookup params hs)
  have hpipeline : (QueryNode.plan (.lookup ns set bin k (catalog.forSet ns set)
      (some s))).pipeline = .ok (.project (.fetch ⟨ns, set, s, false⟩) ⟨[], true, [], [], false⟩) :=
    rfl
  have hlisting : ∀ env : ExecutionEnv, (Pipeline.project (.fetch ⟨ns, set, s, false⟩)
      ⟨[], true, [], [], false⟩).listing env K = .ok (.ofRows (rs.map fun r =>
        Projection.allColumns ⟨[], true, [], [], false⟩ (Row.ofRecord r false))) := by
    intro env
    have hrows : (⟨ns, set, s, false⟩ : TableAccess).found K =
        .ok (rs.map (fun r => Row.ofRecord r false)) := by
      rw [TableAccess.found, hfound]
      rfl
    rw [Pipeline.listing, Pipeline.listing, hrows]
    change Except.ok (Listing.mapRows _ (.ofRows _)) = _
    have hrow : ∀ row, Projection.row ⟨[], true, [], [], false⟩ row =
        .ok (Projection.allColumns ⟨[], true, [], [], false⟩ row) := fun _ => rfl
    rw [Listing.mapRows_ofRows _ hrow, List.map_map]
    rfl
  have hprepared : ((QueryNode.plan (.lookup ns set bin k (catalog.forSet ns set)
      (some s))).prepare ⟨params, config.batchSize, config.maxSortRows⟩).Reads K
        (.ok (.plan (.lookup ns set bin k (catalog.forSet ns set) (some s)))) := .pure _
  have hanswer := Statement.reads_answer hbound hprepared hpipeline
  rw [hlisting] at hanswer
  exact hanswer

/-- Without indexes the strategy of the query is a scan, which finds the records on which the
comparison holds. -/
lemma exists_plain_lookup (ns set bin : String) (k : Int64) (K : Store) :
    ∃ s, (QueryPlan.lookup ns set bin k [] none).readingStrategy = .ok s ∧
      (⟨ns, set, s, false⟩ : TableAccess).records K =
        .ok ((K.recordsOf ns set).filter (Condition.ofOperand bin .eq (.integer k)).holds) := by
  have hplain : (QueryPlan.lookup ns set bin k [] none).readingStrategy =
      .ok (.fullScan (Condition.ofOperand bin .eq (.integer k)).program none) := rfl
  refine ⟨_, hplain, ?_⟩
  change K.select ⟨ns, set, none, Program.conjunction
    [(Condition.ofOperand bin .eq (.integer k)).program, []]⟩ = _
  rw [Program.conjunction_nil]
  exact Store.select_eq_filter fun r => Condition.run_program r rfl

/-- A plan without a condition on the key, of whose condition an index serves a part, chooses the
index. -/
lemma TablePlan.readingStrategy_of_splitIndex? {p : TablePlan} {c : Condition} {f : IndexFilter}
    {rest : Option Condition} (hkey : p.keyCondition = none) (hc : p.condition = some c)
    (h : c.splitIndex? p.indexes = some (f, rest)) :
    p.readingStrategy = .ok (.indexScan f (Condition.programOf rest)) := by
  simp only [readingStrategy, filterAndResidual, hkey, hc, Option.bind_some, h]

/-- Where an index orders the integers of the bin, the strategy of the query goes through the index.
It finds those records but for the ones with a truth value in the bin.

**Proof sketch.** The condition becomes an index filter (`hfilter`) with nothing left to test
(`hsplit`), so the strategy is an index scan. The store serves it, and an entry of the index is
visited if its value equals the integer and is no truth value (`hvisited`). -/
lemma exists_indexed_lookup {indexes : List IndexDefinition} {i : IndexDefinition}
    (hi : i ∈ indexes) (htype : i.type = .numeric) {K : Store}
    (hserves : K.serves ns set (.equal i.bin (.integer k)) = true) :
    ∃ s, (QueryPlan.lookup ns set i.bin k indexes none).readingStrategy = .ok s ∧
      (⟨ns, set, s, false⟩ : TableAccess).records K =
        .ok ((K.recordsOf ns set).filter fun r =>
          (Condition.ofOperand i.bin .eq (.integer k)).holds r && !r.hasTruthAt i.bin) := by
  have hindex : indexes.any (fun j => j.bin == i.bin && j.supports (.integer k)) = true := by
    rw [List.any_eq_true]
    exact ⟨i, hi, by simp [IndexDefinition.supports, htype]⟩
  have hfilter : (Condition.ofOperand i.bin .eq (.integer k)).indexFilter? indexes =
      some (.equal i.bin (.integer k)) := by
    change (if _ then _ else _) = _
    rw [if_pos hindex]
  have hsplit : (Condition.ofOperand i.bin .eq (.integer k)).splitIndex? indexes =
      some (.equal i.bin (.integer k), none) := by
    unfold Condition.splitIndex?
    rw [hfilter]
  have hstrategy : (QueryPlan.lookup ns set i.bin k indexes none).readingStrategy =
      .ok (.indexScan (.equal i.bin (.integer k)) (Condition.programOf none)) :=
    TablePlan.readingStrategy_of_splitIndex? rfl rfl hsplit
  refine ⟨_, hstrategy, ?_⟩
  change K.select ⟨ns, set, some (.equal i.bin (.integer k)), []⟩ = _
  unfold Store.select
  change (if K.serves ns set (.equal i.bin (.integer k)) then _ else _) = _
  rw [if_pos hserves]
  refine (filterExcept_eq_ok fun r _ => Program.run_nil).trans ?_
  have hvisited : (K.recordsOf ns set).filter
      (Store.visits (some (.equal i.bin (.integer k)))) = (K.recordsOf ns set).filter fun r =>
        (Condition.ofOperand i.bin .eq (.integer k)).holds r && !r.hasTruthAt i.bin :=
    List.filter_congr fun r _ => Condition.equal_accepts rfl rfl r
  rw [List.filter_true, hvisited]

/-- **Where a record holds a truth value in a bin that a numeric index orders, there is a query that
the index makes miss the record.**

**Proof sketch.** The query looks for the number that the truth value counts as. Without the catalog
it finds the record; with it, the index makes it find the same records but for those with a truth
value (`exists_indexed_lookup`), so at least one less. -/
theorem Statement.exists_missed {K : Store} {catalog : IndexCatalog} {i : IndexDefinition}
    (hdefined : i ∈ K.indexes) (hi : i ∈ catalog) (htype : i.type = .numeric)
    (hkey : i.bin ≠ keyColumn) (hdigest : i.bin ≠ digestColumn) {r : Record}
    (hr : r ∈ K.recordsOf i.ns i.set) (htruth : r.hasTruthAt i.bin = true) (config : Config)
    (params : List Value) :
    ∃ s : Statement, ∃ rows rows' : List Row,
      (s.answer config [] params).Reads K (.ok (.rows [] rows)) ∧
        (s.answer config catalog params).Reads K (.ok (.rows [] rows')) ∧
          rows'.length < rows.length := by
  obtain ⟨b, hb⟩ : ∃ b, r.bin? i.bin = some (.boolean b) := by
    unfold Record.hasTruthAt at htruth
    split at htruth
    · exact ⟨_, ‹_›⟩
    · cases htruth
  have hserves : K.serves i.ns i.set (.equal i.bin (.integer (boolInt b))) = true := by
    rw [Store.serves, List.any_eq_true]
    exact ⟨i, hdefined, by simp [IndexFilter.bin]⟩
  have hforSet : i ∈ catalog.forSet i.ns i.set := by
    simp [IndexCatalog.forSet, hi]
  obtain ⟨s, hs, hfound⟩ := exists_plain_lookup i.ns i.set i.bin (boolInt b) K
  obtain ⟨s', hs', hfound'⟩ := exists_indexed_lookup hforSet htype hserves
  refine ⟨.query (.lookup i.ns i.set i.bin (boolInt b)), _, _,
    reads_lookup hkey hdigest config params hs hfound,
    reads_lookup hkey hdigest config params hs' hfound', ?_⟩
  have hholds : (Condition.ofOperand i.bin .eq (.integer (boolInt b))).holds r = true := by
    simp only [Condition.ofOperand, Condition.holds, hb]
    cases b <;> rfl
  have hmissed : (K.recordsOf i.ns i.set).filter (fun r =>
      (Condition.ofOperand i.bin .eq (.integer (boolInt b))).holds r && !r.hasTruthAt i.bin) =
        ((K.recordsOf i.ns i.set).filter
          (Condition.ofOperand i.bin .eq (.integer (boolInt b))).holds).filter
            fun r => !r.hasTruthAt i.bin := by
    rw [List.filter_filter]
    exact List.filter_congr fun r _ => Bool.and_comm _ _
  rw [List.length_map, List.length_map, hmissed, List.length_filter_lt_length_iff_exists]
  exact ⟨r, List.mem_filter.mpr ⟨hr, hholds⟩, by simp [htruth]⟩

/-- **Indexes change no answer, unless they order bins with truth values.** The catalog lists
indexes of the store.

* If no record holds a truth value in a bin that a numeric index orders, a statement that answers
  without indexes gives the same answer with them, and leaves the same records.
* Wherever a record holds one, in a bin that queries can name, some query misses rows with the
  indexes that it returns without.
* What an index finds for a part of a condition and what remains of the condition hold together for
  just the records that meet the condition and hold no truth value in the bin of the index.

**Proof sketch.** The first part is a simulation: at every step, from compiling to reading the last
row, what is computed with indexes differs from what is computed without in indexes and strategies
only, and strategies with an index find what those without find. For the second part the truth value
is looked up as the integer that a scan compares it as. -/
theorem Statement.answer_catalog {st : Store} {catalog : IndexCatalog}
    (hdefined : ∀ i ∈ catalog, i ∈ st.indexes) :
    ((∀ i ∈ catalog, i.type = .numeric →
        ∀ r ∈ st.recordsOf i.ns i.set, r.hasTruthAt i.bin = false) →
      ∀ (config : Config) (s : Statement) (params : List Value),
        StoreM.Repeats (s.answer config [] params) (s.answer config catalog params) st) ∧
    (∀ i ∈ catalog, i.type = .numeric → i.bin ≠ keyColumn → i.bin ≠ digestColumn →
      ∀ r ∈ st.recordsOf i.ns i.set, r.hasTruthAt i.bin = true →
        ∀ (config : Config) (params : List Value),
          ∃ (s : Statement) (rows rows' : List Row) (last last' : Store),
            s.answer config [] params st = (.ok (.rows [] rows), last) ∧
              s.answer config catalog params st = (.ok (.rows [] rows'), last') ∧
                rows'.length < rows.length) ∧
    ∀ (indexes : List IndexDefinition) (c : Condition) (f : IndexFilter) (rest : Option Condition),
      c.splitIndex? indexes = some (f, rest) → c.isKinded = true → ∀ r : Record,
        (f.accepts r && rest.all (Condition.holds r)) = (c.holds r && !r.hasTruthAt f.bin) := by
  refine ⟨fun hintegral config s params => ?_, ?_, fun indexes c f rest hsplit hkinded r => ?_⟩
  · exact s.answer_of_backs ⟨hdefined, hintegral⟩ config params
  · intro i hi htype hkey hdigest r hr htruth config params
    obtain ⟨s, rows, rows', hplain, hindexed, hlt⟩ :=
      exists_missed (hdefined i hi) hi htype hkey hdigest hr htruth config params
    obtain ⟨last, hlast, -⟩ := hplain st (.refl st)
    obtain ⟨last', hlast', -⟩ := hindexed st (.refl st)
    exact ⟨s, rows, rows', last, last', hlast, hlast', hlt⟩
  · exact Condition.splitIndex?_accepts hsplit hkinded r

/-- A store with one record, which holds a truth value in a bin with a numeric index. -/
def Store.flagged : Store :=
  { sets := OrderedMap.empty.set ("test", "people")
      (OrderedMap.empty.set (.integer 1) (OrderedMap.empty.set "flag" (.boolean true)))
    indexes := [⟨"test", "people", "flag", "by_flag", .numeric⟩]
    counts := .zero }

/-- In that store the index makes a query miss the record. -/
theorem Statement.answer_flagged :
    ∃ (s : Statement) (rows rows' : List Row) (last last' : Store),
      s.answer ⟨"test", 5000, none⟩ [] [] Store.flagged = (.ok (.rows [] rows), last) ∧
        s.answer ⟨"test", 5000, none⟩ Store.flagged.indexes [] Store.flagged =
          (.ok (.rows [] rows'), last') ∧ rows'.length < rows.length :=
  (@answer_catalog Store.flagged Store.flagged.indexes fun _ hi => hi).2.1
    ⟨"test", "people", "flag", "by_flag", .numeric⟩ (by decide) rfl (by decide) (by decide)
    ⟨⟨"test", "people", .integer 1⟩, OrderedMap.empty.set "flag" (.boolean true)⟩ (.head _) rfl
    ⟨"test", 5000, none⟩ []

end RecordQuery
