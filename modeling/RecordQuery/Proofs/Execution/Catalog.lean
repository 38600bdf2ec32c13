import RecordQuery.Proofs.Execution.Answer
import RecordQuery.Proofs.Pipeline.Preparation

set_option autoImplicit false

/-!
# Statements with and without indexes

A statement answers with indexes what it answers without, and changes the same records, as long as
no record holds a truth value in a bin that a numeric index orders.

## Main definitions

* `StatementPlan.Related` — plans of statements with related selections.

## Main results

* `StatementPlan.Related.answer` — related statements answer the same.
* `Statement.answer_of_backs` — indexes do not change answers where no truth value is in the way.
-/

namespace RecordQuery

open Outcome

variable {catalog : IndexCatalog} {K : Store} {env : ExecutionEnv}

/-! ## Queries -/

/-- What a related query answers. -/
lemma QueryNode.Related.answer (hK : K.Backs catalog) {n n' : QueryNode}
    (h : n.Related (QueryPlan.Ready catalog) n') :
    StoreM.Follows K Eq (openQuery env n >>= fun s => (Outcome.rows s).answer)
      (openQuery env n' >>= fun s => (Outcome.rows s).answer) := by
  simp only [openQuery, bind_assoc]
  refine (QueryNode.Related.prepare hK h).bind fun m m' hm => ?_
  have hfirst := hm.firstPlan.indexed
  have hlabels : m.labels = m'.labels :=
    QueryPlan.Twin.labels_eq hfirst (TablePlan.Indexed.twinning catalog)
  have hpipelines : Follows (Pipeline.Precedes env K) m.pipeline m'.pipeline :=
    QueryNode.Related.pipeline hK hm
  refine (StoreM.Follows.lift hpipelines).bind fun P P' hP => ?_
  refine .of_reads (RowStream.reads_answer env _ P K) (RowStream.reads_answer env _ P' K) ?_
  rw [hlabels]
  exact (hP.bind fun l l' hl => hl.complete).map fun rows rows' hrows => by rw [hrows]

/-! ## Changes -/

/-- The records that related selections find.

**Proof sketch.** The prepared plans are related as well, and what is fetched for the plan with
indexes comes before what is fetched without (`Pipeline.follows_fetch`). The row filter and the
limit are the same on both sides and keep that, and a pipeline is drained to its listing. -/
lemma QueryPlan.Related.selectedRows (hK : K.Backs catalog) {p p' : QueryPlan}
    (h : p.Related (QueryPlan.Ready catalog) p') (limit : Option RowBound) :
    StoreM.Follows K Eq (selectedRows env p limit) (RecordQuery.selectedRows env p' limit) := by
  refine (QueryPlan.Related.prepare hK h).bind fun q q' hq => ?_
  have hfilter : q.rowFilter = q'.rowFilter := hq.self.indexed.rest.rowFilter
  have hfetch : Follows (fun a a' => (Pipeline.fetch a).Precedes env K (.fetch a'))
      (TableAccess.ofPlan q.toTablePlan) (TableAccess.ofPlan q'.toTablePlan) :=
    Pipeline.follows_fetch hq.self hK hq.source.isSome_eq
  refine (StoreM.Follows.lift hfetch).bind fun a a' ha => ?_
  rw [hfilter]
  have hfound := ha.filtered q'.rowFilter
  have hdrain : ∀ P P' : Pipeline, P.Precedes env K P' →
      StoreM.Follows K Eq (P.cursor env).drain (P'.cursor env).drain := fun P P' hP =>
    .of_reads (P.reads_drain env K) (P'.reads_drain env K) (hP.bind fun l l' hl => hl.complete)
  cases limit with
  | none => exact hdrain _ _ hfound
  | some b =>
    simp only [Option.mapM_some, bind_map_left]
    refine (StoreM.Follows.lift (.of_eq b.value)).bind fun n _ hn => ?_
    subst hn
    exact hdrain _ _ (hfound.window 0 (some n.toNat))

/-- Related selections show the keys of the same records. -/
lemma recordKeyOf_eq {p p' : QueryPlan} (h : p.Indexed catalog p') :
    recordKeyOf p = recordKeyOf p' := by
  have hsame : p'.ns = p.ns ∧ p'.set = p.set := by
    rw [show p'.toTablePlan = _ from TablePlan.Indexed.same h.table]
    exact ⟨rfl, rfl⟩
  funext row
  simp only [recordKeyOf, hsame.1, hsame.2]

/-- Updates of the same records change them in the same way. -/
lemma UpdatePlan.same_runRows {p p' : QueryPlan} (h : recordKeyOf p = recordKeyOf p')
    (assignments : List (String × Expr)) (limit : Option RowBound) (params : List Value)
    (rows : List Row) :
    StoreM.Same (runRows ⟨p, assignments, limit⟩ params rows)
      (runRows ⟨p', assignments, limit⟩ params rows) := by
  induction rows with
  | nil => exact .pure 0
  | cons row rows ih =>
    simp only [runRows, h]
    exact (StoreM.Same.lift _).bind fun key => (StoreM.Same.lift _).bind fun bins =>
      (StoreM.Same.put key bins .merge).bind fun _ => ih.bind fun others => .pure _

/-- Deletions of the same records remove them in the same way. -/
lemma DeletePlan.same_runRows {p p' : QueryPlan} (h : recordKeyOf p = recordKeyOf p')
    (limit : Option RowBound) (rows : List Row) :
    StoreM.Same (runRows ⟨p, limit⟩ rows) (runRows ⟨p', limit⟩ rows) := by
  induction rows with
  | nil => exact .pure 0
  | cons row rows ih =>
    simp only [runRows, h]
    exact (StoreM.Same.lift _).bind fun key => (StoreM.Same.delete key).bind fun removed =>
      ih.bind fun others => .pure _

/-! ## Statements -/

/-- Plans of statements with related selections. -/
inductive StatementPlan.Related (S : QueryPlan → QueryPlan → Prop) :
    StatementPlan → StatementPlan → Prop
  /-- Queries. -/
  | query {n n' : QueryNode} : n.Related S n' → Related S (.query n) (.query n')
  /-- Updates. -/
  | update {p p' : QueryPlan} (assignments : List (String × Expr)) (limit : Option RowBound) :
      p.Related S p' → Related S (.update ⟨p, assignments, limit⟩)
        (.update ⟨p', assignments, limit⟩)
  /-- Deletions. -/
  | delete {p p' : QueryPlan} (limit : Option RowBound) :
      p.Related S p' → Related S (.delete ⟨p, limit⟩) (.delete ⟨p', limit⟩)
  /-- The same statement, which selects nothing and holds no parameters to bind. -/
  | refl {p : StatementPlan} : (∀ params, p.bind params = .ok p) → Related S p p

/-- The plans of a statement with and without a catalog.

**Proof sketch.** One case for each statement. Only queries and selections are compiled with the
catalog (`follows_compileBelow`, `follows_compileSelection`); assignments and limits are compiled
alike. -/
lemma follows_plan (ns : String) (catalog : IndexCatalog) (s : Statement) :
    Follows (StatementPlan.Related (QueryPlan.Indexed catalog)) (s.plan ⟨ns, []⟩)
      (s.plan ⟨ns, catalog⟩) := by
  cases s with
  | query q => exact (follows_compileBelow ns catalog (q.depth + 1) q).map fun n n' hn => .query hn
  | insert s =>
    exact (Follows.of_eq (s.plan ⟨ns, []⟩)).map fun p _ hp => hp ▸ .refl fun _ => rfl
  | update s =>
    simp only [Statement.plan, Update.plan, bind_assoc]
    refine (follows_compileSelection ns catalog s.table s.condition).bind fun p p' hp => ?_
    refine (Follows.of_eq _).bind fun _ _ _ => (Follows.of_eq _).bind fun limit _ hlimit => ?_
    subst hlimit
    exact .ok (.update s.assignments limit hp)
  | delete s =>
    simp only [Statement.plan, Delete.plan, bind_assoc]
    refine (follows_compileSelection ns catalog s.table s.condition).bind fun p p' hp => ?_
    refine (Follows.of_eq _).bind fun limit _ hlimit => ?_
    subst hlimit
    exact .ok (.delete limit hp)
  | truncate table => exact .ok (.refl fun _ => rfl)
  | createIndex s => exact .ok (.refl fun _ => rfl)
  | dropIndex name table => exact .ok (.refl fun _ => rfl)

/-- Binding keeps plans of statements related. -/
lemma StatementPlan.Related.bind {params : List Value} {p p' : StatementPlan}
    (h : p.Related (QueryPlan.Indexed catalog) p') :
    Follows (StatementPlan.Related (QueryPlan.Ready catalog)) (p.bind params) (p'.bind params) := by
  cases h with
  | query hn => exact (QueryNode.Related.bind hn).map fun n n' hn => .query hn
  | update assignments limit hp =>
    refine (QueryPlan.Related.bind hp).bind fun q q' hq => ?_
    refine (Follows.of_eq _).map fun limit _ hlimit => ?_
    subst hlimit
    exact .update assignments limit hq
  | delete limit hp =>
    refine (QueryPlan.Related.bind hp).bind fun q q' hq => ?_
    refine (Follows.of_eq _).map fun limit _ hlimit => ?_
    subst hlimit
    exact .delete limit hq
  | refl hsame =>
    rw [hsame]
    exact .ok (.refl hsame)

/-- **Related statements answer the same** and leave like stores.

**Proof sketch.** Related queries are answered alike. Related selections find the same records
(`QueryPlan.Related.selectedRows`), and what is done with them is done to the same keys
(`recordKeyOf_eq`). All other statements are the same. -/
theorem StatementPlan.Related.answer {params : List Value} {config : Config} {p p' : StatementPlan}
    (hK : K.Backs catalog) (h : p.Related (QueryPlan.Ready catalog) p') :
    StoreM.Repeats ((⟨p, params, config⟩ : BoundStatement).execute >>= Outcome.answer)
      ((⟨p', params, config⟩ : BoundStatement).execute >>= Outcome.answer) K := by
  cases h with
  | query hn =>
    simp only [BoundStatement.execute, bind_assoc, pure_bind]
    exact (QueryNode.Related.answer hK hn).repeats
  | update assignments limit hp =>
    have hindexed := hp.self.indexed
    simp only [BoundStatement.execute, UpdatePlan.run, bind_assoc, pure_bind]
    refine (QueryPlan.Related.selectedRows hK hp limit).bind_same fun rows _ hrows => ?_
    subst hrows
    exact (UpdatePlan.same_runRows (recordKeyOf_eq hindexed) assignments limit _ rows).bind fun n =>
      .pure _
  | delete limit hp =>
    have hindexed := hp.self.indexed
    simp only [BoundStatement.execute, DeletePlan.run, bind_assoc, pure_bind]
    refine (QueryPlan.Related.selectedRows hK hp limit).bind_same fun rows _ hrows => ?_
    subst hrows
    exact (DeletePlan.same_runRows (recordKeyOf_eq hindexed) limit rows).bind fun n => .pure _
  | refl => exact fun a last hrun => ⟨last, hrun, .refl last⟩

/-- **Where no truth value lies in the way of an index, indexes do not change answers**: neither the
rows of a query nor the number of records that a statement changes nor the records in the store.

**Proof sketch.** The statement is compiled to related plans (`follows_plan`), which binding keeps,
and related plans answer alike (`StatementPlan.Related.answer`). -/
lemma Statement.answer_of_backs {st : Store} (hst : st.Backs catalog) (config : Config)
    (s : Statement) (params : List Value) :
    StoreM.Repeats (s.answer config [] params) (s.answer config catalog params) st := by
  have hcompiled : Follows
      (fun e e' : Executable => e.paramCount = e'.paramCount ∧ e.config = e'.config ∧
        e.plan.Related (QueryPlan.Indexed catalog) e'.plan)
      (s.compile config []) (s.compile config catalog) :=
    (follows_plan config.defaultNamespace catalog s).map fun p p' hp => ⟨rfl, rfl, hp⟩
  refine StoreM.Repeats.lift_bind hcompiled fun e e' ⟨hcount, hconfig, hplan⟩ => ?_
  have hbound : Follows
      (fun b b' : BoundStatement => b.params = b'.params ∧ b.config = b'.config ∧
        b.plan.Related (QueryPlan.Ready catalog) b'.plan)
      (e.bind params) (e'.bind params) := by
    unfold Executable.bind
    rw [hcount, hconfig]
    split
    · exact .throw _
    · exact hplan.bind.map fun q q' hq => ⟨rfl, rfl, hq⟩
  refine StoreM.Repeats.lift_bind hbound fun b b' ⟨hparams, hsame, hready⟩ => ?_
  obtain ⟨plan, params, config⟩ := b
  obtain ⟨plan', _, _⟩ := b'
  obtain rfl := hparams
  obtain rfl := hsame
  exact hready.answer hst

end RecordQuery
