import RecordQuery.Proofs.Cursor.Complete
import RecordQuery.Proofs.Execution.Answer
import RecordQuery.Proofs.Execution.Fault
import RecordQuery.Proofs.Pipeline.Reading

set_option autoImplicit false

/-!
# Answers of single selections

A query that is a body without order and limits is planned like the body. If a selection is
answered, the rows are the listing of the plan that is compiled from it, bound and prepared.

## Main definitions

* `Query.ofBody` — the query that is a body without order and limits.

## Main results

* `Statement.exists_node_of_answer` — a query that is answered compiles and binds.
* `Statement.lists_of_prepare` — its rows are the listing of the plan that comes of this.
* `Statement.lists_of_select`, `Statement.lists_of_answer` — the same for selections.
* `Select.isPrepared` — preparing leaves no unknowns in their plans.
-/

namespace RecordQuery

open Outcome

/-! ## Queries -/

/-- The query that is a body without order and limits. -/
def Query.ofBody (b : QueryBody) : Query := ⟨b, [], none, none⟩

/-- The plan of such a query is that of the body. -/
lemma compileWith_ofBody (env : CompileEnv) (compileSub : Query → Except QueryError QueryNode)
    (b : QueryBody) : compileWith env compileSub (.ofBody b) = compileBody env compileSub b := by
  cases b with
  | select s => rfl
  | combine op l r =>
    simp only [compileWith, Query.ofBody, compileBody, makeChain, bind_assoc, pure_bind]
    rfl

/-! ## Statements -/

section

variable {config : Config} {catalog : IndexCatalog} {params : List Value} {st : Store}

/-- What compiling and binding make of a query. -/
lemma Statement.bind_compile_query {query : Query} {n m : QueryNode}
    (hcompile : query.compile ⟨config.defaultNamespace, catalog⟩ = .ok n)
    (hparams : query.maxParam ≤ params.length) (hbind : n.bind params = .ok m) :
    ((Statement.query query).compile config catalog >>= fun e => e.bind params) =
      .ok ⟨.query m, params, config⟩ := by
  simp only [Statement.compile, Statement.plan, hcompile, Executable.bind, Statement.maxParam,
    StatementPlan.bind, hbind, if_neg (Nat.not_lt.mpr hparams), ok_bind, pure, Except.pure]

/-- What compiling and binding make of a query that is a body. -/
lemma Statement.bind_compile_body {b : QueryBody} {n m : QueryNode}
    (hcompile : compileBody ⟨config.defaultNamespace, catalog⟩
      (compileBelow ⟨config.defaultNamespace, catalog⟩ (Query.ofBody b).depth) b = .ok n)
    (hparams : b.maxParam ≤ params.length) (hbind : n.bind params = .ok m) :
    ((Statement.query (.ofBody b)).compile config catalog >>= fun e => e.bind params) =
      .ok ⟨.query m, params, config⟩ := by
  refine Statement.bind_compile_query ?_ ?_ hbind
  · rw [Query.compile, compileBelow, compileWith_ofBody, hcompile]
  · simp only [Query.ofBody, Query.maxParam, maxParamOrder, maxParamOption]
    omega

/-- **A query that is answered compiles and binds.**

**Proof sketch.** If the compilation or the binding had failed, so would the answer. That there are
enough parameters is checked when the statement is bound. -/
theorem Statement.exists_node_of_answer {query : Query} {answer : Answer}
    (h : ((Statement.query query).answer config catalog params st).1 = .ok answer) :
    ∃ n m, query.compile ⟨config.defaultNamespace, catalog⟩ = .ok n ∧ n.bind params = .ok m ∧
      query.maxParam ≤ params.length := by
  unfold Statement.answer at h
  cases hcompile : (Statement.query query).compile config catalog with
  | error err =>
    rw [hcompile] at h
    cases h
  | ok e =>
    rw [hcompile] at h
    cases hbind : e.bind params with
    | error err =>
      change ((liftM (e.bind params) >>= fun b => b.execute >>= Outcome.answer : StoreM Answer)
        st).1 = _ at h
      rw [hbind] at h
      cases h
    | ok b =>
      simp only [Statement.compile, Statement.plan, bind_eq_ok, pure_eq_ok] at hcompile
      obtain ⟨plan, ⟨n, hn, rfl⟩, rfl⟩ := hcompile
      obtain ⟨hcount, bound, hbound, -⟩ := Executable.of_bind_eq_ok hbind
      obtain ⟨m, hm, -⟩ := bind_eq_ok.mp hbound
      exact ⟨n, m, hn, hm, hcount⟩

/-- **The answer of a query** whose preparing comes to a plan is the listing of this plan. -/
theorem Statement.lists_of_prepare {query : Query} {n m prepared : QueryNode} {answer : Answer}
    (hn : query.compile ⟨config.defaultNamespace, catalog⟩ = .ok n)
    (hparams : query.maxParam ≤ params.length) (hm : n.bind params = .ok m)
    (hprepared : (m.prepare ⟨params, config.batchSize, config.maxSortRows⟩).Reads st
      (.ok prepared))
    (h : ((Statement.query query).answer config catalog params st).1 = .ok answer) :
    ∃ P rows, prepared.pipeline = .ok P ∧
      P.listing ⟨params, config.batchSize, config.maxSortRows⟩ st = .ok (.ofRows rows) ∧
      answer = .rows prepared.labels rows := by
  obtain ⟨st', hanswer, -⟩ := Statement.reads_query
    (Statement.bind_compile_query hn hparams hm) hprepared st (.refl st)
  rw [hanswer] at h
  simp only [ok_bind, bind_eq_ok, pure_eq_ok] at h
  obtain ⟨P, hP, rows, ⟨l, hl, hcomplete⟩, rfl⟩ := h
  obtain rfl : l = .ofRows rows := Listing.eq_ofRows_of_complete hcomplete
  exact ⟨P, rows, hP, hl, rfl⟩

/-- **What the answer of a selection with an order and limits tells**: its rows are the listing of
the plan that is compiled from it, bound and prepared.

**Proof sketch.** The answered query compiles and binds (`Statement.exists_node_of_answer`), and its
node is a single plan. Preparing it reads only and keeps the names, and the answer is the complete
listing of its pipeline (`Statement.reads_query`). -/
theorem Statement.lists_of_select {s : Select} {orderBy : List OrderItem}
    {limit offset : Option Expr} {labels : List String} {rows : List Row}
    (h : ((Statement.query ⟨.select s, orderBy, limit, offset⟩).answer config catalog params st).1 =
      .ok (.rows labels rows)) :
    ∃ p q prepared P, compileSelect ⟨config.defaultNamespace, catalog⟩
        (compileBelow ⟨config.defaultNamespace, catalog⟩
          (Query.depth ⟨.select s, orderBy, limit, offset⟩)) s orderBy limit offset = .ok p ∧
      p.bind params = .ok q ∧
      (q.prepare ⟨params, config.batchSize, config.maxSortRows⟩).Reads st (.ok prepared) ∧
      q.SameNames prepared ∧ labels = prepared.labels ∧ prepared.pipeline = .ok P ∧
      P.listing ⟨params, config.batchSize, config.maxSortRows⟩ st = .ok (.ofRows rows) := by
  obtain ⟨n, m, hn, hm, hparams⟩ := Statement.exists_node_of_answer h
  obtain ⟨p, hp, hnode⟩ := bind_eq_ok.mp hn
  obtain rfl := Except.ok.inj hnode
  obtain ⟨q, hq, hnode⟩ := bind_eq_ok.mp hm
  obtain rfl := Except.ok.inj hnode
  obtain ⟨outcome, hreads, hnames⟩ : (q.prepare ⟨params, config.batchSize,
      config.maxSortRows⟩).ReadsOnly st q.SameNames := q.readsOnly_prepare
  obtain ⟨st', hanswer, -⟩ := Statement.reads_query
    (Statement.bind_compile_query hn hparams hm) (hreads.map QueryNode.plan) st (.refl st)
  rw [hanswer] at h
  simp only [bind_eq_ok, pure_eq_ok] at h
  obtain ⟨m, ⟨prepared, rfl, rfl⟩, P, hP, all, ⟨l, hl, hcomplete⟩, hrows⟩ := h
  obtain ⟨rfl, rfl⟩ := Answer.rows.inj hrows
  obtain rfl : l = .ofRows all := Listing.eq_ofRows_of_complete hcomplete
  exact ⟨p, q, prepared, P, hp, hq, hreads, hnames prepared rfl, rfl, hP, hl⟩

/-- A single selection that is answered compiles and binds. -/
lemma Statement.exists_plan_of_answer {s : Select} {answer : Answer}
    (h : ((Statement.query (.ofBody (.select s))).answer config catalog params st).1 =
      .ok answer) :
    ∃ p q, compileSelect ⟨config.defaultNamespace, catalog⟩
      (compileBelow ⟨config.defaultNamespace, catalog⟩ (Query.ofBody (.select s)).depth) s [] none
        none = .ok p ∧ p.bind params = .ok q ∧ s.maxParam ≤ params.length := by
  obtain ⟨n, m, hn, hm, hparams⟩ := Statement.exists_node_of_answer h
  obtain ⟨p, hp, hnode⟩ := bind_eq_ok.mp hn
  obtain rfl := Except.ok.inj hnode
  obtain ⟨q, hq, -⟩ := bind_eq_ok.mp hm
  refine ⟨p, q, hp, hq, ?_⟩
  simp only [Query.ofBody, Query.maxParam, QueryBody.maxParam] at hparams
  omega

/-- **Preparing leaves no unknowns** in the plan of a selection. -/
theorem Select.isPrepared {env : CompileEnv} {run : ExecutionEnv} {s : Select}
    {orderBy : List OrderItem} {limit offset : Option Expr} {depth : Nat}
    {p q prepared : QueryPlan} {K : Store}
    (hp : compileSelect env (compileBelow env depth) s orderBy limit offset = .ok p)
    (hq : p.bind run.params = .ok q) (hr : (q.prepare run).Reads K (.ok prepared)) :
    prepared.IsPrepared := by
  have hok : SuppliesParams QueryError.isPlanFault (fun _ => true) run.params :=
    fun i _ => param?_faultless run.params i
  have hbindable : p.AreBindable fun _ => true :=
    compileSelect_areBindable (fun _ _ hq hn => compileBelow_isBindable hq hn) (fun _ _ => rfl)
      (fun _ _ => rfl) (fun _ _ => rfl) (fun _ _ => rfl) hp
  have hprepare := QueryPlan.avoids_prepare ((QueryPlan.avoids_bind hok hbindable).of_eq_ok hq)
  obtain ⟨st', hst', -⟩ := hr K (.refl K)
  exact ((hprepare K).of_eq_ok (congrArg Prod.fst hst')).1

/-- **What the answer of a single selection tells**: its rows are the listing of the plan that is
compiled from it, bound and prepared. -/
theorem Statement.lists_of_answer {s : Select} {labels : List String} {rows : List Row}
    (h : ((Statement.query (.ofBody (.select s))).answer config catalog params st).1 =
      .ok (.rows labels rows)) :
    ∃ p q prepared P, compileSelect ⟨config.defaultNamespace, catalog⟩
        (compileBelow ⟨config.defaultNamespace, catalog⟩ (Query.ofBody (.select s)).depth) s []
          none none = .ok p ∧
      p.bind params = .ok q ∧
      (q.prepare ⟨params, config.batchSize, config.maxSortRows⟩).Reads st (.ok prepared) ∧
      q.SameNames prepared ∧ prepared.IsPrepared ∧ labels = prepared.labels ∧
      prepared.pipeline = .ok P ∧
      P.listing ⟨params, config.batchSize, config.maxSortRows⟩ st = .ok (.ofRows rows) := by
  obtain ⟨p, q, prepared, P, hp, hq, hreads, hnames, hlabels, hP, hl⟩ :=
    Statement.lists_of_select h
  exact ⟨p, q, prepared, P, hp, hq, hreads, hnames, Select.isPrepared hp hq hreads, hlabels, hP, hl⟩

end

end RecordQuery
