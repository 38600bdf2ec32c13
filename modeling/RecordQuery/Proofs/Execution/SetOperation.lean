import RecordQuery.Proofs.Compile.Depth
import RecordQuery.Proofs.Compile.Labels
import RecordQuery.Proofs.Execution.Selection
import RecordQuery.Proofs.Pipeline.SetOperation

set_option autoImplicit false

/-!
# Set operations mean what their tree says

Selections put together by set operations, nested in any way, answer with the rows that the tree
says, put together from the answers of the single selections.

## Main definitions

* `QueryBody.selects`, `QueryBody.first` — the selections of a body.
* `QueryBody.evalWith` — what the tree of a body says, given the rows of its selections.

## Main results

* `Statement.returns_of_answer` — what the answer of a single selection tells.
* `QueryBody.returns_evalWith` — a body whose selections return rows returns those that its tree
  says.
* `QueryBody.compile_cases` — a body whose selections compile is refused only for their numbers of
  columns.
* `Statement.answer_body` — a query that is a body answers what its tree says, or is refused for
  numbers of columns.
-/

namespace RecordQuery

open Outcome

/-! ## Bodies -/

namespace QueryBody

/-- The selections of a body, from left to right. -/
def selects : QueryBody → List Select
  | select s => [s]
  | combine _ l r => l.selects ++ r.selects

/-- The leftmost selection of a body. -/
def first : QueryBody → Select
  | select s => s
  | combine _ l _ => l.first

/-- What the tree of a body says, given the rows of its selections by their values. -/
def evalWith (rows : Select → List (List Value)) : QueryBody → List (List Value)
  | select s => rows s
  | combine op l r => op.eval (l.evalWith rows) (r.evalWith rows)

/-- The leftmost selection is one of them. -/
lemma first_mem_selects (b : QueryBody) : b.first ∈ b.selects := by
  cases b with
  | select s => exact List.mem_singleton_self s
  | combine op l r => exact List.mem_append_left _ l.first_mem_selects

/-- No row comes from nowhere. -/
lemma exists_of_mem_evalWith {rows : Select → List (List Value)} {v : List Value} :
    (b : QueryBody) → v ∈ b.evalWith rows → ∃ s ∈ b.selects, v ∈ rows s
  | select s, h => ⟨s, List.mem_singleton_self _, h⟩
  | combine op l r, h => by
    rcases SetOperator.mem_eval h with h | h
    · obtain ⟨s, hs, hv⟩ := l.exists_of_mem_evalWith h
      exact ⟨s, List.mem_append_left _ hs, hv⟩
    · obtain ⟨s, hs, hv⟩ := r.exists_of_mem_evalWith h
      exact ⟨s, List.mem_append_right _ hs, hv⟩

/-- No selection has more parameters than the body. -/
lemma maxParam_le {n : Nat} : (b : QueryBody) → (∀ s ∈ b.selects, s.maxParam ≤ n) → b.maxParam ≤ n
  | select s, h => h s (List.mem_singleton_self _)
  | combine _ l r, h => Nat.max_le.mpr
      ⟨l.maxParam_le fun s hs => h s (List.mem_append_left _ hs),
        r.maxParam_le fun s hs => h s (List.mem_append_right _ hs)⟩

/-- No selection is nested more deeply than the body. -/
lemma depth_le {s : Select} : (b : QueryBody) → s ∈ b.selects → s.depth ≤ b.depth
  | select _, h => by
    obtain rfl := List.mem_singleton.mp h
    exact Nat.le_refl _
  | combine _ l r, h => by
    rcases List.mem_append.mp h with h | h
    · exact Nat.le_trans (l.depth_le h) (Nat.le_max_left _ _)
    · exact Nat.le_trans (r.depth_le h) (Nat.le_max_right _ _)

end QueryBody

/-- A selection that names its columns has as many as labels. -/
lemma QueryNode.width?_plan {p : QueryPlan} (h : p.wildcard = false) :
    (QueryNode.plan p).width? = some p.labels.length :=
  if_neg (by simp [firstPlan, h])

/-! ## Trees -/

section

variable {env : CompileEnv} {compileSub : Query → Except QueryError QueryNode}
  {params : List Value} {run : ExecutionEnv} {K : Store} {width : Nat}

/-- A selection compiles and binds, and names the columns of the rows that it returns. -/
def Select.Returns (env : CompileEnv) (compileSub : Query → Except QueryError QueryNode)
    (params : List Value) (run : ExecutionEnv) (K : Store) (s : Select) (labels : List String)
    (values : List (List Value)) : Prop :=
  ∃ p q, compileSelect env compileSub s [] none none = .ok p ∧ p.wildcard = false ∧
    p.labels = labels ∧ p.bind params = .ok q ∧ (QueryNode.plan q).Returns run K labels values

/-- A body compiles and binds, has so many columns and returns given rows. -/
def QueryBody.Returns (env : CompileEnv) (compileSub : Query → Except QueryError QueryNode)
    (params : List Value) (run : ExecutionEnv) (K : Store) (width : Nat) (b : QueryBody)
    (labels : List String) (values : List (List Value)) : Prop :=
  ∃ n m, compileBody env compileSub b = .ok n ∧ n.width? = some width ∧ n.bind params = .ok m ∧
    m.Returns run K labels values

/-- So do its first selection and the links along its left side. -/
def QueryBody.PartsReturn (env : CompileEnv) (compileSub : Query → Except QueryError QueryNode)
    (params : List Value) (run : ExecutionEnv) (K : Store) (width : Nat) (b : QueryBody)
    (labels : List String) (values : List (List Value)) : Prop :=
  ∃ head links first rest, compileParts env compileSub b = .ok (head, links) ∧
    head.width? = some width ∧ (∀ l ∈ links, l.node.width? = some width) ∧
      head.bind params = .ok first ∧ bindLinks params links = .ok rest ∧
        LinksReturn run K first rest labels values

/-- Queries as wide as the first one can be put to its rows. -/
lemma checkWidths_of_width {head : QueryNode} (hhead : head.width? = some width)
    {ls : List ChainLink} (hls : ∀ l ∈ ls, l.node.width? = some width) :
    checkWidths head ls = .ok () := by
  induction ls with
  | nil => rfl
  | cons l ls ih =>
    simp only [checkWidths, hhead, hls l (by simp), if_true]
    exact ih fun k hk => hls k (by simp [hk])

/-- Binding one more link. -/
lemma bindLinks_concat {ls ms : List ChainLink} {n m : QueryNode}
    (hls : bindLinks params ls = .ok ms) (hn : n.bind params = .ok m) (op : SetOperator) :
    bindLinks params (ls ++ [⟨n, op⟩]) = .ok (ms ++ [⟨m, op⟩]) := by
  induction ls generalizing ms with
  | nil =>
    obtain rfl := Except.ok.inj hls
    simp only [List.nil_append, bindLinks, ChainLink.bind, hn, ok_bind, pure, Except.pure]
  | cons l ls ih =>
    simp only [bindLinks, bind_eq_ok, pure_eq_ok] at hls
    obtain ⟨k, hk, rest, hrest, rfl⟩ := hls
    simp only [List.cons_append, bindLinks, hk, ih hrest, ok_bind, pure, Except.pure]

section

variable {s : Select} {l r : QueryBody} {labels labels' : List String} {vs ws : List (List Value)}

/-- A selection is a body and its own first selection. -/
lemma Select.Returns.body (h : s.Returns env compileSub params run K labels vs)
    (hwidth : labels.length = width) :
    (QueryBody.select s).Returns env compileSub params run K width labels vs ∧
      (QueryBody.select s).PartsReturn env compileSub params run K width labels vs := by
  obtain ⟨p, q, hcompile, hwildcard, hlabels, hbind, hq⟩ := h
  have hs : (QueryNode.plan p).width? = some width := by
    rw [← hwidth, ← hlabels]
    exact QueryNode.width?_plan hwildcard
  have hnode : (QueryNode.plan p).bind params = .ok (.plan q) := by
    simp only [QueryNode.bind, hbind, ok_bind, pure, Except.pure]
  refine ⟨⟨.plan p, .plan q, ?_, hs, hnode, hq⟩, .plan p, [], .plan q, [], ?_, hs,
    fun l hl => absurd hl List.not_mem_nil, hnode, rfl, .single hq⟩
  · simp only [compileBody, hcompile, ok_bind, pure, Except.pure]
  · simp only [compileParts, hcompile, ok_bind, pure, Except.pure]

/-- A set operation adds a link. -/
lemma QueryBody.PartsReturn.combine (h : l.PartsReturn env compileSub params run K width labels vs)
    (hr : r.Returns env compileSub params run K width labels' ws) (hlabels : labels.Nodup)
    (hwidth : labels'.length = labels.length) (op : SetOperator)
    (hsized : ∀ v, v ∈ vs ∨ v ∈ ws → Value.areSized v = true) :
    (QueryBody.combine op l r).PartsReturn env compileSub params run K width labels
      (op.eval vs ws) := by
  obtain ⟨head, links, first, rest, hparts, hhead, hlinks, hfirst, hrest, hreturn⟩ := h
  obtain ⟨n, m, hcompile, hn, hbind, hm⟩ := hr
  refine ⟨head, links ++ [⟨n, op⟩], first, rest ++ [⟨m, op⟩], ?_, hhead, fun k hk => ?_, hfirst,
    bindLinks_concat hrest hbind op, hreturn.concat hm hlabels hwidth op hsized⟩
  · simp only [compileParts, hparts, hcompile, ok_bind, pure, Except.pure]
  · rcases List.mem_append.mp hk with hk | hk
    · exact hlinks k hk
    · rw [List.mem_singleton.mp hk]
      exact hn

/-- The parts of a set operation make a body. -/
lemma QueryBody.PartsReturn.returns {op : SetOperator}
    (h : (QueryBody.combine op l r).PartsReturn env compileSub params run K width labels vs) :
    (QueryBody.combine op l r).Returns env compileSub params run K width labels vs := by
  obtain ⟨head, links, first, rest, hparts, hhead, hlinks, hfirst, hrest, hreturn⟩ := h
  have hcompile : compileBody env compileSub (.combine op l r) =
      .ok (.chain ⟨head, links, [], none, none⟩) := by
    simp only [compileParts, bind_eq_ok, pure_eq_ok] at hparts
    obtain ⟨⟨head', links'⟩, hl, n, hn, heq⟩ := hparts
    obtain ⟨rfl, rfl⟩ := Prod.mk.inj heq
    simp only [compileBody, hl, hn, makeChain, checkWidths_of_width hhead hlinks, ok_bind, pure,
      Except.pure]
  refine ⟨_, .chain ⟨first, rest, [], none, none⟩, hcompile, hhead, ?_, hreturn.chain⟩
  simp only [QueryNode.bind, ChainPlan.bind, hfirst, hrest, ok_bind, pure, Except.pure]
  rfl

end

/-- **A body whose selections return rows returns those that its tree says.**

**Proof sketch.** Recursion on the tree. What is put together so far is a first selection and its
links, and a set operation adds its right side as one more link (`PartsReturn.combine`), for which
both sides have to be as wide and the values to be encodable. -/
theorem QueryBody.returns_evalWith {labels : Select → List String}
    {rows : Select → List (List Value)} : (b : QueryBody) →
    (∀ s ∈ b.selects, s.Returns env compileSub params run K (labels s) (rows s)) →
    (∀ s ∈ b.selects, (labels s).length = width ∧ (labels s).Nodup) →
    (∀ s ∈ b.selects, ∀ v ∈ rows s, Value.areSized v = true) →
    b.Returns env compileSub params run K width (labels b.first) (b.evalWith rows) ∧
      b.PartsReturn env compileSub params run K width (labels b.first) (b.evalWith rows)
  | .select s, hreturns, hlabels, _ =>
    (hreturns s (List.mem_singleton_self _)).body (hlabels s (List.mem_singleton_self _)).1
  | .combine op l r, hreturns, hlabels, hsized => by
    have hl : ∀ s ∈ l.selects, s ∈ (QueryBody.combine op l r).selects :=
      fun s hs => List.mem_append_left _ hs
    have hr : ∀ s ∈ r.selects, s ∈ (QueryBody.combine op l r).selects :=
      fun s hs => List.mem_append_right _ hs
    have hleft := QueryBody.returns_evalWith l (fun s hs => hreturns s (hl s hs))
      (fun s hs => hlabels s (hl s hs)) (fun s hs => hsized s (hl s hs))
    have hright := QueryBody.returns_evalWith r (fun s hs => hreturns s (hr s hs))
      (fun s hs => hlabels s (hr s hs)) (fun s hs => hsized s (hr s hs))
    have hsizedBoth : ∀ v, v ∈ l.evalWith rows ∨ v ∈ r.evalWith rows → Value.areSized v = true := by
      intro v hv
      rcases hv with hv | hv
      · obtain ⟨s, hs, hmem⟩ := l.exists_of_mem_evalWith hv
        exact hsized s (hl s hs) v hmem
      · obtain ⟨s, hs, hmem⟩ := r.exists_of_mem_evalWith hv
        exact hsized s (hr s hs) v hmem
    have hfirst := hlabels l.first (hl _ l.first_mem_selects)
    have hother := hlabels r.first (hr _ r.first_mem_selects)
    have hparts := hleft.2.combine hright.1 hfirst.2 (hother.1.trans hfirst.1.symm) op hsizedBoth
    exact ⟨hparts.returns, hparts⟩

end

/-! ## Numbers of columns -/

section

variable {env : CompileEnv} {compileSub : Query → Except QueryError QueryNode}
  {width : Select → Nat}

/-- Links are refused only for their number of columns. -/
lemma checkWidths_cases (head : QueryNode) (ls : List ChainLink) :
    checkWidths head ls = .ok () ∨
      ∃ m n, checkWidths head ls = .error (.setOperationWidths m n) := by
  induction ls with
  | nil => exact .inl rfl
  | cons l ls ih =>
    simp only [checkWidths]
    split
    · split
      · exact ih
      · exact .inr ⟨_, _, rfl⟩
    · exact ih

/-- A link with another number of columns is refused. -/
lemma checkWidths_concat {head : QueryNode} {ls : List ChainLink} {l : ChainLink} {m n : Nat}
    (h : checkWidths head (ls ++ [l]) = .ok ()) (hhead : head.width? = some m)
    (hl : l.node.width? = some n) : checkWidths head ls = .ok () ∧ m = n := by
  induction ls with
  | nil =>
    refine ⟨rfl, ?_⟩
    simp only [List.nil_append, checkWidths, hhead, hl] at h
    by_contra hne
    rw [if_neg hne] at h
    cases h
  | cons k ls ih =>
    simp only [List.cons_append, checkWidths, hhead] at h ⊢
    split at h
    · split at h
      · rename_i heq
        rw [if_pos heq]
        exact ih h
      · cases h
    · exact ih h

/-- A selection compiles and names so many columns. -/
def Select.HasWidth (env : CompileEnv) (compileSub : Query → Except QueryError QueryNode)
    (s : Select) (n : Nat) : Prop :=
  ∃ p, compileSelect env compileSub s [] none none = .ok p ∧ (QueryNode.plan p).width? = some n

/-- A selection that returns rows names as many columns as they have labels. -/
lemma Select.Returns.hasWidth {s : Select} {params : List Value} {run : ExecutionEnv} {K : Store}
    {labels : List String} {values : List (List Value)}
    (h : s.Returns env compileSub params run K labels values) :
    s.HasWidth env compileSub labels.length := by
  obtain ⟨p, q, hcompile, hwildcard, rfl, -⟩ := h
  exact ⟨p, hcompile, QueryNode.width?_plan hwildcard⟩

/-- **A body whose selections compile is refused only for their numbers of columns**, and if it
compiles, these are the same.

**Proof sketch.** By induction on the tree, for the body and for its parts, whose numbers of columns
are not checked yet. A selection is its own head and has no links. Of a combination the left side
contributes its parts and the right side, as a whole, one more link. An error of either side is the
error of both. Otherwise the check of the longer chain is the check of the shorter one and of the
last link (`checkWidths_concat`), so that every selection on the left has the number of the first
one, and those on the right have that of the last link, which is the same. -/
theorem QueryBody.compile_cases : (b : QueryBody) →
    (∀ s ∈ b.selects, s.HasWidth env compileSub (width s)) →
    ((∃ m n, compileBody env compileSub b = .error (.setOperationWidths m n)) ∨
      ∃ node, compileBody env compileSub b = .ok node ∧ node.width? = some (width b.first) ∧
        ∀ s ∈ b.selects, width s = width b.first) ∧
    ((∃ m n, compileParts env compileSub b = .error (.setOperationWidths m n)) ∨
      ∃ head links, compileParts env compileSub b = .ok (head, links) ∧
        head.width? = some (width b.first) ∧
          (checkWidths head links = .ok () → ∀ s ∈ b.selects, width s = width b.first))
  | .select s, h => by
    obtain ⟨p, hp, hwidth⟩ := h s (List.mem_singleton_self _)
    have hself : ∀ t ∈ (QueryBody.select s).selects, width t = width s := fun t ht => by
      rw [List.mem_singleton.mp ht]
    refine ⟨.inr ⟨.plan p, ?_, hwidth, hself⟩, .inr ⟨.plan p, [], ?_, hwidth, fun _ => hself⟩⟩
    · simp only [compileBody, hp, ok_bind, pure, Except.pure]
    · simp only [compileParts, hp, ok_bind, pure, Except.pure]
  | .combine op l r, h => by
    have hleft := (QueryBody.compile_cases l fun s hs => h s (List.mem_append_left _ hs)).2
    have hright := (QueryBody.compile_cases r fun s hs => h s (List.mem_append_right _ hs)).1
    rcases hleft with ⟨m, n, hparts⟩ | ⟨head, links, hparts, hhead, hlinks⟩
    · refine ⟨.inl ⟨m, n, ?_⟩, .inl ⟨m, n, ?_⟩⟩
      · simp only [compileBody, hparts, error_bind]
      · simp only [compileParts, hparts, error_bind]
    rcases hright with ⟨m, n, hlast⟩ | ⟨node, hlast, hnode, hsame⟩
    · refine ⟨.inl ⟨m, n, ?_⟩, .inl ⟨m, n, ?_⟩⟩
      · simp only [compileBody, hparts, hlast, ok_bind, error_bind]
      · simp only [compileParts, hparts, hlast, ok_bind, error_bind]
    have hall : checkWidths head (links ++ [⟨node, op⟩]) = .ok () →
        ∀ s ∈ (QueryBody.combine op l r).selects, width s = width l.first := by
      intro hcheck s hs
      obtain ⟨hbefore, heq⟩ := checkWidths_concat hcheck hhead hnode
      rcases List.mem_append.mp hs with hs | hs
      · exact hlinks hbefore s hs
      · rw [hsame s hs, heq]
    refine ⟨?_, .inr ⟨head, links ++ [⟨node, op⟩], ?_, hhead, hall⟩⟩
    · rcases checkWidths_cases head (links ++ [⟨node, op⟩]) with hcheck | ⟨m, n, hcheck⟩
      · refine .inr ⟨.chain ⟨head, links ++ [⟨node, op⟩], [], none, none⟩, ?_, hhead, hall hcheck⟩
        simp only [compileBody, makeChain, hparts, hlast, hcheck, ok_bind, pure, Except.pure]
      · refine .inl ⟨m, n, ?_⟩
        simp only [compileBody, makeChain, hparts, hlast, hcheck, ok_bind, error_bind]
    · simp only [compileParts, hparts, hlast, ok_bind, pure, Except.pure]

end

/-! ## Statements -/

section

variable {config : Config} {catalog : IndexCatalog} {params : List Value} {st : Store}

/-- A query whose body does not compile fails in the same way. -/
lemma Statement.answer_body_of_error {b : QueryBody} {err : QueryError}
    (hcompile : compileBody ⟨config.defaultNamespace, catalog⟩
      (compileBelow ⟨config.defaultNamespace, catalog⟩ (Query.ofBody b).depth) b = .error err) :
    ((Statement.query (.ofBody b)).answer config catalog params st).1 = .error err := by
  have hstatement : (Statement.query (.ofBody b)).compile config catalog = .error err := by
    simp only [Statement.compile, Statement.plan, Query.compile, compileBelow, compileWith_ofBody,
      hcompile, error_bind]
  unfold Statement.answer
  rw [hstatement]
  rfl

/-- **What the answer of a single selection tells**, if it names its columns. -/
theorem Statement.returns_of_answer {s : Select} {labels : List String} {rows : List Row}
    (hitems : .all ∉ s.items) (hlabels : labels.Nodup)
    (h : ((Statement.query (.ofBody (.select s))).answer config catalog params st).1 =
      .ok (.rows labels rows)) :
    s.Returns ⟨config.defaultNamespace, catalog⟩
      (compileBelow ⟨config.defaultNamespace, catalog⟩ (Query.ofBody (.select s)).depth) params
      ⟨params, config.batchSize, config.maxSortRows⟩ st labels (rows.map OrderedMap.values) := by
  obtain ⟨p, q, prepared, P, hp, hq, hreads, hnames, -, rfl, hP, hl⟩ :=
    Statement.lists_of_answer h
  -- from the plan to the prepared plan the columns keep their names
  obtain ⟨hwildcard, hsame⟩ := hnames
  obtain ⟨hwildcard', hsame'⟩ := QueryPlan.sameNames_bind hq
  have hnamed := wildcard_compileSelect hitems hp
  have hnamedPrepared : prepared.wildcard = false := by rw [hwildcard, hwildcard', hnamed]
  exact ⟨p, q, hp, hnamed, (hsame.trans hsame').symm, hq, .plan prepared, P,
    hreads.map QueryNode.plan, hnamedPrepared, rfl, hP, rows, hl,
    fun row hrow => QueryPlan.keys_of_listing hnamedPrepared hlabels hP hl hrow, rfl⟩

/-- **Set operations mean what their tree says.** If every selection of a body, on its own, is
answered with rows under distinct labels, then there are two cases. If there are equally many labels
everywhere, the query that is the body is answered with rows whose values are those that the tree
says, in order, and that stand under the labels of the leftmost selection. If not, it is refused for
its numbers of columns. The values in the rows have lengths that fit into 64 bits, as all values in
memory do.

**Proof sketch.** The selections compile to the same plans inside the body as on their own, where
queries are nested less deeply (`compileBelow_mono`), and preparing them only reads. By induction on
the tree (`QueryBody.returns_evalWith`) the links along its left side put their rows to those so far
as their operators say, and compiling goes wrong only where numbers of columns differ
(`QueryBody.compile_cases`). -/
theorem Statement.answer_body {b : QueryBody} {labels : Select → List String}
    {rows : Select → List Row} (hitems : ∀ s ∈ b.selects, .all ∉ s.items)
    (hlabels : ∀ s ∈ b.selects, (labels s).Nodup)
    (hsized : ∀ s ∈ b.selects, ∀ row ∈ rows s, Value.areSized row.values = true)
    (hanswers : ∀ s ∈ b.selects,
      ((Statement.query (.ofBody (.select s))).answer config catalog params st).1 =
        .ok (.rows (labels s) (rows s))) :
    ((∀ s ∈ b.selects, (labels s).length = (labels b.first).length) ∧
      ∃ out, ((Statement.query (.ofBody b)).answer config catalog params st).1 =
          .ok (.rows (labels b.first) out) ∧
        out.map OrderedMap.values = b.evalWith (fun s => (rows s).map OrderedMap.values) ∧
          ∀ row ∈ out, row.keys = labels b.first) ∨
    ((∃ s ∈ b.selects, (labels s).length ≠ (labels b.first).length) ∧
      ∃ m n, ((Statement.query (.ofBody b)).answer config catalog params st).1 =
        .error (.setOperationWidths m n)) := by
  have hreturns : ∀ s ∈ b.selects, s.Returns ⟨config.defaultNamespace, catalog⟩
      (compileBelow ⟨config.defaultNamespace, catalog⟩ (Query.ofBody b).depth) params
      ⟨params, config.batchSize, config.maxSortRows⟩ st (labels s)
      ((rows s).map OrderedMap.values) := by
    intro s hs
    obtain ⟨p, q, hp, hreturn⟩ :=
      Statement.returns_of_answer (hitems s hs) (hlabels s hs) (hanswers s hs)
    have hdepth : (Query.ofBody (.select s)).depth ≤ (Query.ofBody b).depth := by
      have hle := b.depth_le hs
      simp only [Query.ofBody, Query.depth, QueryBody.depth]
      omega
    obtain ⟨p', hp', rfl⟩ := follows_compileSelect_eq
      (compileBelow_mono ⟨config.defaultNamespace, catalog⟩ hdepth) s [] none none p hp
    exact ⟨p, q, hp', hreturn⟩
  by_cases hwidths : ∀ s ∈ b.selects, (labels s).length = (labels b.first).length
  · refine .inl ⟨hwidths, ?_⟩
    have hparams : b.maxParam ≤ params.length := b.maxParam_le fun s hs => by
      obtain ⟨p, q, -, -, hle⟩ := Statement.exists_plan_of_answer (hanswers s hs)
      exact hle
    obtain ⟨⟨n, m, hcompile, -, hbind, k, P, hprepare, -, hnames, hpipeline, out, hlisting, hkeys,
      hvalues⟩, -⟩ := b.returns_evalWith hreturns (fun s hs => ⟨hwidths s hs, hlabels s hs⟩)
        fun s hs v hv => by
          obtain ⟨row, hrow, rfl⟩ := List.mem_map.mp hv
          exact hsized s hs row hrow
    obtain ⟨st', hanswer, -⟩ := Statement.reads_answer
      (Statement.bind_compile_body hcompile hparams hbind) hprepare hpipeline st (.refl st)
    refine ⟨out, ?_, hvalues, hkeys⟩
    rw [hanswer, hlisting, hnames]
    rfl
  · push Not at hwidths
    refine .inr ⟨hwidths, ?_⟩
    obtain ⟨s, hs, hne⟩ := hwidths
    rcases (b.compile_cases fun s hs => (hreturns s hs).hasWidth).1 with
      ⟨m, n, hcompile⟩ | ⟨-, -, -, hsame⟩
    · exact ⟨m, n, Statement.answer_body_of_error hcompile⟩
    · exact absurd (hsame s hs) hne

end

/-- The selection of one column of all records of a set. -/
def Select.column (set column : String) : Select :=
  ⟨false, [.expr (.column ⟨none, column⟩) none], .named ⟨none, set⟩ none, [], none, [], none⟩

/-- A store with two people, and two pets of one of them. -/
def Store.village : Store :=
  let people : RecordSet := (OrderedMap.empty.set (.integer 1)
    (OrderedMap.empty.set "name" (.text "Ada"))).set (.integer 2)
      (OrderedMap.empty.set "name" (.text "Bob"))
  let pets : RecordSet := (OrderedMap.empty.set (.integer 1)
    (OrderedMap.empty.set "owner" (.text "Ada"))).set (.integer 2)
      (OrderedMap.empty.set "owner" (.text "Ada"))
  { sets := (OrderedMap.empty.set ("test", "people") people).set ("test", "pets") pets
    indexes := []
    counts := .zero }

/-- Owners and people without duplicates, then owners with duplicates and people without. -/
def QueryBody.ownersAndPeople : QueryBody :=
  .combine .unionAll
    (.combine .union (.select (.column "pets" "owner")) (.select (.column "people" "name")))
    (.combine .unionAll (.select (.column "pets" "owner"))
      (.combine .union (.select (.column "people" "name")) (.select (.column "pets" "owner"))))

/-- The column that is selected there. -/
def Select.onlyLabel (s : Select) : String :=
  match s.items with
  | [.expr (.column c) none] => c.name
  | _ => ""

/-- Of these rows the first ones lose a duplicate on the left, the last ones on the right, and those
in between keep it.

**Proof sketch.** The five selections are answered by evaluation, with rows that depend on the label
only. Their values are sized and each has one label, so `Statement.answer_body` gives the rows of
the whole body. Its other case is excluded because all widths are one. -/
theorem Statement.answer_body_nested :
    ∃ out, ((Statement.query (.ofBody .ownersAndPeople)).answer ⟨"test", 5000, none⟩ [] []
        Store.village).1 = .ok (.rows ["owner"] out) ∧
      out.map OrderedMap.values = ["Ada", "Bob", "Ada", "Ada", "Ada", "Bob"].map ([.text ·]) ∧
        ∀ row ∈ out, row.keys = ["owner"] := by
  let rows (s : Select) : List Row :=
    (if s.onlyLabel = "owner" then ["Ada", "Ada"] else ["Ada", "Bob"]).map fun name =>
      OrderedMap.empty.set s.onlyLabel (.text name)
  have hanswers : ∀ s ∈ QueryBody.ownersAndPeople.selects,
      ((Statement.query (.ofBody (.select s))).answer ⟨"test", 5000, none⟩ [] []
        Store.village).1.toOption = some (.rows [s.onlyLabel] (rows s)) := by
    intro s hs
    simp only [QueryBody.ownersAndPeople, QueryBody.selects, List.cons_append, List.nil_append,
      List.mem_cons, List.not_mem_nil, or_false] at hs
    rcases hs with rfl | rfl | rfl | rfl | rfl <;> decide +kernel
  have hsized : ∀ s, ∀ row ∈ rows s, Value.areSized row.values = true := by
    intro s row hrow
    obtain ⟨name, hname, rfl⟩ := List.mem_map.mp hrow
    have hmem : name ∈ ["Ada", "Bob"] := by
      split at hname <;> simp_all
    change Value.areSized [.text name] = true
    rcases List.mem_pair.mp hmem with rfl | rfl <;> decide +kernel
  have hnodup : ∀ s : Select, [s.onlyLabel].Nodup := fun s => List.nodup_singleton _
  have hitems : ∀ s ∈ QueryBody.ownersAndPeople.selects, .all ∉ s.items := by
    intro s hs
    simp only [QueryBody.ownersAndPeople, QueryBody.selects, List.cons_append, List.nil_append,
      List.mem_cons, List.not_mem_nil, or_false] at hs
    rcases hs with rfl | rfl | rfl | rfl | rfl <;> simp [Select.column]
  rcases Statement.answer_body hitems (fun s _ => hnodup s) (fun s _ => hsized s)
    (fun s hs => eq_ok_of_toOption (hanswers s hs)) with ⟨-, out, hanswer, hvalues, hkeys⟩ | h
  · exact ⟨out, hanswer, hvalues.trans (by rfl), hkeys⟩
  · obtain ⟨s, -, hne⟩ := h.1
    exact absurd rfl hne

end RecordQuery
