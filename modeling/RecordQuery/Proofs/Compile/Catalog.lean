import RecordQuery.Compile.Statement
import RecordQuery.Proofs.Compile.Where
import RecordQuery.Proofs.Plan.Index
import RecordQuery.Proofs.Plan.Kinds
import RecordQuery.Proofs.Plan.Related

set_option autoImplicit false

/-!
# Compilation with a catalog

A statement is compiled for a store with indexes as it is for one without: the plans have the same
shape and differ in the indexes and the strategies of their tables only.

## Main definitions

* `SlotM.Follows` — two compilations find the same and collect related sub-queries.
* `QueryPlan.Indexed` — the plan of a selection with indexes beside the plan without.

## Main results

* `SlotM.follows_compileConjunct` — conditions do not depend on the catalog.
* `follows_compileWhere`, `follows_compileSelect` — neither do plans, but for indexes and
  strategies.
* `follows_compileBelow`, `follows_compileSelection` — queries, and the records that a change
  selects.
-/

namespace RecordQuery

open Outcome

/-! ## Conjuncts -/

namespace SlotM

section

variable {α β : Type} {S : QueryPlan → QueryPlan → Prop}

/-- Whenever the first compilation finds something, the second one finds the same, and their
sub-queries stay related. -/
def Follows (S : QueryPlan → QueryPlan → Prop) (m m' : SlotM α) : Prop :=
  ∀ slots slots', SlotsRelated S slots slots' →
    Outcome.Follows (fun a b => a.1 = b.1 ∧ SlotsRelated S a.2 b.2) (m.run slots) (m'.run slots')

/-- A compilation that finds something at once. -/
lemma Follows.pure (a : α) : Follows S (pure a) (pure a) :=
  fun _ _ h => .ok ⟨rfl, h⟩

/-- A step without sub-queries. -/
lemma Follows.lift (x : Except QueryError α) : Follows S (liftM x) (liftM x) := by
  intro slots slots' h
  cases x with
  | error e => exact .error e
  | ok a => exact .ok ⟨rfl, h⟩

/-- **Sequences of compilations.** -/
lemma Follows.bind {m m' : SlotM α} {f f' : α → SlotM β} (hm : Follows S m m')
    (hf : ∀ a, Follows S (f a) (f' a)) : Follows S (m >>= f) (m' >>= f') := by
  intro slots slots' h
  rw [StateT.run_bind, StateT.run_bind]
  refine (hm slots slots' h).bind fun a b ⟨heq, hslots⟩ => ?_
  rw [heq]
  exact hf b.1 a.2 b.2 hslots

end

section

variable {S : QueryPlan → QueryPlan → Prop}
  {compileSub compileSub' : Query → Except QueryError QueryNode} {scope : Scope} {target : Nat}

/-- Related sub-queries get the same slot. -/
lemma follows_newSlot
    (hsub : ∀ q, Outcome.Follows (QueryNode.Related S) (compileSub q) (compileSub' q)) (q : Query)
    (context : SubqueryContext) :
    Follows S (newSlot compileSub q context) (newSlot compileSub' q context) := by
  intro slots slots' h
  simp only [newSlot, StateT.run_bind, StateT.run_monadLift, bind_assoc]
  refine (hsub q).bind fun n n' hn => ?_
  exact .ok ⟨h.length_eq, h.concat hn context⟩

/-- The comparison of the key with a side. -/
lemma follows_keyComparison
    (hsub : ∀ q, Outcome.Follows (QueryNode.Related S) (compileSub q) (compileSub' q))
    (c : Comparison) (s : Side) :
    Follows S (keyComparison compileSub c s) (keyComparison compileSub' c s) := by
  unfold keyComparison
  by_cases hc : c ≠ .eq ∧ c ≠ .ne
  · simp only [if_pos hc]
    exact .pure _
  · simp only [if_neg hc]
    split
    · exact .pure _
    · exact .pure _
    · exact (follows_newSlot hsub _ _).bind fun slot => .pure _
    · exact .pure _

/-- The comparison of two sides. -/
lemma follows_nativeComparison
    (hsub : ∀ q, Outcome.Follows (QueryNode.Related S) (compileSub q) (compileSub' q))
    (topLevel : Bool) (left : Side) (c : Comparison) (right : Side) :
    Follows S (nativeComparison compileSub topLevel left c right)
      (nativeComparison compileSub' topLevel left c right) := by
  have hkey : ∀ (c : Comparison) (s : Side),
      Follows S (if topLevel then keyComparison compileSub c s else return none)
        (if topLevel then keyComparison compileSub' c s else return none) := by
    intro c s
    split
    · exact follows_keyComparison hsub c s
    · exact .pure _
  unfold nativeComparison
  cases left <;> cases right <;>
    first
    | exact .pure _
    | exact (follows_newSlot hsub _ _).bind fun slot => .pure _
    | exact hkey _ _

/-- **What the compilation of a conjunct finds** depends on the shapes of sub-queries only.

**Proof sketch.** Induction along the compilation (`compileConjunct_induction`). Every step either
knows nothing about sub-queries or compiles one, and then both sides get the same slot
(`follows_newSlot`). -/
theorem follows_compileConjunct
    (hsub : ∀ q, Outcome.Follows (QueryNode.Related S) (compileSub q) (compileSub' q))
    (topLevel : Bool) (e : Expr) :
    Follows S (compileConjunct compileSub scope target topLevel e)
      (compileConjunct compileSub' scope target topLevel e) := by
  induction topLevel, e using compileConjunct_induction with
  | paren topLevel e ih =>
    rw [compileConjunct, compileConjunct]
    exact ih
  | connective topLevel op f l r hop ihl ihr =>
    rw [compileConjunct_connective hop, compileConjunct_connective hop]
    exact ihl.bind fun a => ihr.bind fun b => .pure _
  | compare topLevel c l r =>
    rw [compileConjunct, compileConjunct]
    exact (Follows.lift _).bind fun left => (Follows.lift _).bind fun right =>
      follows_nativeComparison hsub topLevel left c right
  | between topLevel e low high =>
    rw [compileConjunct, compileConjunct]
    refine (Follows.lift _).bind fun subject => (Follows.lift _).bind fun l =>
      (Follows.lift _).bind fun h => ?_
    split <;> exact .pure _
  | inList topLevel e items =>
    rw [compileConjunct, compileConjunct]
    refine (Follows.lift _).bind fun subject => (Follows.lift _).bind fun os => ?_
    split <;> exact .pure _
  | inQuery topLevel e q =>
    rw [compileConjunct, compileConjunct]
    refine (Follows.lift _).bind fun subject => ?_
    split
    · exact (follows_newSlot hsub q _).bind fun slot => .pure _
    · split
      · exact (follows_newSlot hsub q _).bind fun slot => .pure _
      · exact .pure _
    · exact .pure _
  | undecided topLevel e hnone =>
    rw [hnone, hnone]
    exact .pure _

/-- What the compilation of several conjuncts finds. -/
lemma follows_compileConjuncts
    (hsub : ∀ q, Outcome.Follows (QueryNode.Related S) (compileSub q) (compileSub' q))
    (es : List Expr) :
    Follows S (compileConjuncts compileSub scope target es)
      (compileConjuncts compileSub' scope target es) := by
  induction es with
  | nil => exact .pure _
  | cons e es ih =>
    exact (follows_compileConjunct hsub true e).bind fun n => ih.bind fun ns => .pure _

end

end SlotM

/-! ## Plans -/

/-- What no column of two plans depends on is the same, but for queries inside them. -/
structure QueryPlan.Rest.Agrees (r r' : QueryPlan.Rest) : Prop where
  /-- The same is decided row by row. -/
  rowFilter : r.rowFilter = r'.rowFilter
  /-- The same condition is kept. -/
  whereClause : r.whereClause = r'.whereClause

/-- The plan of a selection with indexes of a catalog beside the plan without indexes, whatever the
queries inside them. -/
def QueryPlan.Indexed (catalog : IndexCatalog) : QueryPlan → QueryPlan → Prop :=
  QueryPlan.Twin (fun _ => TablePlan.Indexed catalog) QueryPlan.Rest.Agrees

/-- What no column of two plans depends on is the same, but that queries inside one of them have
indexes. -/
structure QueryPlan.Rest.Indexed (catalog : IndexCatalog) (r r' : QueryPlan.Rest) : Prop
    extends r.Agrees r' where
  /-- The sources are related. -/
  source : SourceRelated (QueryPlan.Indexed catalog) r.source r'.source
  /-- The sub-queries are related. -/
  subqueries : SlotsRelated (QueryPlan.Indexed catalog) r.subqueries r'.subqueries

/-- The plan of a selection with indexes beside the plan without, and so for queries inside them. -/
abbrev QueryPlan.DeepIndexed (catalog : IndexCatalog) : QueryPlan → QueryPlan → Prop :=
  QueryPlan.Twin (fun _ => TablePlan.Indexed catalog) (QueryPlan.Rest.Indexed catalog)

/-- Twins whose queries inside are related are related as a whole. -/
lemma QueryPlan.Twin.related {catalog : IndexCatalog} {p p' : QueryPlan}
    (h : QueryPlan.DeepIndexed catalog p p') : p.Related (QueryPlan.Indexed catalog) p' :=
  .intro { h with rest := h.rest.toAgrees } h.rest.source h.rest.subqueries

section Plans

variable {catalog : IndexCatalog} {p p' : QueryPlan} {t t' : TablePlan} {scope : Scope}
  {compileSub compileSub' : Query → Except QueryError QueryNode}

/-- Tables with one more condition. -/
lemma TablePlan.Indexed.addNative {n : NativeCondition} (h : t.Indexed catalog t')
    (hn : n.isKinded = true) : (t.addNative n).Indexed catalog (t'.addNative n) := by
  cases n with
  | bins c => exact h.addCondition hn
  | key k => exact h.addKeyCondition k

/-- Tables with several more conditions. -/
lemma TablePlan.Indexed.foldl_addNative {ns : List NativeCondition} (h : t.Indexed catalog t')
    (hns : ∀ n ∈ ns, n.isKinded = true) :
    (ns.foldl TablePlan.addNative t).Indexed catalog (ns.foldl TablePlan.addNative t') := by
  induction ns generalizing t t' with
  | nil => exact h
  | cons n ns ih =>
    exact ih (h.addNative (hns n (by simp))) fun m hm => hns m (by simp [hm])

/-- What the store can decide of the conjuncts on the main table does not depend on the catalog, and
its kinds fit. -/
lemma follows_mainConditions
    (hsub : ∀ q, Follows (QueryNode.Related (QueryPlan.Indexed catalog)) (compileSub q)
      (compileSub' q))
    (h : QueryPlan.DeepIndexed catalog p p') (conjuncts : List Expr) :
    Follows (fun a b => a.1 = b.1 ∧ SlotsRelated (QueryPlan.Indexed catalog) a.2 b.2 ∧
        (a.1.all Option.isSome = true → ∀ n ∈ a.1.filterMap id, n.isKinded = true))
      (mainConditions compileSub scope p conjuncts)
      (mainConditions compileSub' scope p' conjuncts) := by
  have hsource : p.source.isSome = p'.source.isSome := h.rest.source.isSome_eq
  unfold mainConditions
  rw [hsource]
  split
  · exact .ok ⟨rfl, .nil, fun hall => nomatch hall⟩
  · refine (SlotM.follows_compileConjuncts hsub conjuncts [] [] .nil).returned.mono ?_
    rintro a b ⟨⟨heq, hslots⟩, hrun, -⟩
    refine ⟨heq, hslots, fun hall n hn => ?_⟩
    obtain ⟨parts, -, hsnd, hof⟩ := compileConjuncts_of hrun hall
    rw [hsnd, List.mem_map] at hn
    obtain ⟨part, hpart, rfl⟩ := hn
    exact (hof part hpart).isKinded

/-- The plan with a condition on the main table.

**Proof sketch.** What is found is the same on both sides (`follows_mainConditions`). If every
conjunct was found, the conditions are added to both plans, and plans with and without indexes stay
that (`TablePlan.Indexed.foldl_addNative`, for which the kinds of the conditions have to fit).
Otherwise both plans filter row by row. -/
lemma follows_compileMain
    (hsub : ∀ q, Follows (QueryNode.Related (QueryPlan.Indexed catalog)) (compileSub q)
      (compileSub' q))
    (h : QueryPlan.DeepIndexed catalog p p') (conjuncts : List Expr) (whole : Expr) :
    Follows (QueryPlan.DeepIndexed catalog) (compileMain compileSub scope p conjuncts whole)
      (compileMain compileSub' scope p' conjuncts whole) := by
  unfold compileMain
  refine (follows_mainConditions hsub h conjuncts).bind fun a b ⟨heq, hslots, hkinded⟩ => ?_
  obtain ⟨natives, slots⟩ := a
  obtain ⟨_, slots'⟩ := b
  obtain rfl := heq
  by_cases hall : natives.all Option.isSome = true
  · simp only [hall, if_true]
    refine .pure { h with table := ?_, rest := ⟨⟨h.rest.rowFilter, ?_⟩, h.rest.source, hslots⟩ }
    · exact TablePlan.Indexed.foldl_addNative h.table (hkinded hall)
    · have hclause : p.whereClause = p'.whereClause := h.rest.whereClause
      simp only [QueryPlan.rest, hclause]
  · simp only [hall, if_false, Bool.false_eq_true]
    split
    · exact .throw _
    · exact .pure { h with rest := ⟨⟨rfl, h.rest.whereClause⟩, h.rest.source, h.rest.subqueries⟩ }

/-- The plan of a joined table with a conjunct.

**Proof sketch.** A conjunct on the optional side of a join fails on both sides. Otherwise the same
condition is found (`SlotM.follows_compileConjunct`), its kinds fit as those of every compiled
condition do, and it is added to both plans. -/
lemma follows_compileJoined
    (hsub : ∀ q, Follows (QueryNode.Related (QueryPlan.Indexed catalog)) (compileSub q)
      (compileSub' q))
    (h : t.Indexed catalog t') (table : Nat) (qualifier : String) (e : Expr) :
    Follows (TablePlan.Indexed catalog) (compileJoined compileSub scope table qualifier t e)
      (compileJoined compileSub' scope table qualifier t' e) := by
  unfold compileJoined
  split
  · exact .throw _
  · have hconjunct : SlotM.Follows (QueryPlan.Indexed catalog)
        (compileConjunct compileSub scope table true e)
        (compileConjunct compileSub' scope table true e) :=
          SlotM.follows_compileConjunct hsub true e
    have hrun := hconjunct [] [] .nil
    refine (hrun.returned.map (f := Prod.fst) (g := Prod.fst)
      (S := fun a b => a = b ∧ ∀ n, a = some n → n.isKinded = true) ?_).bind
        fun a b ⟨heq, hkinded⟩ => ?_
    · rintro a b ⟨⟨heq, -⟩, hrun, -⟩
      refine ⟨heq, fun n hn => ?_⟩
      obtain ⟨a, slots⟩ := a
      subst hn
      exact (compileConjunct_of e true hrun).isKinded
    · subst heq
      cases a with
      | none => exact .throw _
      | some n => exact .pure (h.addNative (hkinded n rfl))

/-- The plan of a joined table with several conjuncts. -/
lemma follows_compileJoinedAll
    (hsub : ∀ q, Follows (QueryNode.Related (QueryPlan.Indexed catalog)) (compileSub q)
      (compileSub' q))
    (h : t.Indexed catalog t') (table : Nat) (qualifier : String) (es : List Expr) :
    Follows (TablePlan.Indexed catalog) (compileJoinedAll compileSub scope table qualifier t es)
      (compileJoinedAll compileSub' scope table qualifier t' es) := by
  induction es generalizing t t' with
  | nil => exact .pure h
  | cons e es ih => exact (follows_compileJoined hsub h table qualifier e).bind fun u u' hu => ih hu

/-- The joined tables with the conjuncts that go to them.

**Proof sketch.** Induction on the joined tables, whose plans are related table by table; each takes
its own conjuncts (`follows_compileJoinedAll`). -/
lemma follows_compileJoins
    (hsub : ∀ q, Follows (QueryNode.Related (QueryPlan.Indexed catalog)) (compileSub q)
      (compileSub' q))
    (routed : List (Nat × Expr)) (table : Nat) {js js' : List JoinSpec}
    (h : ∀ i : Nat, Option.Rel (JoinSpec.Twin (TablePlan.Indexed catalog)) js[i]? js'[i]?) :
    Follows
      (fun ks ks' => ∀ i : Nat,
        Option.Rel (JoinSpec.Twin (TablePlan.Indexed catalog)) ks[i]? ks'[i]?)
      (compileJoins compileSub scope routed table js)
      (compileJoins compileSub' scope routed table js') := by
  induction js generalizing js' table with
  | nil =>
    obtain rfl := eq_nil_of_rel (R := fun _ => JoinSpec.Twin (TablePlan.Indexed catalog)) h
    exact .pure h
  | cons j js ih =>
    obtain ⟨j', js', rfl, hj, hjs⟩ :=
      exists_of_rel_cons (R := fun _ => JoinSpec.Twin (TablePlan.Indexed catalog)) h
    simp only [compileJoins, hj.qualifier]
    refine (follows_compileJoinedAll hsub hj.plan table j'.qualifier _).bind fun t t' ht => ?_
    refine (ih (table + 1) hjs).bind fun ks ks' hks => .pure ?_
    exact rel_cons (R := fun _ => JoinSpec.Twin (TablePlan.Indexed catalog))
      ⟨hj.kind, rfl, ht, hj.outerKey, hj.innerColumn⟩ hks

/-- **The plan with a condition** does not depend on the catalog, but for indexes and strategies.

**Proof sketch.** The conjuncts are routed without the catalog, so both sides route them alike. Then
the main table takes its conjuncts (`follows_compileMain`) and each joined table takes its own
(`follows_compileJoins`). -/
theorem follows_compileWhere
    (hsub : ∀ q, Follows (QueryNode.Related (QueryPlan.Indexed catalog)) (compileSub q)
      (compileSub' q))
    (h : QueryPlan.DeepIndexed catalog p p') (condition : Expr) :
    Follows (QueryPlan.DeepIndexed catalog) (compileWhere compileSub scope p condition)
      (compileWhere compileSub' scope p' condition) := by
  have hjoined : ∀ (routed : List (Nat × Expr)) (q q' : QueryPlan),
      QueryPlan.DeepIndexed catalog q q' → Follows (QueryPlan.DeepIndexed catalog)
        (do
          let joins ← compileJoins compileSub scope routed 1 q.joins
          return { q with joins })
        (do
          let joins ← compileJoins compileSub' scope routed 1 q'.joins
          return { q' with joins }) := fun routed q q' hq =>
    (follows_compileJoins hsub routed 1 hq.joins).map fun ks ks' hks => { hq with joins := hks }
  unfold compileWhere
  refine (Follows.of_eq _).bind fun routed _ hrouted => ?_
  subst hrouted
  simp only
  split
  · exact (follows_compileMain hsub h _ _).bind (hjoined routed)
  · exact hjoined routed p p' h

/-- The plan of a selection with the strategy for what it does. -/
lemma follows_chooseStrategy (h : p.Indexed catalog p')
    (hsource : p.source.isSome = p'.source.isSome) :
    Follows (fun q q' => q.Indexed catalog q' ∧ q.rest = p.rest ∧ q'.rest = p'.rest)
      p.chooseStrategy p'.chooseStrategy := by
  have hwith : ∀ s s' : Option AccessStrategy,
      (p.mapTable (fun t => { t with strategy := s })).Indexed catalog
        (p'.mapTable (fun t => { t with strategy := s' })) := fun s s' =>
    { h with table := TablePlan.Indexed.withStrategies h.table s s' }
  unfold QueryPlan.chooseStrategy
  rw [hsource, h.reduction]
  split
  · exact .ok ⟨hwith none none, rfl, rfl⟩
  · cases p'.reduction with
    | none =>
      refine (TablePlan.Indexed.exists_readingStrategy h.table).bind fun s s' _ => ?_
      exact .ok ⟨hwith (some s) (some s'), rfl, rfl⟩
    | some r =>
      refine (TablePlan.Indexed.exists_reducingStrategy h.table r.call).bind fun s s' _ => ?_
      exact .ok ⟨hwith (some s) (some s'), rfl, rfl⟩

end Plans

/-! ## Queries -/

section Queries

variable {ns : String} {catalog : IndexCatalog}
  {compileSub compileSub' : Query → Except QueryError QueryNode}

/-- The plan of a table for a catalog. -/
lemma TablePlan.Indexed.ofCatalog (ns : String) (catalog : IndexCatalog) (table : TableName)
    (rename : Option String) :
    ((⟨ns, []⟩ : CompileEnv).tablePlan table rename).Indexed catalog
      ((⟨ns, catalog⟩ : CompileEnv).tablePlan table rename) := by
  refine ⟨rfl, rfl, fun i hi => ?_, rfl⟩
  have hforSet :
      i ∈ catalog.forSet ((⟨ns, catalog⟩ : CompileEnv).namespaceOf table) table.name := hi
  rw [IndexCatalog.forSet, List.mem_filter, Bool.and_eq_true, beq_iff_eq, beq_iff_eq] at hforSet
  exact ⟨hforSet.1, hforSet.2.1, congrArg some hforSet.2.2⟩

/-- The plan that returns what a table plan reads. -/
lemma QueryPlan.indexed_ofTable {t t' : TablePlan} (h : t.Indexed catalog t') :
    QueryPlan.DeepIndexed catalog (.ofTable t) (.ofTable t') :=
  ⟨h, fun _ => .none, rfl, rfl, rfl, rfl, rfl, rfl, rfl, ⟨⟨rfl, rfl⟩, .none, .nil⟩⟩

/-- The plan that returns nothing of its source yet. -/
lemma follows_compileSource
    (hsub : ∀ q, Follows (QueryNode.Related (QueryPlan.Indexed catalog)) (compileSub q)
      (compileSub' q)) (table : TableExpr) :
    Follows (fun p p' => QueryPlan.DeepIndexed catalog p p' ∧ p.set = p'.set ∧ p.rename = p'.rename)
      (compileSource ⟨ns, []⟩ compileSub table)
      (compileSource ⟨ns, catalog⟩ compileSub' table) := by
  cases table with
  | named name rename =>
    exact .pure ⟨QueryPlan.indexed_ofTable (.ofCatalog ns catalog name rename), rfl, rfl⟩
  | derived q rename =>
    refine (hsub q).map fun n n' hn => ⟨?_, rfl, rfl⟩
    have htable : (TablePlan.ofSet ns none rename).Indexed catalog (.ofSet ns none rename) :=
      ⟨rfl, rfl, nofun, rfl⟩
    exact { QueryPlan.indexed_ofTable htable with rest := ⟨⟨rfl, rfl⟩, .some hn, .nil⟩ }

/-- The plan of a join, and the scope in which the joined table is known. -/
lemma follows_compileJoin (scope : Scope) (j : Join) :
    Follows (fun a b => JoinSpec.Twin (TablePlan.Indexed catalog) a.1 b.1 ∧ a.2 = b.2)
      (compileJoin ⟨ns, []⟩ scope j) (compileJoin ⟨ns, catalog⟩ scope j) := by
  unfold compileJoin
  split
  · exact .error _
  · simp only
    split
    · exact .throw _
    · refine (Follows.of_eq _).bind fun found _ hfound => ?_
      subst hfound
      exact .pure ⟨⟨rfl, rfl, .ofCatalog ns catalog _ _, rfl, rfl⟩, rfl⟩

/-- The plans of several joins. -/
lemma follows_compileJoinList (scope : Scope) (js : List Join) :
    Follows
      (fun a b => (∀ i : Nat,
        Option.Rel (JoinSpec.Twin (TablePlan.Indexed catalog)) a.1[i]? b.1[i]?) ∧ a.2 = b.2)
      (compileJoinList ⟨ns, []⟩ scope js) (compileJoinList ⟨ns, catalog⟩ scope js) := by
  induction js generalizing scope with
  | nil => exact .pure ⟨fun _ => .none, rfl⟩
  | cons j js ih =>
    refine (follows_compileJoin scope j).bind fun a b ⟨hab, hscope⟩ => ?_
    obtain ⟨spec, next⟩ := a
    obtain ⟨spec', _⟩ := b
    obtain rfl := hscope
    refine (ih next).map fun c d ⟨hcd, hlast⟩ => ⟨?_, hlast⟩
    exact rel_cons (R := fun _ => JoinSpec.Twin (TablePlan.Indexed catalog)) hab hcd

/-- **The plan of a selection** does not depend on the catalog, but for indexes and strategies. -/
theorem follows_compileSelect
    (hsub : ∀ q, Follows (QueryNode.Related (QueryPlan.Indexed catalog)) (compileSub q)
      (compileSub' q))
    (s : Select) (orderBy : List OrderItem) (limit offset : Option Expr) :
    Follows (QueryPlan.Related (QueryPlan.Indexed catalog))
      (compileSelect ⟨ns, []⟩ compileSub s orderBy limit offset)
      (compileSelect ⟨ns, catalog⟩ compileSub' s orderBy limit offset) := by
  refine Follows.mono ?_ fun p p' h => QueryPlan.Twin.related h
  refine twin_compileSelect s.condition (TablePlan.Indexed.twinning catalog)
    (TablePlan.Indexed.twinning catalog)
    (follows_compileSource hsub s.source) (fun scope => follows_compileJoinList scope s.joins)
    (fun scope p p' h => twin_withOption (fun q q' hq e => follows_compileWhere hsub hq e) h _)
    (fun r r' h hr => ?_) (fun _ t t' ht => ht.chooseStrategy) (fun p p' h => ?_)
  · rw [← h.rowFilter, ← Option.not_isSome, ← h.source.isSome_eq, Option.not_isSome]
    exact hr
  · refine (follows_chooseStrategy { h with rest := h.rest.toAgrees }
      h.rest.source.isSome_eq).mono fun q q' ⟨hq, hrest, hrest'⟩ => ?_
    exact { hq with rest := by rw [hrest, hrest']; exact h.rest }

/-- Related queries return as many columns under the same labels. -/
lemma QueryNode.Related.labels_eq {n n' : QueryNode}
    (h : n.Related (QueryPlan.Indexed catalog) n') : n.labels = n'.labels :=
  QueryPlan.Twin.labels_eq h.firstPlan (TablePlan.Indexed.twinning catalog)

/-- Related queries return all columns or neither does. -/
lemma QueryNode.Related.wildcard_eq {n n' : QueryNode}
    (h : n.Related (QueryPlan.Indexed catalog) n') :
    n.firstPlan.wildcard = n'.firstPlan.wildcard := h.firstPlan.wildcard

/-- Related queries are as wide. -/
lemma QueryNode.Related.width?_eq {n n' : QueryNode}
    (h : n.Related (QueryPlan.Indexed catalog) n') : n.width? = n'.width? := by
  rw [QueryNode.width?, QueryNode.width?, h.wildcard_eq, h.labels_eq]

/-- Related queries can be put together or cannot. -/
lemma checkWidths_eq {n n' : QueryNode} {ls ls' : List ChainLink}
    (h : n.Related (QueryPlan.Indexed catalog) n')
    (hls : LinksRelated (QueryPlan.Indexed catalog) ls ls') :
    checkWidths n ls = checkWidths n' ls' := by
  induction ls generalizing ls' with
  | nil => cases hls; rfl
  | cons l ls ih =>
    cases hls with
    | cons hl hls => rw [checkWidths, checkWidths, h.width?_eq, hl.width?_eq, ih hls]

/-- The chain of related queries. -/
lemma follows_makeChain {parts parts' : QueryNode × List ChainLink} {last last' : QueryNode}
    (hhead : parts.1.Related (QueryPlan.Indexed catalog) parts'.1)
    (hlinks : LinksRelated (QueryPlan.Indexed catalog) parts.2 parts'.2) (op : SetOperator)
    (hlast : last.Related (QueryPlan.Indexed catalog) last') :
    Follows (fun c c' => ∃ ls ls', c = ⟨parts.1, ls, [], none, none⟩ ∧
        c' = ⟨parts'.1, ls', [], none, none⟩ ∧ LinksRelated (QueryPlan.Indexed catalog) ls ls')
      (makeChain parts op last) (makeChain parts' op last') := by
  have hall := hlinks.append
    (.cons hlast .nil : LinksRelated _ [⟨last, op⟩] [⟨last', op⟩])
  simp only [makeChain, checkWidths_eq hhead hall]
  exact (Follows.of_eq _).map fun _ _ _ => ⟨_, _, rfl, rfl, hall⟩

mutual

/-- The plan of a body without order and limits. -/
theorem follows_compileBody
    (hsub : ∀ q, Follows (QueryNode.Related (QueryPlan.Indexed catalog)) (compileSub q)
      (compileSub' q)) : (b : QueryBody) →
    Follows (QueryNode.Related (QueryPlan.Indexed catalog)) (compileBody ⟨ns, []⟩ compileSub b)
      (compileBody ⟨ns, catalog⟩ compileSub' b)
  | .select s => by
    simp only [compileBody]
    exact (follows_compileSelect hsub s [] none none).map fun p p' hp => .plan hp
  | .combine op l r => by
    simp only [compileBody]
    refine (follows_compileParts hsub l).bind fun parts parts' ⟨hhead, hlinks⟩ => ?_
    refine (follows_compileBody hsub r).bind fun last last' hlast => ?_
    refine (follows_makeChain hhead hlinks op hlast).map ?_
    rintro c c' ⟨ls, ls', rfl, rfl, hls⟩
    exact .chain (.intro [] none none hhead hls)

/-- The first selection of a body, and what the set operations along its left side put to it. -/
theorem follows_compileParts
    (hsub : ∀ q, Follows (QueryNode.Related (QueryPlan.Indexed catalog)) (compileSub q)
      (compileSub' q)) : (b : QueryBody) →
    Follows (fun parts parts' => parts.1.Related (QueryPlan.Indexed catalog) parts'.1 ∧
        LinksRelated (QueryPlan.Indexed catalog) parts.2 parts'.2)
      (compileParts ⟨ns, []⟩ compileSub b) (compileParts ⟨ns, catalog⟩ compileSub' b)
  | .select s => by
    simp only [compileParts]
    exact (follows_compileSelect hsub s [] none none).map fun p p' hp => ⟨.plan hp, .nil⟩
  | .combine op l r => by
    simp only [compileParts]
    refine (follows_compileParts hsub l).bind fun parts parts' ⟨hhead, hlinks⟩ => ?_
    refine (follows_compileBody hsub r).map fun last last' hlast => ?_
    exact ⟨hhead, hlinks.append (.cons hlast .nil)⟩

end

/-- The plan of a query, given those of the queries inside it. -/
lemma follows_compileWith
    (hsub : ∀ q, Follows (QueryNode.Related (QueryPlan.Indexed catalog)) (compileSub q)
      (compileSub' q)) (q : Query) :
    Follows (QueryNode.Related (QueryPlan.Indexed catalog)) (compileWith ⟨ns, []⟩ compileSub q)
      (compileWith ⟨ns, catalog⟩ compileSub' q) := by
  unfold compileWith
  split
  · exact (follows_compileSelect hsub _ _ _ _).map fun p p' hp => .plan hp
  · refine (follows_compileParts hsub _).bind fun parts parts' ⟨hhead, hlinks⟩ => ?_
    refine (follows_compileBody hsub _).bind fun last last' hlast => ?_
    refine (follows_makeChain hhead hlinks _ hlast).bind ?_
    rintro c c' ⟨ls, ls', rfl, rfl, hls⟩
    simp only [hhead.labels_eq]
    refine (Follows.of_eq _).bind fun orderBy _ horder => ?_
    subst horder
    refine (Follows.of_eq _).bind fun offset _ hoffset => ?_
    subst hoffset
    refine (Follows.of_eq _).map fun limit _ hlimit => ?_
    subst hlimit
    exact .chain (.intro orderBy offset limit hhead hls)

/-- **The plan of a query** does not depend on the catalog, but for indexes and strategies. By
induction on how deeply queries are nested. -/
theorem follows_compileBelow (ns : String) (catalog : IndexCatalog) (bound : Nat) (q : Query) :
    Follows (QueryNode.Related (QueryPlan.Indexed catalog)) (compileBelow ⟨ns, []⟩ bound q)
      (compileBelow ⟨ns, catalog⟩ bound q) := by
  induction bound generalizing q with
  | zero => exact .error _
  | succ bound ih => exact follows_compileWith ih q

/-- **The records that an update or a deletion selects** are described independently of the catalog,
but for indexes and strategies. -/
theorem follows_compileSelection (ns : String) (catalog : IndexCatalog) (table : TableName)
    (condition : Option Expr) :
    Follows (QueryPlan.Related (QueryPlan.Indexed catalog))
      (compileSelection ⟨ns, []⟩ table condition)
      (compileSelection ⟨ns, catalog⟩ table condition) := by
  have hchoose : ∀ p p' : QueryPlan, QueryPlan.DeepIndexed catalog p p' →
      Follows (QueryPlan.Related (QueryPlan.Indexed catalog)) p.chooseStrategy
        p'.chooseStrategy := by
    intro p p' h
    refine (follows_chooseStrategy { h with rest := h.rest.toAgrees }
      h.rest.source.isSome_eq).mono fun q q' ⟨hq, hrest, hrest'⟩ => ?_
    exact QueryPlan.Twin.related { hq with rest := by rw [hrest, hrest']; exact h.rest }
  have htable := QueryPlan.indexed_ofTable (TablePlan.Indexed.ofCatalog ns catalog table none)
  unfold compileSelection
  cases condition with
  | none => exact hchoose _ _ htable
  | some e =>
    exact (follows_compileWhere (follows_compileBelow ns catalog e.depth) htable e).bind hchoose

end Queries

end RecordQuery
