import RecordQuery.Proofs.Compile.Items
import RecordQuery.Proofs.Compile.Substitution
import RecordQuery.Proofs.Compile.Twin

set_option autoImplicit false

/-!
# Conjuncts of several tables

The condition of a selection with joins is taken apart. Every conjunct goes to the last of the
tables that it refers to, and becomes a condition on that table; if the store cannot decide all
conjuncts on the main table, they are decided row by row together. Nothing else in the plan depends
on the condition.

## Main definitions

* `Select.shown` — the plan of the items of a selection, without its condition.
* `routeCondition`, `conjunctsAt` — the conjuncts of a condition with their tables.
* `QueryPlan.TakesConjuncts` — a plan has become one with conjuncts.

## Main results

* `routeConjuncts_spec`, `lastTable_spec` — where conjuncts go.
* `Select.isBare_shown` — the plan of the items reads its tables as a whole.
* `compileSelect_takesConjuncts` — the plan of a selection is that of its items with the conjuncts.
-/

namespace RecordQuery

open Outcome

/-! ## Tables -/

namespace QueryPlan

/-- The tables of a plan, as columns refer to them. -/
def scope (q : QueryPlan) : Scope :=
  ⟨q.set, q.rename⟩ :: q.joins.map fun j => ⟨j.plan.set, j.plan.rename⟩

/-- Joined tables have names of their own. -/
structure TablesApart (q : QueryPlan) : Prop where
  /-- Columns refer to a joined table by the name that stands before its columns in the rows. -/
  named : ∀ j ∈ q.joins, j.plan.qualifier = some j.qualifier
  /-- No two of them have the same name. -/
  nodup : (q.joins.map JoinSpec.qualifier).Nodup

end QueryPlan

/-- Columns belong to tables that are there. -/
lemma Scope.lt_length_of_resolve {scope : Scope} {c : ColumnRef} {i : Nat} (hscope : scope ≠ [])
    (h : scope.resolve c = .ok i) : i < scope.length := by
  unfold resolve at h
  split at h
  · obtain rfl := Except.ok.inj h
    exact List.length_pos_iff.mpr hscope
  · split at h
    · rename_i j hj
      obtain rfl := Except.ok.inj h
      rcases Option.or_eq_some_iff.mp hj with hj | ⟨-, hj⟩
      · exact (List.findIdx?_eq_some_iff_findIdx_eq.mp hj).1
      · exact (List.findIdx?_eq_some_iff_findIdx_eq.mp hj).1
    · cases h

/-! ## Where conjuncts go -/

section

variable {scope : Scope} {e : Expr} {es : List Expr} {routed : List (Nat × Expr)}

/-- All columns belong to tables up to the last one. -/
lemma lastTable_spec {cs : List ColumnRef} {last : Nat} (h : lastTable scope cs = .ok last) :
    ∀ c ∈ cs, ∃ i ≤ last, scope.resolve c = .ok i := by
  induction cs generalizing last with
  | nil => exact fun c hc => nomatch hc
  | cons c cs ih =>
    simp only [lastTable, bind_eq_ok, pure_eq_ok] at h
    obtain ⟨table, htable, rest, hrest, rfl⟩ := h
    intro d hd
    rcases List.mem_cons.mp hd with rfl | hd
    · exact ⟨table, Nat.le_max_left .., htable⟩
    · obtain ⟨i, hi, hd⟩ := ih hrest d hd
      exact ⟨i, hi.trans (Nat.le_max_right ..), hd⟩

/-- The last of the tables to which columns belong is there. -/
lemma lt_length_of_lastTable (hscope : scope ≠ []) {cs : List ColumnRef} {last : Nat}
    (h : lastTable scope cs = .ok last) : last < scope.length := by
  induction cs generalizing last with
  | nil =>
    obtain rfl := pure_eq_ok.mp h
    exact List.length_pos_iff.mpr hscope
  | cons c cs ih =>
    simp only [lastTable, bind_eq_ok, pure_eq_ok] at h
    obtain ⟨table, htable, rest, hrest, rfl⟩ := h
    exact max_lt (Scope.lt_length_of_resolve hscope htable) (ih hrest)

/-- **Every conjunct goes to the last of the tables that it refers to.** -/
lemma routeConjuncts_spec (h : routeConjuncts scope es = .ok routed) :
    routed.map Prod.snd = es ∧ ∀ r ∈ routed, lastTable scope r.2.columns = .ok r.1 := by
  induction es generalizing routed with
  | nil =>
    obtain rfl := pure_eq_ok.mp h
    exact ⟨rfl, fun r hr => nomatch hr⟩
  | cons e es ih =>
    simp only [routeConjuncts, bind_eq_ok, pure_eq_ok] at h
    obtain ⟨table, htable, rest, hrest, rfl⟩ := h
    obtain ⟨hsnd, hlast⟩ := ih hrest
    refine ⟨by rw [List.map_cons, hsnd], fun r hr => ?_⟩
    rcases List.mem_cons.mp hr with rfl | hr
    · exact htable
    · exact hlast r hr

/-- The conjuncts of a condition, if there is one, with the tables that they go to. -/
def routeCondition (scope : Scope) : Option Expr → Except QueryError (List (Nat × Expr))
  | none => return []
  | some e => routeConjuncts scope e.conjuncts

/-- The conjuncts that go to a table. -/
def conjunctsAt (routed : List (Nat × Expr)) (table : Nat) : List Expr :=
  (routed.filter fun r => r.1 == table).map Prod.snd

/-- A conjunct that goes to a table refers to this table and to tables before. -/
lemma lastTable_of_mem_conjunctsAt (h : routeConjuncts scope es = .ok routed) {table : Nat}
    (he : e ∈ conjunctsAt routed table) : lastTable scope e.columns = .ok table := by
  obtain ⟨r, hr, rfl⟩ := List.mem_map.mp he
  obtain ⟨hmem, htable⟩ := List.mem_filter.mp hr
  rw [← beq_iff_eq.mp htable]
  exact (routeConjuncts_spec h).2 r hmem

/-- A conjunct is its own conjunct. -/
lemma Expr.conjuncts_of_mem {w : Expr} (he : e ∈ w.conjuncts) : e.conjuncts = [e] := by
  induction w using Expr.conjuncts_induction with
  | and l r ihl ihr =>
    rw [Expr.conjuncts] at he
    exact (List.mem_append.mp he).elim ihl ihr
  | paren w ih =>
    rw [Expr.conjuncts] at he
    exact ih he
  | single w _ _ hw =>
    rw [hw] at he
    obtain rfl := List.mem_singleton.mp he
    exact hw

/-- The conjuncts of a conjunction of conjuncts are these. -/
lemma conjuncts_of_conjoin (hes : ∀ e ∈ es, e.conjuncts = [e]) {whole : Expr}
    (h : conjoin es = some whole) : whole.conjuncts = es := by
  cases es with
  | nil => cases h
  | cons e es =>
    obtain rfl := Option.some.inj h
    have hfold : ∀ (ds : List Expr) (d : Expr), (∀ e ∈ ds, e.conjuncts = [e]) →
        (ds.foldl Expr.andAlso d).conjuncts = d.conjuncts ++ ds := by
      intro ds
      induction ds with
      | nil => exact fun d _ => (List.append_nil _).symm
      | cons b ds ih =>
        intro d hds
        rw [List.foldl_cons, ih _ fun e he => hds e (List.mem_cons_of_mem b he), Expr.andAlso,
          Expr.conjuncts, hds b List.mem_cons_self, List.append_assoc]
        rfl
    rw [hfold es e fun d hd => hes d (List.mem_cons_of_mem e hd), hes e List.mem_cons_self]
    rfl

/-- The condition on the main table is made of the conjuncts that go there: it is the whole
condition if all go there, and there is none if none does. -/
lemma conjuncts_of_whole {w : Expr} (h : routeConjuncts scope w.conjuncts = .ok routed) :
    let whole := if routed.all (fun r => r.1 == 0) then some w else conjoin (conjunctsAt routed 0)
    (∀ e, whole = some e → e.conjuncts = conjunctsAt routed 0) ∧
      (whole = none → conjunctsAt routed 0 = []) := by
  intro whole
  by_cases hall : routed.all (fun r => r.1 == 0) = true
  · have hwhole : whole = some w := if_pos hall
    rw [hwhole]
    refine ⟨fun e he => ?_, fun hnone => nomatch hnone⟩
    obtain rfl := Option.some.inj he
    rw [conjunctsAt, List.filter_eq_self.mpr (List.all_eq_true.mp hall), (routeConjuncts_spec h).1]
  · have hwhole : whole = conjoin (conjunctsAt routed 0) := if_neg hall
    rw [hwhole]
    refine ⟨fun e he => conjuncts_of_conjoin (fun d hd => ?_) he, fun hnone => ?_⟩
    · exact Expr.conjuncts_of_mem (mem_of_routeConjuncts h hd)
    · unfold conjoin at hnone
      split at hnone
      · assumption
      · cases hnone

end

/-! ## The plan of the items -/

/-- A plan that reads a set, all of it, and for which there are no indexes. -/
structure TablePlan.IsBare (t : TablePlan) : Prop where
  /-- The set. -/
  set : t.set.isSome = true
  /-- There are no indexes. -/
  indexes : t.indexes = []
  /-- There is no condition on the bins. -/
  condition : t.condition = none
  /-- There is no condition on the key. -/
  keyCondition : t.keyCondition = none

/-- A plan of tables whose rows are neither reduced nor limited. -/
structure QueryPlan.IsUnreduced (p : QueryPlan) : Prop where
  /-- There is no condition on groups. -/
  having : p.having = none
  /-- There is no reduction. -/
  reduction : p.reduction = none
  /-- No rows are skipped. -/
  offset : p.offset = none
  /-- There is no limit. -/
  limit : p.limit = none
  /-- The rows come from the store. -/
  source : p.source = none
  /-- There are no sub-queries. -/
  subqueries : p.subqueries = []

/-- A plan of tables that are read as a whole, of which no rows are left out. -/
structure QueryPlan.IsBare (p : QueryPlan) : Prop where
  /-- The main table. -/
  main : p.toTablePlan.IsBare
  /-- The joined tables. -/
  joins : ∀ j ∈ p.joins, j.plan.IsBare
  /-- Columns refer to a joined table by the name that stands before its columns in the rows. -/
  named : ∀ j ∈ p.joins, j.plan.qualifier = some j.qualifier
  /-- Nothing is decided row by row. -/
  rowFilter : p.rowFilter = none
  /-- There is no condition. -/
  whereClause : p.whereClause = none
  /-- The rows are neither reduced nor limited. -/
  unreduced : p.IsUnreduced

/-- The plan of the items of a selection of tables, without its condition. -/
def Select.shown (ns : String) (s : Select) : Except QueryError QueryPlan := do
  let p ← compileSource ⟨ns, []⟩ (fun _ => .error .nestingTooDeep) s.source
  let (joins, scope) ← compileJoinList ⟨ns, []⟩ [⟨p.set, p.rename⟩] s.joins
  addItems scope none { p with joins } s.items

section

variable {env : CompileEnv} {ns : String} {s : Select} {p q : QueryPlan}

/-- The plan of a joined table.

**Proof sketch.** The compilation of a join fails unless it joins a set on one equality. Then the
plan is that of the set, and the qualifier is read off the scope in which the joined table stands
last. -/
lemma compileJoin_spec {scope scope' : Scope} {j : Join} {spec : JoinSpec}
    (h : compileJoin env scope j = .ok (spec, scope')) :
    scope' = scope ++ [⟨spec.plan.set, spec.plan.rename⟩] ∧
      spec.plan.qualifier = some spec.qualifier ∧
      ∃ name rename, spec.plan = env.tablePlan name rename := by
  unfold compileJoin at h
  split at h
  · cases h
  · rename_i name rename _
    split at h
    · cases h
    · simp only [bind_eq_ok, pure_eq_ok] at h
      obtain ⟨⟨inner, outer, outerTable⟩, -, h⟩ := h
      obtain ⟨rfl, rfl⟩ := Prod.mk.inj h
      refine ⟨rfl, ?_, name, rename, rfl⟩
      have htable : (scope ++ [⟨some name.name, rename⟩])[scope.length]? =
          some ⟨some name.name, rename⟩ := List.getElem?_concat_length
      have hqualifier : Scope.qualifier (scope ++ [⟨some name.name, rename⟩]) scope.length =
          rename.or (some name.name) := by
        rw [Scope.qualifier, htable]
        rfl
      simp only [hqualifier]
      cases rename <;> rfl

/-- The plans of joined tables. -/
lemma compileJoinList_spec {scope scope' : Scope} {js : List Join} {specs : List JoinSpec}
    (h : compileJoinList env scope js = .ok (specs, scope')) :
    scope' = scope ++ specs.map (fun j => ⟨j.plan.set, j.plan.rename⟩) ∧
      ∀ j ∈ specs, j.plan.qualifier = some j.qualifier ∧
        ∃ name rename, j.plan = env.tablePlan name rename := by
  induction js generalizing scope specs with
  | nil =>
    obtain ⟨rfl, rfl⟩ := Prod.mk.inj (pure_eq_ok.mp h)
    exact ⟨(List.append_nil _).symm, fun j hj => nomatch hj⟩
  | cons j js ih =>
    simp only [compileJoinList, bind_eq_ok, pure_eq_ok] at h
    obtain ⟨⟨spec, mid⟩, hspec, ⟨rest, last⟩, hrest, h⟩ := h
    obtain ⟨rfl, rfl⟩ := Prod.mk.inj h
    obtain ⟨rfl, hnamed, htable⟩ := compileJoin_spec hspec
    obtain ⟨hscope, hspecs⟩ := ih hrest
    refine ⟨by rw [hscope, List.append_assoc]; rfl, fun k hk => ?_⟩
    rcases List.mem_cons.mp hk with rfl | hk
    · exact ⟨hnamed, htable⟩
    · exact hspecs k hk

/-- A plan of a whole set without indexes. -/
lemma TablePlan.isBare_tablePlan (ns : String) (name : TableName) (rename : Option String) :
    (CompileEnv.tablePlan ⟨ns, []⟩ name rename).IsBare := ⟨rfl, rfl, rfl, rfl⟩

/-- What is carried does not count. -/
lemma TablePlan.SameReading.isBare {t u : TablePlan} (h : t.SameReading u) (ht : t.IsBare) :
    u.IsBare := by
  rw [h]
  exact { ht with }

/-- Joined tables that carry something else are known as before. -/
lemma JoinSpec.spec_of_sameReading {js ks : List JoinSpec}
    (h : List.Forall₂ JoinSpec.SameReading js ks) :
    js.map (fun j => (⟨j.plan.set, j.plan.rename⟩ : TableRef)) =
        ks.map (fun k => ⟨k.plan.set, k.plan.rename⟩) ∧
      ∀ k ∈ ks, ∃ j ∈ js, j.SameReading k := by
  induction h with
  | nil => exact ⟨rfl, fun k hk => nomatch hk⟩
  | @cons j k js ks hfirst _ ih =>
    refine ⟨by rw [List.map_cons, List.map_cons, ih.1, hfirst.plan], fun l hl => ?_⟩
    rcases List.mem_cons.mp hl with rfl | hl
    · exact ⟨j, List.mem_cons_self, hfirst⟩
    · obtain ⟨i, hi, hsame⟩ := ih.2 l hl
      exact ⟨i, List.mem_cons_of_mem j hi, hsame⟩

/-- **The steps of the plan of the items.** The tables of the plan are those that columns refer to
when the items are added.

**Proof sketch.** Each step is known to have returned. The source is a set, since there is no way to
compile a query here, and adding items changes neither the tables nor what they are called
(`addItems_grows`), so the scope of the joins is that of the plan. -/
lemma Select.exists_of_shown (h : s.shown ns = .ok q) :
    ∃ name rename joins, s.source = .named name rename ∧
      compileJoinList ⟨ns, []⟩ [⟨some name.name, rename⟩] s.joins = .ok (joins, q.scope) ∧
      addItems q.scope none
        { QueryPlan.ofTable (CompileEnv.tablePlan ⟨ns, []⟩ name rename) with joins } s.items =
          .ok q := by
  obtain ⟨source, hsource, h⟩ := bind_eq_ok.mp h
  obtain ⟨⟨joins, scope⟩, hjoins, h⟩ := bind_eq_ok.mp h
  cases hnamed : s.source with
  | derived q rename =>
    rw [hnamed] at hsource
    cases hsource
  | named name rename =>
    rw [hnamed] at hsource
    obtain rfl := Except.ok.inj hsource
    have hsame := (addItems_grows (A := True) (E := fun _ => True) (fun _ => trivial)
      (fun _ _ _ => trivial) h).sameReading
    have hscope : scope = q.scope := by
      have hmain : q.set = some name.name ∧ q.rename = rename := by
        rw [show q.toTablePlan = _ from hsame.table]
        exact ⟨rfl, rfl⟩
      rw [(compileJoinList_spec hjoins).1, QueryPlan.scope, hmain.1, hmain.2,
        (JoinSpec.spec_of_sameReading hsame.joins).1]
      rfl
    subst hscope
    exact ⟨name, rename, joins, rfl, hjoins, h⟩

/-- **The plan of the items reads whole tables.** -/
theorem Select.isBare_shown (h : s.shown ns = .ok q) : q.IsBare := by
  obtain ⟨name, rename, joins, -, hjoins, hitems⟩ := Select.exists_of_shown h
  obtain ⟨htable, hjoined, hrest⟩ := (addItems_grows (A := True) (E := fun _ => True)
    (fun _ => trivial) (fun _ _ _ => trivial) hitems).sameReading
  have hspecs := (compileJoinList_spec hjoins).2
  have hsame := (JoinSpec.spec_of_sameReading hjoined).2
  refine ⟨htable.isBare (TablePlan.isBare_tablePlan ns name rename), fun k hk => ?_,
    fun k hk => ?_, by rw [hrest]; rfl, by rw [hrest]; rfl,
    by rw [hrest]; exact ⟨rfl, rfl, rfl, rfl, rfl, rfl⟩⟩
  · obtain ⟨j, hj, hplan, -⟩ := hsame k hk
    obtain ⟨-, name, rename, hj⟩ := hspecs j hj
    exact hplan.isBare (hj ▸ TablePlan.isBare_tablePlan ns name rename)
  · obtain ⟨j, hj, hplan, hjoin⟩ := hsame k hk
    rw [hjoin, hplan]
    exact (hspecs j hj).1

end

/-! ## The condition -/

/-- The plan of a table has become one with the conditions that become of conjuncts, whatever its
strategy. -/
def TablePlan.TakesConjuncts (scope : Scope) (table : Nat) (es : List Expr) (t u : TablePlan) :
    Prop :=
  ∃ parts : List (Expr × NativeCondition), parts.map Prod.fst = es ∧
    (∀ a ∈ parts, NativeCondition.Of scope table a.1 a.2) ∧
    u = { (parts.map Prod.snd).foldl TablePlan.addNative t with strategy := u.strategy }

/-- A plan has become one with conjuncts on its main table. The store decides them, or they are
decided row by row together. -/
def QueryPlan.TakesMain (scope : Scope) (es : List Expr) (p q : QueryPlan) : Prop :=
  (p.toTablePlan.TakesConjuncts scope 0 es q.toTablePlan ∧ q.rowFilter = none ∧
      ∀ e, q.whereClause = some e → e.conjuncts = es) ∨
    (q.toTablePlan = { p.toTablePlan with strategy := q.strategy } ∧
      ∃ e, q.rowFilter = some e ∧ e.conjuncts = es)

/-- A plan has become one with conjuncts, whatever its strategies and its order. The store decides
those on joined tables. -/
structure QueryPlan.TakesConjuncts (scope : Scope) (routed : List (Nat × Expr)) (p q : QueryPlan) :
    Prop where
  /-- The conjuncts on the main table. -/
  main : p.TakesMain scope (conjunctsAt routed 0) q
  /-- The conjuncts on joined tables. -/
  joins : ∀ i : Nat, Option.Rel (fun j k => j.plan.TakesConjuncts scope (i + 1)
      (conjunctsAt routed (i + 1)) k.plan ∧ k = { j with plan := k.plan }) p.joins[i]? q.joins[i]?
  /-- As many columns are returned. -/
  wildcard : q.wildcard = p.wildcard
  /-- The rows are neither reduced nor limited. -/
  unreduced : q.IsUnreduced

section

variable {compileSub : Query → Except QueryError QueryNode} {scope : Scope}
  {routed : List (Nat × Expr)} {p q : QueryPlan}

/-- What becomes of conjuncts on a joined table.

**Proof sketch.** Induction on the conjuncts. Each of them is compiled at the top level to a
condition of one of the known shapes (`compileConjunct_of`) or refused. -/
lemma compileJoinedAll_spec {table : Nat} {qualifier : String} {t u : TablePlan} {es : List Expr}
    (h : compileJoinedAll compileSub scope table qualifier t es = .ok u) :
    t.TakesConjuncts scope table es u := by
  induction es generalizing t with
  | nil =>
    obtain rfl := pure_eq_ok.mp h
    exact ⟨[], rfl, List.forall_mem_nil _, rfl⟩
  | cons e es ih =>
    obtain ⟨m, hm, h⟩ := bind_eq_ok.mp h
    obtain ⟨parts, hfst, hof, hu⟩ := ih h
    unfold compileJoined at hm
    split at hm
    · cases hm
    · simp only [bind_eq_ok, StateT.run', map_eq_ok] at hm
      obtain ⟨_, ⟨⟨found, last⟩, hrun, rfl⟩, hm⟩ := hm
      cases found with
      | none => cases hm
      | some n =>
        obtain rfl := pure_eq_ok.mp hm
        refine ⟨(e, n) :: parts, by rw [List.map_cons, hfst], fun a ha => ?_, hu⟩
        rcases List.mem_cons.mp ha with rfl | ha
        · exact compileConjunct_of e true hrun
        · exact hof a ha

/-- What becomes of the conjuncts on joined tables, from a number on. -/
lemma compileJoins_spec {table : Nat} {js ks : List JoinSpec}
    (h : compileJoins compileSub scope routed table js = .ok ks) (i : Nat) :
    Option.Rel (fun j k => j.plan.TakesConjuncts scope (table + i) (conjunctsAt routed (table + i))
      k.plan ∧ k = { j with plan := k.plan }) js[i]? ks[i]? := by
  induction js generalizing table ks i with
  | nil =>
    obtain rfl := pure_eq_ok.mp h
    exact .none
  | cons j js ih =>
    simp only [compileJoins, bind_eq_ok, pure_eq_ok] at h
    obtain ⟨plan, hplan, rest, hrest, rfl⟩ := h
    cases i with
    | zero => exact .some ⟨compileJoinedAll_spec hplan, rfl⟩
    | succ i =>
      have hnext := ih hrest i
      rwa [Nat.add_assoc, Nat.add_comm 1 i] at hnext

/-- A plan takes no conjuncts. -/
lemma QueryPlan.IsBare.takesConjuncts_nil (hp : p.IsBare) : p.TakesConjuncts scope [] p := by
  have htable : ∀ (t : TablePlan) (i : Nat), t.TakesConjuncts scope i (conjunctsAt [] i) t :=
    fun t i => ⟨[], rfl, List.forall_mem_nil _, rfl⟩
  refine ⟨.inl ⟨htable _ _, hp.rowFilter, fun e he => ?_⟩, fun i => ?_, rfl, hp.unreduced⟩
  · rw [hp.whereClause] at he
    cases he
  · cases p.joins[i]? with
    | none => exact .none
    | some j => exact .some ⟨htable _ _, rfl⟩

/-- **What becomes of the conjuncts on the main table.**

**Proof sketch.** Without queries no slots are collected (`compileConjuncts_same`), so the
conditions stand by themselves. If all conjuncts were found they are added (`compileConjuncts_of`);
otherwise the whole condition is decided row by row, and its conjuncts are the given ones. -/
lemma compileMain_spec (hp : p.IsBare) {es : List Expr} (hquery : ∀ e ∈ es, e.hasQuery = false)
    {whole : Expr} (hwhole : whole.conjuncts = es)
    (h : compileMain compileSub scope p es whole = .ok q) :
    p.TakesMain scope es q ∧ q.joins = p.joins ∧ q.wildcard = p.wildcard ∧ q.IsUnreduced := by
  have hnone : es.any Expr.hasQuery = false := by
    rw [List.any_eq_false]
    exact fun e he => by simp [hquery e he]
  simp only [compileMain, bind_eq_ok] at h
  obtain ⟨⟨natives, slots⟩, hnatives, h⟩ := h
  rw [mainConditions, hp.unreduced.source] at hnatives
  rw [hnone] at h
  obtain rfl := compileConjuncts_same hquery hnatives
  split at h
  · rename_i hall
    obtain ⟨parts, hfst, hsnd, hof⟩ := compileConjuncts_of hnatives hall
    obtain rfl := pure_eq_ok.mp h
    rw [hsnd]
    refine ⟨.inl ⟨⟨parts, hfst, hof, rfl⟩, hp.rowFilter, fun e he => ?_⟩, rfl, rfl,
      { hp.unreduced with subqueries := rfl }⟩
    obtain rfl := Option.some.inj he
    exact hwhole
  · obtain rfl := pure_eq_ok.mp h
    exact ⟨.inr ⟨rfl, whole, rfl, hwhole⟩, rfl, rfl, { hp.unreduced with }⟩

/-- **A plan with a condition takes its conjuncts.**

**Proof sketch.** The conjuncts are routed first. The main table takes its conjuncts
(`compileMain_spec`) or has none, and the joined tables take theirs one by one
(`compileJoins_spec`), each by its position. -/
theorem compileWhere_takesConjuncts (hp : p.IsBare) {w : Expr}
    (hquery : ∀ e ∈ w.conjuncts, e.hasQuery = false)
    (h : compileWhere compileSub scope p w = .ok q) :
    ∃ routed, routeConjuncts scope w.conjuncts = .ok routed ∧ p.TakesConjuncts scope routed q := by
  obtain ⟨routed, hrouted, h⟩ := bind_eq_ok.mp h
  obtain ⟨m, hmain, ⟨hsame, hwildcard, hunreduced⟩, h⟩ : ∃ m : QueryPlan,
      p.TakesMain scope (conjunctsAt routed 0) m ∧
      (m.joins = p.joins ∧ m.wildcard = p.wildcard ∧ m.IsUnreduced) ∧
      (compileJoins compileSub scope routed 1 m.joins >>= fun joins => .ok { m with joins }) =
        .ok q := by
    dsimp only at h
    split at h
    · rename_i whole hwhole
      obtain ⟨m, hm, h⟩ := bind_eq_ok.mp h
      obtain ⟨hmain, hrest⟩ := compileMain_spec hp
        (fun e he => hquery e (mem_of_routeConjuncts hrouted he))
        ((conjuncts_of_whole hrouted).1 whole hwhole) hm
      exact ⟨m, hmain, hrest, h⟩
    · rename_i hwhole
      have hnone := (conjuncts_of_whole hrouted).2 hwhole
      exact ⟨p, hnone ▸ hp.takesConjuncts_nil.main, ⟨rfl, rfl, hp.unreduced⟩, h⟩
  obtain ⟨joins, hjoins, h⟩ := bind_eq_ok.mp h
  obtain rfl := Except.ok.inj h
  refine ⟨routed, hrouted, hmain, fun i => ?_, hwildcard, { hunreduced with }⟩
  have hspec := compileJoins_spec hjoins i
  rwa [hsame, Nat.add_comm] at hspec

/-! ## The order and the strategies -/

/-- Another strategy makes no difference. -/
lemma TablePlan.TakesConjuncts.withStrategy {table : Nat} {es : List Expr} {t u : TablePlan}
    (h : t.TakesConjuncts scope table es u) (s : Option AccessStrategy) :
    t.TakesConjuncts scope table es { u with strategy := s } := by
  obtain ⟨parts, hfst, hof, hu⟩ := h
  exact ⟨parts, hfst, hof, by rw [hu]⟩

/-- Joined tables that have chosen strategies are the same but for these. -/
lemma chooseJoinStrategies_spec {js ks : List JoinSpec} (h : chooseJoinStrategies js = .ok ks)
    (i : Nat) :
    Option.Rel (fun j k => ∃ s, k = { j with plan := { j.plan with strategy := s } })
      js[i]? ks[i]? := by
  induction js generalizing ks i with
  | nil =>
    obtain rfl := pure_eq_ok.mp h
    exact .none
  | cons j js ih =>
    simp only [chooseJoinStrategies, bind_eq_ok, pure_eq_ok] at h
    obtain ⟨plan, hplan, rest, hrest, rfl⟩ := h
    obtain ⟨s, -, rfl⟩ := TablePlan.chooseStrategy_eq_ok.mp hplan
    cases i with
    | zero => exact .some ⟨some s, rfl⟩
    | succ i => exact ih hrest i

/-- **A plan that takes conjuncts still does** when it gets an order and strategies.

**Proof sketch.** What remains after the conjuncts is an order, limits and strategies. A strategy
changes one field of a table (`QueryPlan.eq_of_chooseStrategy`, `chooseJoinStrategies_spec`), which
the conjuncts of the table do not depend on. -/
lemma QueryPlan.TakesConjuncts.finish {m : QueryPlan} (h : p.TakesConjuncts scope routed m)
    {order : List OrderSpec}
    (hq : finishSelect none none { m with orderBy := order } = .ok q) :
    p.TakesConjuncts scope routed q := by
  unfold finishSelect at hq
  split at hq
  · cases hq
  · obtain ⟨o, ho, hq⟩ := bind_eq_ok.mp hq
    obtain rfl := pure_eq_ok.mp ho
    obtain ⟨l, hl, hq⟩ := bind_eq_ok.mp hq
    obtain rfl := pure_eq_ok.mp hl
    obtain ⟨joins, hjoins, hq⟩ := bind_eq_ok.mp hq
    obtain ⟨s, rfl⟩ := QueryPlan.eq_of_chooseStrategy hq
    refine ⟨?_, fun i => ?_, h.wildcard, { h.unreduced with offset := rfl, limit := rfl }⟩
    · rcases h.main with ⟨htable, hfilter, hclause⟩ | ⟨htable, e, hfilter, he⟩
      · exact .inl ⟨htable.withStrategy s, hfilter, hclause⟩
      · refine .inr ⟨?_, e, hfilter, he⟩
        change { m.toTablePlan with strategy := s } = _
        rw [htable]
        rfl
    · refine rel_comp (h.joins i) (chooseJoinStrategies_spec hjoins i) fun j k l _ hjk hkl => ?_
      obtain ⟨hplan, hk⟩ := hjk
      obtain ⟨s, rfl⟩ := hkl
      exact ⟨hplan.withStrategy s, by rw [hk]⟩

end

/-! ## Selections -/

section

variable {compileSub : Query → Except QueryError QueryNode} {ns : String} {s : Select}
  {orderBy : List OrderItem} {p q : QueryPlan}

/-- **The plan of a selection is that of its items with the conjuncts of its condition**, in an
order and with strategies.

**Proof sketch.** The compilation without groups is taken apart (`compileSelect_of_ungrouped`). Up
to the condition it is the compilation of the items (`Select.exists_of_shown`), the order needs
nothing more of the plan (`eq_of_planOrder`), and the condition is `compileWhere_takesConjuncts`. -/
theorem compileSelect_takesConjuncts (hdistinct : s.distinct = false)
    (hgrouped : s.isGrouped orderBy = false)
    (hq : s.shown ns = .ok q)
    (hquery : ∀ w, s.condition = some w → ∀ e ∈ w.conjuncts, e.hasQuery = false)
    (h : compileSelect ⟨ns, []⟩ compileSub s orderBy none none = .ok p) :
    ∃ routed, routeCondition q.scope s.condition = .ok routed ∧
      q.TakesConjuncts q.scope routed p := by
  have hbare := Select.isBare_shown hq
  obtain ⟨name, rename, joins, hsource, hjoins, hitems⟩ := Select.exists_of_shown hq
  rw [compileSelect_of_ungrouped hgrouped, hsource, hdistinct] at h
  obtain ⟨source, hnamed, h⟩ := bind_eq_ok.mp h
  obtain rfl := Except.ok.inj hnamed
  obtain ⟨⟨joins', scope⟩, hjoins', h⟩ := bind_eq_ok.mp h
  obtain ⟨rfl, rfl⟩ := Prod.mk.inj (Except.ok.inj (hjoins'.symm.trans hjoins))
  obtain ⟨shown, hshown, h⟩ := bind_eq_ok.mp h
  obtain ⟨filtered, hfiltered, h⟩ := bind_eq_ok.mp h
  obtain ⟨⟨order, ordered⟩, horder, h⟩ := bind_eq_ok.mp h
  obtain ⟨reduced, hreduced, hfinish⟩ := bind_eq_ok.mp h
  obtain rfl := Except.ok.inj (hshown.symm.trans hitems)
  obtain rfl := eq_of_planOrder horder
  obtain rfl := Except.ok.inj hreduced
  have htakes : ∃ routed, routeCondition shown.scope s.condition = .ok routed ∧
      shown.TakesConjuncts shown.scope routed ordered := by
    cases hcondition : s.condition with
    | none =>
      rw [hcondition] at hfiltered
      obtain rfl := Except.ok.inj hfiltered
      exact ⟨[], rfl, hbare.takesConjuncts_nil⟩
    | some w =>
      rw [hcondition] at hfiltered
      exact compileWhere_takesConjuncts hbare (hquery w hcondition) hfiltered
  obtain ⟨routed, hrouted, htakes⟩ := htakes
  exact ⟨routed, hrouted, htakes.finish hfinish⟩

end

end RecordQuery
