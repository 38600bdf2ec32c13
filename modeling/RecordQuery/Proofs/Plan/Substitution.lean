import Mathlib.Data.List.Induction
import RecordQuery.Proofs.Compile.Substitution
import RecordQuery.Proofs.Compile.Twin
import RecordQuery.Proofs.Expr.Parameters
import RecordQuery.Proofs.Plan.Binding

set_option autoImplicit false

/-!
# Bound plans and plans with constants

The plan of a selection from one table, bound to parameters, is the bound plan of the selection with
constants for the parameters of its condition. The two may differ in conditions that are decided row
by row, and these are true on the same rows.

## Main definitions

* `QueryPlan.Criteria` — what a plan decides on records and rows by.
* `QueryPlan.SelectedBy` — plans that come about alike from two conditions.
* `QueryPlan.FiltersAlike` — plans that are the same but for conditions decided row by row.

## Main results

* `TablePlan.bind_foldl_addNative` — what the store decides is bound to what it decides with
  constants.
* `QueryPlan.becomes_compileWhere` — a condition becomes the one with constants.
* `QueryPlan.SelectedBy.filtersAlike` — a bound plan and the plan with constants filter alike.
-/

namespace RecordQuery

open Outcome

variable {ls values : List Literal} {params : List Value}

/-! ## Conditions on the key -/

/-- A condition on the key and what it is bound to: that stays as it is, and more conditions can be
put to both. -/
structure KeyBinds (params : List Value) (k k' : Option KeyCondition) : Prop where
  /-- The first one is bound to the second one. -/
  bound : k.mapM (KeyCondition.bind params) = .ok k'
  /-- The second one is bound to itself. -/
  again : k'.mapM (KeyCondition.bind params) = .ok k'
  /-- Conditions can be put to the first one. -/
  conjuncts : ∀ c ∈ k, c.conjuncts ≠ []
  /-- Conditions can be put to the second one. -/
  conjuncts' : ∀ c ∈ k', c.conjuncts ≠ []

namespace KeyBinds

/-- No condition is bound to none. -/
lemma none : KeyBinds params none none := by
  constructor
  · rfl
  · rfl
  · intro c hc
    cases hc
  · intro c hc
    cases hc

/-- One more condition.

**Proof sketch.** If there was no condition on the key then the new one is the only one. Otherwise
it is joined to the old one, and binding a conjunction binds its parts, because none of them is
empty. -/
lemma add {t t' : TablePlan} (h : KeyBinds params t.keyCondition t'.keyCondition)
    {k k' : KeyCondition} (hsimple : k.isSimple = true) (hk : k.bind params = .ok k') :
    KeyBinds params (t.addKeyCondition k).keyCondition (t'.addKeyCondition k').keyCondition := by
  have hagain := KeyCondition.bind_bind hsimple hk
  have hsimple' := KeyCondition.isSimple_bind hsimple hk
  have hself : k.conjuncts ≠ [] := by
    rw [KeyCondition.conjuncts_of_isSimple hsimple]
    exact List.cons_ne_nil k []
  have hself' : k'.conjuncts ≠ [] := by
    rw [KeyCondition.conjuncts_of_isSimple hsimple']
    exact List.cons_ne_nil k' []
  have hboth : ∀ {c d : KeyCondition}, c.bind params = .ok d →
      (some c).mapM (KeyCondition.bind params) = .ok (some d) := by
    intro c d hc
    rw [Option.mapM_some, hc]
    rfl
  unfold TablePlan.addKeyCondition
  rcases mapM_eq_ok h.bound with ⟨hnone, hnone'⟩ | ⟨c, c', hc, hc', hbound⟩
  · rw [hnone, hnone']
    exact ⟨hboth hk, hboth hagain, fun c hc => Option.some.inj hc ▸ hself,
      fun c hc => Option.some.inj hc ▸ hself'⟩
  · have hconjuncts := h.conjuncts c hc
    have hconjuncts' := h.conjuncts' c' hc'
    have hbound' : c'.bind params = .ok c' := by
      have hagain := h.again
      rw [hc', Option.mapM_some] at hagain
      obtain ⟨d, hd, heq⟩ := map_eq_ok.mp hagain
      rw [hd, Option.some.inj heq]
    rw [hc, hc']
    exact ⟨hboth (KeyCondition.bind_and hconjuncts hsimple hbound hk),
      hboth (KeyCondition.bind_and hconjuncts' hsimple' hbound' hagain),
      fun d hd => Option.some.inj hd ▸ KeyCondition.conjuncts_and_ne_nil hconjuncts hself,
      fun d hd => Option.some.inj hd ▸ KeyCondition.conjuncts_and_ne_nil hconjuncts' hself'⟩

end KeyBinds

/-! ## Conditions of a table -/

/-- Whether parameters are left in the condition of a table. -/
def Condition.isBoundIn (c : Option Condition) : Prop := ∀ d ∈ c, d.params = []

/-- A condition on bins that is put to others is bound after them. -/
lemma TablePlan.bind_addCondition {t : TablePlan} {c : Condition} {e : Option Condition}
    (h : (t.addCondition c).condition.mapM (Condition.bind params) = .ok e) :
    ∃ d c', t.condition.mapM (Condition.bind params) = .ok d ∧ c.bind params = .ok c' ∧
      (∀ u : TablePlan, u.condition = d → (u.addCondition c').condition = e) ∧
        (Condition.isBoundIn e ↔ Condition.isBoundIn d ∧ c'.params = []) := by
  unfold addCondition at h
  cases hc : t.condition with
  | none =>
    rw [hc, Option.mapM_some] at h
    obtain ⟨c', hc', rfl⟩ := map_eq_ok.mp h
    refine ⟨none, c', rfl, hc', fun u hu => by simp only [addCondition, hu], ?_⟩
    simp [Condition.isBoundIn]
  | some d =>
    rw [hc, Option.mapM_some] at h
    obtain ⟨e, he, rfl⟩ := map_eq_ok.mp h
    obtain ⟨d', c', hd, hc', rfl, hparams⟩ := Condition.bind_pair (.inl rfl) he
    refine ⟨some d', c', ?_, hc', fun u hu => by simp only [addCondition, hu], ?_⟩
    · rw [Option.mapM_some, hd]
      rfl
    · simp [Condition.isBoundIn, hparams]

/-- **Conjuncts that the store decides are bound to those with constants**, one after the other,
unless a float is left in one of them.

**Proof sketch.** Induction on the conjuncts from the last one: conditions on bins are bound side by
side, and conditions on the key are put together again as they are bound. -/
theorem TablePlan.bind_foldl_addNative {fits : Prop}
    {ps : List (NativeCondition × Option NativeCondition)}
    (hps : ∀ p ∈ ps, Becomes ls values fits (some p.1) p.2) {t : TablePlan}
    (hcondition : t.condition = none) (hkey : t.keyCondition = none) :
    ∃ k, KeyBinds (values.map Literal.value) ((ps.map Prod.fst).foldl addNative t).keyCondition k ∧
      ∀ c, ((ps.map Prod.fst).foldl addNative t).condition.mapM
          (Condition.bind (values.map Literal.value)) = .ok c →
        (Condition.isBoundIn c → fits → ∃ ns : List NativeCondition,
          ps.map Prod.snd = ns.map some ∧ (ns.foldl addNative t).condition = c ∧
            (ns.foldl addNative t).keyCondition = k) ∧
          (¬Condition.isBoundIn c → ls = values → none ∈ ps.map Prod.snd) := by
  induction ps using List.reverseRecOn with
  | nil =>
    simp only [List.map_nil, List.foldl_nil, hcondition, hkey]
    refine ⟨none, .none, fun c hc => ?_⟩
    obtain rfl := Except.ok.inj hc
    refine ⟨fun _ _ => ⟨[], rfl, hcondition, hkey⟩, fun hne => absurd ?_ hne⟩
    intro d hd
    cases hd
  | append_singleton ps p ih =>
    obtain ⟨k, hkeys, hrest⟩ := ih fun q hq => hps q (List.mem_append_left _ hq)
    obtain ⟨n, n'⟩ := p
    have hlast : Becomes ls values fits (some n) n' := hps (n, n') (by simp)
    simp only [List.map_append, List.map_cons, List.map_nil, List.foldl_append, List.foldl_cons,
      List.foldl_nil]
    cases n with
    | bins d =>
      refine ⟨k, hkeys, fun c hc => ?_⟩
      obtain ⟨c₀, d', hc₀, hd, hadd, hbound⟩ := bind_addCondition hc
      obtain ⟨hgood, hbad⟩ := hrest c₀ hc₀
      obtain ⟨hknown, hfloat⟩ := hlast d' hd
      rw [hbound]
      refine ⟨fun ⟨hempty, hempty'⟩ hfits => ?_, fun hne heq => ?_⟩
      · obtain ⟨ns, hns, hc, hk⟩ := hgood hempty hfits
        refine ⟨ns ++ [.bins d'], ?_, ?_, ?_⟩
        · rw [hns, hknown hempty', List.map_append]
          rfl
        · rw [List.foldl_append]
          exact hadd _ hc
        · rw [List.foldl_append]
          exact hk
      · rw [List.mem_append, List.mem_singleton]
        by_cases hempty : Condition.isBoundIn c₀
        · exact .inr (hfloat (fun hempty' => hne ⟨hempty, hempty'⟩) heq).symm
        · exact .inl (hbad hempty heq)
    | key d =>
      obtain ⟨hsimple, d', hd, hbecomes⟩ := hlast
      have hboth : KeyBinds (values.map Literal.value)
          (addKeyCondition ((ps.map Prod.fst).foldl addNative t) d).keyCondition
          (addKeyCondition { t with keyCondition := k } d').keyCondition := hkeys.add hsimple hd
      refine ⟨_, hboth, fun c hc => ?_⟩
      obtain ⟨hgood, hbad⟩ := hrest c hc
      refine ⟨fun hempty hfits => ?_, fun hne heq => List.mem_append_left _ (hbad hne heq)⟩
      obtain ⟨ns, hns, hc, hk⟩ := hgood hempty hfits
      refine ⟨ns ++ [.key d'], ?_, ?_, ?_⟩
      · rw [hns, hbecomes hfits, List.map_append]
        rfl
      · rw [List.foldl_append]
        exact hc
      · rw [List.foldl_append]
        simp only [List.foldl_cons, List.foldl_nil, addNative, addKeyCondition, hk]

/-! ## Plans on one table -/

namespace QueryPlan

/-- What a plan decides on records and rows by. -/
structure Criteria where
  /-- What the store decides about the bins. -/
  condition : Option Condition
  /-- What the store decides about the key. -/
  keyCondition : Option KeyCondition
  /-- What is decided row by row. -/
  rest : Rest

/-- What is decided before there is a condition: nothing. -/
def Criteria.nothing : Criteria := ⟨none, none, ⟨none, none, none, []⟩⟩

/-- What is decided if the store decides the whole condition. -/
def Criteria.native (w : Expr) (c : Option Condition) (k : Option KeyCondition) : Criteria :=
  ⟨c, k, ⟨none, some w, none, []⟩⟩

/-- What is decided if the condition is decided row by row. -/
def Criteria.byRow (w : Expr) : Criteria := ⟨none, none, ⟨some w, none, none, []⟩⟩

variable {a b : Criteria} {p p' q q' : QueryPlan}

/-- A plan of one table with other criteria. -/
def withCriteria (p : QueryPlan) (a : Criteria) : QueryPlan :=
  { p with
    condition := a.condition
    keyCondition := a.keyCondition
    rowFilter := a.rest.rowFilter
    whereClause := a.rest.whereClause
    source := a.rest.source
    subqueries := a.rest.subqueries }

/-- Plans of the table at a position, the first one: they are the same but for given conditions and
their strategies. -/
def SameTable (a b : Criteria) (i : Nat) (t t' : TablePlan) : Prop :=
  i = 0 ∧ t.condition = a.condition ∧ t.keyCondition = a.keyCondition ∧
    t' = { t with
      condition := b.condition, keyCondition := b.keyCondition, strategy := t'.strategy }

/-- What adding columns to a table keeps. -/
lemma SameTable.twinning (a b : Criteria) : Twinning (SameTable a b) where
  ns := by
    rintro i t t' ⟨-, -, -, h⟩
    rw [h]
  columns := by
    rintro i t t' ⟨-, -, -, h⟩
    rw [h]
  withColumns := by
    rintro i t t' ⟨hi, hc, hk, h⟩ cs
    exact ⟨hi, hc, hk, by rw [h]⟩
  withDigest := by
    rintro i t t' ⟨hi, hc, hk, h⟩
    exact ⟨hi, hc, hk, by rw [h]⟩

/-- Two plans of one table that are the same but for given criteria and their strategies. -/
abbrev AlikeBut (a b : Criteria) (p p' : QueryPlan) : Prop :=
  p.Twin (SameTable a b) (fun r r' => r = a.rest ∧ r' = b.rest) p'

/-- A plan of one table with two criteria. -/
lemma alikeBut_withCriteria (hjoins : p.joins = []) (a b : Criteria) :
    AlikeBut a b (p.withCriteria a) (p.withCriteria b) := by
  refine ⟨⟨rfl, rfl, rfl, rfl⟩, fun i => ?_, rfl, rfl, rfl, rfl, rfl, rfl, rfl, rfl, rfl⟩
  change Option.Rel _ p.joins[i]? p.joins[i]?
  rw [hjoins]
  exact .none

namespace AlikeBut

/-- Such plans join nothing. -/
lemma joins_eq_nil (h : AlikeBut a b p p') : p.joins = [] ∧ p'.joins = [] := by
  have hfirst := h.joins 0
  cases hp : p.joins with
  | nil =>
    rw [hp] at hfirst
    cases hp' : p'.joins with
    | nil => exact ⟨rfl, rfl⟩
    | cons j js =>
      rw [hp'] at hfirst
      cases hfirst
  | cons j js =>
    rw [hp] at hfirst
    cases hp' : p'.joins with
    | nil =>
      rw [hp'] at hfirst
      cases hfirst
    | cons j' js' =>
      rw [hp'] at hfirst
      cases hfirst with
      | some htwin => cases htwin.plan.1

/-- **The second plan is the first one with the second criteria**, up to its strategy.

**Proof sketch.** Plans that are alike have the same fields apart from the criteria, the strategy
and the rest, and the rest of the second one is that of its criteria. Both are taken apart into
their fields and put together again. -/
lemma eq_withCriteria (h : AlikeBut a b p p') :
    p' = ({ p with strategy := p'.strategy } : QueryPlan).withCriteria b := by
  obtain ⟨-, -, -, htable⟩ := h.table
  have hrest : p'.rest = b.rest := h.rest.2
  obtain ⟨hjoins, hjoins'⟩ := h.joins_eq_nil
  obtain ⟨t, wildcard, rowFilter, whereClause, having, reduction, distinct, joins, orderBy, offset,
    limit, source, subqueries⟩ := p
  obtain ⟨t', wildcard', rowFilter', whereClause', having', reduction', distinct', joins', orderBy',
    offset', limit', source', subqueries'⟩ := p'
  have hw := h.wildcard
  have hh := h.having
  have hr := h.reduction
  have hd := h.distinct
  have ho := h.orderBy
  have hoff := h.offset
  have hl := h.limit
  simp only at hjoins hjoins' hw hh hr hd ho hoff hl htable
  subst hjoins hjoins' hw hh hr hd ho hoff hl
  rw [withCriteria, ← hrest]
  simp only [QueryPlan.rest]
  rw [htable]

end AlikeBut

end QueryPlan

/-! ## The condition -/

/-- Conjuncts that the store decides, with what they become. -/
lemma exists_pairs {R : Option NativeCondition → Option NativeCondition → Prop}
    {ns ns' : List (Option NativeCondition)} (h : List.Forall₂ R ns ns')
    (hns : ns.all Option.isSome = true) :
    ∃ ps : List (NativeCondition × Option NativeCondition), ps.map Prod.fst = ns.filterMap id ∧
      ps.map Prod.snd = ns' ∧ ∀ p ∈ ps, R (some p.1) p.2 := by
  induction h with
  | nil => exact ⟨[], rfl, rfl, fun p hp => absurd hp List.not_mem_nil⟩
  | @cons n n' ns ns' hn hrest ih =>
    rw [List.all_cons, Bool.and_eq_true] at hns
    obtain ⟨m, rfl⟩ := Option.isSome_iff_exists.mp hns.1
    obtain ⟨ps, hfst, hsnd, hps⟩ := ih hns.2
    refine ⟨(m, n') :: ps, by rw [List.map_cons, hfst]; rfl, by rw [List.map_cons, hsnd], ?_⟩
    rintro p hp
    rcases List.mem_cons.mp hp with rfl | hp
    · exact hn
    · exact hps p hp

/-- A conjunct that the store does not decide is not decided by it with constants. -/
lemma all_isSome_of_becomes {fits : Prop} {ns ns' : List (Option NativeCondition)}
    (h : List.Forall₂ (Becomes ls values fits) ns ns') (hns : ns.all Option.isSome = false) :
    ns'.all Option.isSome = false := by
  induction h with
  | nil => cases hns
  | @cons n n' ns ns' hn hrest ih =>
    rw [List.all_cons, Bool.and_eq_false_iff] at hns ⊢
    rcases hns with hns | hns
    · cases n with
      | none =>
        obtain rfl : n' = none := hn
        exact .inl rfl
      | some _ => cases hns
    · exact .inr (ih hns)

namespace QueryPlan

variable {compileSub compileSub' : Query → Except QueryError QueryNode} {t : TableRef}
  {a b : Criteria} {p p' q q' : QueryPlan} {w : Expr}

/-- What becomes of a condition without queries on one table.

**Proof sketch.** There are no joins, no source and no sub-queries, so every conjunct is compiled
for the one table. If all of them are native then the table takes them; otherwise the condition is
left to the rows and the table stays as it is. -/
lemma compileWhere_single (hplain : AlikeBut .nothing .nothing p p)
    (hquery : ∀ e ∈ w.conjuncts, e.hasQuery = false)
    (h : compileWhere compileSub [t] p w = .ok q) :
    ∃ ns, (compileConjuncts compileSub [t] 0 w.conjuncts).run [] = .ok (ns, []) ∧
      q = p.withCriteria (if ns.all Option.isSome then
        .native w ((ns.filterMap id).foldl TablePlan.addNative p.toTablePlan).condition
          ((ns.filterMap id).foldl TablePlan.addNative p.toTablePlan).keyCondition
        else .byRow w) := by
  have hsource : p.source = none := congrArg Rest.source hplain.rest.1
  have hjoins := hplain.joins_eq_nil.1
  have hnone : (w.conjuncts.any Expr.hasQuery) = false := by
    rw [List.any_eq_false]
    exact fun e he => by simp [hquery e he]
  obtain ⟨m, joins', hm, hjoined, rfl⟩ := compileWhere_singleton h
  simp only [compileMain, mainConditions, hsource, hnone, Option.isSome_none, Bool.false_eq_true,
    if_false] at hm
  obtain ⟨⟨ns, slots⟩, hns, hm⟩ := bind_eq_ok.mp hm
  obtain rfl := compileConjuncts_same hquery hns
  refine ⟨ns, hns, ?_⟩
  have hrest : p.rest = ⟨none, none, none, []⟩ := hplain.rest.1
  obtain ⟨-, hcondition, hkey, -⟩ := hplain.table
  obtain ⟨table, wildcard, rowFilter, whereClause, having, reduction, distinct, joins, orderBy,
    offset, limit, source, subqueries⟩ := p
  simp only [QueryPlan.rest, Rest.mk.injEq] at hrest hjoins
  obtain ⟨rfl, rfl, rfl, rfl⟩ := hrest
  subst hjoins
  split at hm
  · rename_i hdecided
    obtain rfl := Except.ok.inj hm
    obtain rfl := Except.ok.inj hjoined
    rw [if_pos hdecided]
    simp only [withCriteria, Criteria.native]
    rw [TablePlan.foldl_addNative_eq]
  · rename_i hundecided
    obtain rfl := Except.ok.inj hm
    obtain rfl := Except.ok.inj hjoined
    rw [if_neg hundecided]
    cases table
    obtain rfl := hcondition
    obtain rfl := hkey
    rfl

/-- What the criteria of a condition become with constants. -/
inductive Criteria.Becomes (ls values : List Literal) (w : Expr) (fits : Prop) :
    Criteria → Criteria → Prop
  /-- If the store decides the condition, what is bound stands in the plan with constants, which is
  decided row by row if a float is left. -/
  | native {c : Option Condition} {k k' : Option KeyCondition} {b : Criteria} :
    KeyBinds (values.map Literal.value) k k' →
    (∀ c', c.mapM (Condition.bind (values.map Literal.value)) = .ok c' →
      (Condition.isBoundIn c' → fits → b = .native (w.substitute ls) c' k') ∧
        (¬Condition.isBoundIn c' → ls = values → b = .byRow (w.substitute ls))) →
    Becomes ls values w fits (.native w c k) b
  /-- If the condition is decided row by row, so it is with constants. -/
  | byRow : Becomes ls values w fits (.byRow w) (.byRow (w.substitute ls))

/-- **A condition on one table becomes the one with constants.**

**Proof sketch.** The conjuncts of the condition with constants are those of the other one with
constants put in, and none of them has a query. They become one another one by one. If some conjunct
is not native then its image is not either, and both conditions are left to the rows. If all are
native then the bound conditions are those of the constants, unless a float hides in them, and then
the image of that conjunct is not native. -/
theorem becomes_compileWhere (hls : StandFor ls values)
    (hplain : AlikeBut .nothing .nothing p p) (hshown : w.showsParams = true)
    (hvalues : w.maxParam ≤ values.length) (h : compileWhere compileSub [t] p w = .ok q)
    (h' : compileWhere compileSub' [t] p (w.substitute ls) = .ok q') :
    ∃ a b, q = p.withCriteria a ∧ q' = p.withCriteria b ∧
      a.Becomes ls values w (∀ index ∈ w.keyParams, KeyFits ls values index) b := by
  have hparts : ∀ e ∈ w.conjuncts, e.parts ⊆ w.parts := fun e he => w.parts_conjuncts he
  have hhidden : ∀ e ∈ w.conjuncts, ∀ s ∈ e.parts, s.hidesParam = false :=
    fun e he s hs => Expr.showsParams_iff.mp hshown s (hparts e he hs)
  have hquery : ∀ e ∈ w.conjuncts, e.hasQuery = false := fun e he =>
    Expr.hasQuery_of_showsParams (Expr.showsParams_iff.mpr (hhidden e he))
  have hvalue : ∀ e ∈ w.conjuncts, ∀ index, .param index ∈ e.parts → HasValue values index := by
    intro e he index hindex
    have hle := w.le_maxParam (hparts e he hindex)
    have hpos : index ≠ 0 := by simpa [Expr.hidesParam] using hhidden e he _ hindex
    obtain ⟨i, rfl⟩ := Nat.exists_eq_succ_of_ne_zero hpos
    exact ⟨i, values[i], rfl, List.getElem?_eq_getElem (by omega)⟩
  have hquery' : ∀ e ∈ (w.substitute ls).conjuncts, e.hasQuery = false := by
    intro e he
    rw [Expr.conjuncts_substitute, List.mem_map] at he
    obtain ⟨d, hd, rfl⟩ := he
    rw [Expr.hasQuery_substitute]
    exact hquery d hd
  obtain ⟨ns, hns, rfl⟩ := compileWhere_single hplain hquery h
  obtain ⟨ns', hns', rfl⟩ := compileWhere_single hplain hquery' h'
  rw [Expr.conjuncts_substitute] at hns'
  have hboth : List.Forall₂
      (RecordQuery.Becomes ls values (∀ index ∈ w.keyParams, KeyFits ls values index)) ns ns' :=
    becomes_compileConjuncts hls (fun e he => ⟨hhidden e he, hvalue e he⟩)
      (fun hfits e he index hindex => hfits index (List.mem_flatMap.mpr ⟨e, he, hindex⟩)) hns hns'
  refine ⟨_, _, rfl, rfl, ?_⟩
  cases hall : ns.all Option.isSome with
  | false =>
    rw [all_isSome_of_becomes hboth hall]
    exact .byRow
  | true =>
    obtain ⟨ps, hfst, rfl, hps⟩ := exists_pairs hboth hall
    obtain ⟨-, hcondition, hkey, -⟩ := hplain.table
    obtain ⟨k, hkeys, hrest⟩ := TablePlan.bind_foldl_addNative hps hcondition hkey
    rw [hfst] at hkeys hrest
    refine .native hkeys fun c hc => ?_
    obtain ⟨hgood, hbad⟩ := hrest c hc
    refine ⟨fun hbound hfits => ?_, fun hfloat heq => ?_⟩
    · obtain ⟨ms, hms, rfl, rfl⟩ := hgood hbound hfits
      rw [hms, if_pos (by simp)]
      have hid : (ms.map some).filterMap id = ms := by simp [List.filterMap_map]
      rw [hid]
    · refine if_neg fun hsome => ?_
      cases List.all_eq_true.mp hsome none (hbad hfloat heq)

/-! ## Selections -/

/-- Choosing strategies keeps plans alike. -/
lemma AlikeBut.chooseStrategy (h : AlikeBut a b p p') (hq : p.chooseStrategy = .ok q)
    (hq' : p'.chooseStrategy = .ok q') : AlikeBut a b q q' := by
  obtain ⟨s, rfl⟩ := eq_of_chooseStrategy hq
  obtain ⟨s', rfl⟩ := eq_of_chooseStrategy hq'
  refine h.mapTable fun u u' hu => ⟨hu.1, hu.2.1, hu.2.2.1, ?_⟩
  rw [hu.2.2.2]

/-- Limits and strategies keep plans alike.

**Proof sketch.** Both plans have no joins and the same limits, so the same steps succeed and alike
plans choose their strategies. -/
lemma AlikeBut.finishSelect {limit offset : Option Expr} (h : AlikeBut a b p p')
    (hq : RecordQuery.finishSelect limit offset p = .ok q)
    (hq' : RecordQuery.finishSelect limit offset p' = .ok q') : AlikeBut a b q q' := by
  obtain ⟨hjoins, hjoins'⟩ := h.joins_eq_nil
  unfold RecordQuery.finishSelect at hq hq'
  split at hq
  · cases hq
  split at hq'
  · cases hq'
  rw [hjoins] at hq
  rw [hjoins'] at hq'
  obtain ⟨o, ho, hq⟩ := bind_eq_ok.mp hq
  obtain ⟨l, hl, hq⟩ := bind_eq_ok.mp hq
  obtain ⟨o', ho', hq'⟩ := bind_eq_ok.mp hq'
  obtain ⟨l', hl', hq'⟩ := bind_eq_ok.mp hq'
  obtain rfl : o = o' := Except.ok.inj (ho.symm.trans ho')
  obtain rfl : l = l' := Except.ok.inj (hl.symm.trans hl')
  have hwith : AlikeBut a b { p with joins := [], offset := o, limit := l }
      { p' with joins := [], offset := o, limit := l } :=
    { h with joins := fun i => .none, offset := rfl, limit := rfl }
  exact hwith.chooseStrategy hq hq'

/-- Two plans that come about alike from one table and two conditions. -/
def SelectedBy (w w' : Expr) (q q' : QueryPlan) : Prop :=
  ∃ (compileSub compileSub' : Query → Except QueryError QueryNode) (t : TableRef)
    (p m m' : QueryPlan), AlikeBut .nothing .nothing p p ∧
      compileWhere compileSub [t] p w = .ok m ∧ compileWhere compileSub' [t] p w' = .ok m' ∧
        ∀ a b, AlikeBut a b m m' → AlikeBut a b q q'

/-- **A selection from one table with two conditions.** What comes after the condition does not look
at it.

**Proof sketch.** Up to the condition both selections are compiled by the same steps to the same
plan. Behind it every step, from the condition on groups to the reduction, keeps plans alike,
whatever the condition has become. -/
theorem selectedBy_compileSelect {env : CompileEnv} {s : Select} {name : TableName}
    {rename : Option String} {w w' : Expr} {orderBy : List OrderItem} {limit offset : Option Expr}
    (hsource : s.source = .named name rename) (hjoins : s.joins = []) (hw : s.condition = some w)
    (h : compileSelect env compileSub s orderBy limit offset = .ok q)
    (h' : compileSelect env compileSub' { s with condition := some w' } orderBy limit offset =
      .ok q') : SelectedBy w w' q q' := by
  have hT := SameTable.twinning
  unfold compileSelect at h h'
  simp only [hsource, hjoins, hw] at h h'
  obtain ⟨p₀, hp₀, h⟩ := bind_eq_ok.mp h
  obtain ⟨p₀', hp₀', h'⟩ := bind_eq_ok.mp h'
  obtain rfl := Except.ok.inj hp₀
  obtain rfl := Except.ok.inj hp₀'
  obtain ⟨⟨joins, scope⟩, hscope, h⟩ := bind_eq_ok.mp h
  obtain ⟨⟨joins', scope'⟩, hscope', h'⟩ := bind_eq_ok.mp h'
  obtain ⟨rfl, rfl⟩ := Prod.mk.inj (Except.ok.inj hscope)
  obtain ⟨rfl, rfl⟩ := Prod.mk.inj (Except.ok.inj hscope')
  simp only [List.isEmpty_nil, Bool.not_true, Bool.and_false, Bool.false_eq_true, if_false] at h h'
  obtain ⟨groups, hgroups, h⟩ := bind_eq_ok.mp h
  obtain ⟨groups', hgroups', h'⟩ := bind_eq_ok.mp h'
  obtain rfl : groups = groups' := Except.ok.inj (hgroups.symm.trans hgroups')
  split at h
  · cases h
  split at h'
  · cases h'
  obtain ⟨carried, hcarried, h⟩ := bind_eq_ok.mp h
  obtain ⟨carried', hcarried', h'⟩ := bind_eq_ok.mp h'
  obtain rfl : carried = carried' := Except.ok.inj (hcarried.symm.trans hcarried')
  obtain ⟨m, hm, h⟩ := bind_eq_ok.mp h
  obtain ⟨m', hm', h'⟩ := bind_eq_ok.mp h'
  obtain ⟨grouped, hgrouped, h⟩ := bind_eq_ok.mp h
  obtain ⟨grouped', hgrouped', h'⟩ := bind_eq_ok.mp h'
  obtain ⟨⟨order, ordered⟩, hordered, h⟩ := bind_eq_ok.mp h
  obtain ⟨⟨order', ordered'⟩, hordered', h'⟩ := bind_eq_ok.mp h'
  obtain ⟨reduced, hreduced, h⟩ := bind_eq_ok.mp h
  obtain ⟨reduced', hreduced', h'⟩ := bind_eq_ok.mp h'
  refine ⟨_, _, _, carried, m, m', ?_, hm, hm', fun a b hboth => ?_⟩
  · -- before the condition there is nothing to decide
    refine (twin_addItems (hT .nothing .nothing) ?_ s.items).self hcarried
    exact ⟨⟨rfl, rfl, rfl, rfl⟩, fun i => .none, rfl, rfl, rfl, rfl, rfl, rfl, rfl, rfl, rfl⟩
  -- what comes afterwards keeps plans alike
  obtain ⟨_, hsecond, hgroupedBoth⟩ := twin_withOption
    (fun p p' hp e => twin_addHaving (hT a b) hp e) hboth s.having grouped hgrouped
  obtain rfl := Except.ok.inj (hsecond.symm.trans hgrouped')
  obtain ⟨_, hsecond, horder, horderedBoth⟩ :=
    twin_planOrder (hT a b) hgroupedBoth orderBy _ hordered
  obtain rfl := Except.ok.inj (hsecond.symm.trans hordered')
  obtain rfl : order = order' := horder
  have hwith : AlikeBut a b { ordered with orderBy := order } { ordered' with orderBy := order } :=
    { horderedBoth with orderBy := rfl }
  obtain ⟨_, hsecond, hreducedBoth⟩ := twin_addReduction (hT a b) hwith s.distinct reduced hreduced
  obtain rfl := Except.ok.inj (hsecond.symm.trans hreduced')
  exact AlikeBut.finishSelect hreducedBoth h h'

/-- The records that an update or a deletion selects with two conditions. -/
lemma selectedBy_compileSelection {env : CompileEnv} {table : TableName} {w w' : Expr}
    (h : compileSelection env table (some w) = .ok q)
    (h' : compileSelection env table (some w') = .ok q') : SelectedBy w w' q q' := by
  obtain ⟨m, hm, hq⟩ := bind_eq_ok.mp h
  obtain ⟨m', hm', hq'⟩ := bind_eq_ok.mp h'
  refine ⟨_, _, _, _, m, m', ?_, hm, hm', fun a b hboth => hboth.chooseStrategy hq hq'⟩
  exact ⟨⟨rfl, rfl, rfl, rfl⟩, fun i => .none, rfl, rfl, rfl, rfl, rfl, rfl, rfl, rfl, rfl⟩

/-! ## Bound plans -/

/-- Two bound plans that are the same but for conditions that are decided row by row, and these are
true on the same rows. -/
structure FiltersAlike (params : List Value) (p p' : QueryPlan) : Prop where
  /-- All else is the same. -/
  same : p' = { p with rowFilter := p'.rowFilter, whereClause := p'.whereClause }
  /-- The conditions are true on the same rows. -/
  rowFilter : Option.Rel (fun e e' => ∀ row, e'.holdsOn params row = e.holdsOn params row)
    p.rowFilter p'.rowFilter
  /-- The rows come from the store. -/
  source : p.source = none
  /-- There are no sub-queries. -/
  subqueries : p.subqueries = []

/-- Plans with other criteria and the same conditions choose the same strategy. -/
lemma FiltersAlike.of_chooseStrategy {strategy : Option AccessStrategy} {c : Option Condition}
    {k : Option KeyCondition} {f : Option Expr} {offset limit : Option RowBound}
    (hq : ({ p with
      condition := c, keyCondition := k, rowFilter := f, offset, limit } :
        QueryPlan).chooseStrategy = .ok q)
    (hq' : ({ ({ p with strategy } : QueryPlan).withCriteria b with
      condition := c, keyCondition := k, offset, limit } : QueryPlan).chooseStrategy = .ok q')
    (hsource : p.source = none) (hslots : p.subqueries = []) (hsource' : b.rest.source = none)
    (hslots' : b.rest.subqueries = [])
    (hfilter : Option.Rel (fun e e' => ∀ row, e'.holdsOn params row = e.holdsOn params row)
      f b.rest.rowFilter) : FiltersAlike params q q' := by
  rw [withCriteria, hsource', hslots', ← hsource, ← hslots] at hq'
  obtain ⟨s, hs, rfl⟩ := exists_of_chooseStrategy (by simp [hsource]) hq
  obtain ⟨s', hs', rfl⟩ := exists_of_chooseStrategy (by simp [hsource]) hq'
  obtain rfl : s' = s := Except.ok.inj (hs'.symm.trans hs)
  exact ⟨rfl, hfilter, hsource, hslots⟩

/-- **What binding the own parameters** of a plan of one table does. If the store cannot be given
all of the condition, it is decided row by row, provided that there are rows.

**Proof sketch.** The steps of the binding are taken apart. The condition has no float parameter if
and only if it is bound altogether. If it has one then the binding turns to a row filter, which is
refused for a reduction in the store. -/
lemma exists_of_bindOwn (hjoins : p.joins = []) (h : p.bindOwn params = .ok q) :
    ∃ c k offset limit, p.condition.mapM (Condition.bind params) = .ok c ∧
      p.keyCondition.mapM (KeyCondition.bind params) = .ok k ∧
      bindRowBound params p.offset = .ok offset ∧ bindRowBound params p.limit = .ok limit ∧
        (Condition.isBoundIn c ∧ ({ p with
            condition := c, keyCondition := k, offset, limit } : QueryPlan).chooseStrategy = .ok q ∨
          ¬Condition.isBoundIn c ∧ (p.reduction.isSome && p.source.isNone) = false ∧
            ∃ e, p.whereClause = some e ∧ ({ p with
              condition := none, keyCondition := none, rowFilter := some e, offset,
              limit } : QueryPlan).chooseStrategy = .ok q) := by
  obtain ⟨table, wildcard, rowFilter, whereClause, having, reduction, distinct, joins, orderBy,
    offset, limit, source, subqueries⟩ := p
  simp only at hjoins
  subst hjoins
  unfold bindOwn at h
  obtain ⟨joins, hbound, h⟩ := bind_eq_ok.mp h
  obtain rfl := Except.ok.inj hbound
  obtain ⟨u, hu, h⟩ := bind_eq_ok.mp h
  obtain ⟨o, ho, h⟩ := bind_eq_ok.mp h
  obtain ⟨l, hl, h⟩ := bind_eq_ok.mp h
  unfold TablePlan.bindConditions at hu
  obtain ⟨c, hc, hu⟩ := bind_eq_ok.mp hu
  obtain ⟨k, hk, hu⟩ := bind_eq_ok.mp hu
  obtain rfl := Except.ok.inj hu
  refine ⟨c, k, o, l, hc, hk, ho, hl, ?_⟩
  have hfloat : ∀ t : TablePlan, t.condition = c →
      (t.floatParam? = none ↔ Condition.isBoundIn c) := by
    rintro t rfl
    unfold TablePlan.floatParam? Condition.isBoundIn
    cases t.condition <;> simp
  split at h
  · rename_i index hindex
    obtain ⟨m, hm, h⟩ := bind_eq_ok.mp h
    refine .inr ⟨fun hbound => ?_, ?_⟩
    · rw [(hfloat _ rfl).mpr hbound] at hindex
      cases hindex
    · unfold filterByRow at hm
      split at hm
      · cases hm
      · rename_i e he
        split at hm
        · cases hm
        · rename_i hrows
          obtain rfl := Except.ok.inj hm
          exact ⟨Bool.eq_false_iff.mpr hrows, e, he, h⟩
  · rename_i hnone
    exact .inl ⟨(hfloat _ rfl).mp hnone, h⟩

/-- A plan of the store without sub-queries has no other parameters than its own. -/
lemma bind_eq_bindOwn (hsource : p.source = none) (hslots : p.subqueries = []) :
    p.bind params = p.bindOwn params := by
  rw [bind_eq, hsource, hslots]
  change bindOwn params { p with source := none, subqueries := [] } = _
  cases p
  simp only at hsource hslots
  rw [hsource, hslots]

/-- What binding a plan of one table without queries does. -/
lemma exists_of_bind (hsource : p.source = none) (hslots : p.subqueries = [])
    (hjoins : p.joins = []) (h : p.bind params = .ok q) :
    ∃ c k offset limit, p.condition.mapM (Condition.bind params) = .ok c ∧
      p.keyCondition.mapM (KeyCondition.bind params) = .ok k ∧
      bindRowBound params p.offset = .ok offset ∧ bindRowBound params p.limit = .ok limit ∧
        (Condition.isBoundIn c ∧ ({ p with
            condition := c, keyCondition := k, offset, limit } : QueryPlan).chooseStrategy = .ok q ∨
          ¬Condition.isBoundIn c ∧ ∃ e, p.whereClause = some e ∧ ({ p with
            condition := none, keyCondition := none, rowFilter := some e, offset,
            limit } : QueryPlan).chooseStrategy = .ok q) := by
  rw [bind_eq_bindOwn hsource hslots] at h
  obtain ⟨c, k, offset, limit, hc, hk, hoffset, hlimit, hcases⟩ := exists_of_bindOwn hjoins h
  exact ⟨c, k, offset, limit, hc, hk, hoffset, hlimit,
    hcases.imp_right fun ⟨hfloat, _, hclause⟩ => ⟨hfloat, hclause⟩⟩

/-- A condition without parameters is bound to itself. -/
lemma mapM_bind_of_isBoundIn {c : Option Condition} (h : Condition.isBoundIn c) :
    c.mapM (Condition.bind params) = .ok c := by
  cases c with
  | none => rfl
  | some c =>
    rw [Option.mapM_some, Condition.bind_of_params c (h c rfl)]
    rfl

/-- **A bound plan and the plan with constants** differ in a condition that is decided row by row
only, and these are true on the same rows.

**Proof sketch.** If the store decides the whole condition and binding leaves no float, both plans
hold the bound conditions, which are bound to themselves. If binding leaves a float or the store
does not decide all of the condition, both decide it row by row. -/
theorem SelectedBy.filtersAlike (hselected : SelectedBy w (w.substitute ls) p p')
    (hls : StandFor ls values) (hshown : w.showsParams = true)
    (hvalues : w.maxParam ≤ values.length)
    (hq : p.bind (values.map Literal.value) = .ok q)
    (hq' : p'.bind (values.map Literal.value) = .ok q')
    (hfits : q.rowFilter = none → ∀ index ∈ w.keyParams, KeyFits ls values index)
    (hrow : q.rowFilter = none ∨ ls = values) :
    FiltersAlike (values.map Literal.value) q q' := by
  obtain ⟨compileSub, compileSub', t, start, m, m', hplain, hm, hm', hkept⟩ := hselected
  obtain ⟨a, b, rfl, rfl, hbecomes⟩ := becomes_compileWhere hls hplain hshown hvalues hm hm'
  have hboth := hkept a b (alikeBut_withCriteria hplain.joins_eq_nil.1 a b)
  obtain ⟨hjoins, hjoins'⟩ := hboth.joins_eq_nil
  obtain ⟨-, hcondition, hkey, -⟩ := hboth.table
  have hrest : p.rest = a.rest := hboth.rest.1
  have hright := hboth.eq_withCriteria
  generalize p'.strategy = strategy at hright
  subst hright
  have hwhole : ls = values → ∀ row, (w.substitute ls).holdsOn (values.map Literal.value) row =
      w.holdsOn (values.map Literal.value) row := by
    rintro rfl
    exact Expr.holdsOn_substitute hshown
  have hempty : Condition.isBoundIn none := fun d hd => by cases hd
  have hsource : p.source = none := by
    cases hbecomes <;> exact congrArg Rest.source hrest
  have hslots : p.subqueries = [] := by
    cases hbecomes <;> exact congrArg Rest.subqueries hrest
  obtain ⟨c, k, o, l, hc, hk, ho, hl, hchosen⟩ := exists_of_bind hsource hslots hjoins hq
  rw [hcondition] at hc
  rw [hkey] at hk
  cases hbecomes with
  | byRow =>
    obtain ⟨c', k', o', l', hc', hk', ho', hl', hchosen'⟩ := exists_of_bind rfl rfl hjoins' hq'
    obtain rfl := Except.ok.inj hc
    obtain rfl := Except.ok.inj hk
    obtain rfl := Except.ok.inj hc'
    obtain rfl := Except.ok.inj hk'
    obtain rfl := Except.ok.inj (ho.symm.trans ho')
    obtain rfl := Except.ok.inj (hl.symm.trans hl')
    obtain ⟨-, hchosen⟩ := hchosen.resolve_right fun hne => hne.1 hempty
    obtain ⟨-, hchosen'⟩ := hchosen'.resolve_right fun hne => hne.1 hempty
    have hfilter : p.rowFilter = some w := congrArg Rest.rowFilter hrest
    have heq : ls = values := hrow.resolve_left fun hnone => by
      obtain ⟨s, rfl⟩ := eq_of_chooseStrategy hchosen
      cases hfilter.symm.trans hnone
    refine FiltersAlike.of_chooseStrategy hchosen hchosen' hsource hslots rfl rfl ?_
    rw [hfilter]
    exact .some (hwhole heq)
  | native hkeys hbinds =>
    obtain rfl := Except.ok.inj (hk.symm.trans hkeys.bound)
    obtain ⟨hgood, hbad⟩ := hbinds c hc
    rcases hchosen with ⟨hbound, hchosen⟩ | ⟨hfloat, e, he, hchosen⟩
    · have hfilter : p.rowFilter = none := congrArg Rest.rowFilter hrest
      have hnone : q.rowFilter = none := by
        obtain ⟨s, rfl⟩ := eq_of_chooseStrategy hchosen
        exact hfilter
      obtain rfl := hgood hbound (hfits hnone)
      obtain ⟨c', k', o', l', hc', hk', ho', hl', hchosen'⟩ := exists_of_bind rfl rfl hjoins' hq'
      obtain rfl := Except.ok.inj (hc'.symm.trans (mapM_bind_of_isBoundIn hbound))
      obtain rfl := Except.ok.inj (hk'.symm.trans hkeys.again)
      obtain rfl := Except.ok.inj (ho.symm.trans ho')
      obtain rfl := Except.ok.inj (hl.symm.trans hl')
      obtain ⟨-, hchosen'⟩ := hchosen'.resolve_right fun hne => hne.1 hbound
      refine FiltersAlike.of_chooseStrategy hchosen hchosen' hsource hslots rfl rfl ?_
      rw [hfilter]
      exact .none
    · obtain rfl : w = e := Option.some.inj ((congrArg Rest.whereClause hrest).symm.trans he)
      have heq : ls = values := hrow.resolve_left fun hnone => by
        obtain ⟨s, rfl⟩ := eq_of_chooseStrategy hchosen
        cases hnone
      obtain rfl := hbad hfloat heq
      obtain ⟨c', k', o', l', hc', hk', ho', hl', hchosen'⟩ := exists_of_bind rfl rfl hjoins' hq'
      obtain rfl := Except.ok.inj hc'
      obtain rfl := Except.ok.inj hk'
      obtain rfl := Except.ok.inj (ho.symm.trans ho')
      obtain rfl := Except.ok.inj (hl.symm.trans hl')
      obtain ⟨-, hchosen'⟩ := hchosen'.resolve_right fun hne => hne.1 hempty
      exact FiltersAlike.of_chooseStrategy hchosen hchosen' hsource hslots rfl rfl
        (.some (hwhole heq))

end QueryPlan

end RecordQuery
