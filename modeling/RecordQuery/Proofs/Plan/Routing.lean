import RecordQuery.Proofs.Compile.Bound
import RecordQuery.Proofs.Compile.Routing

set_option autoImplicit false

/-!
# Binding conjuncts of several tables

A plan that has taken conjuncts still stands for them when its parameters are bound: the conditions
on a table mean what the conjuncts on that table mean. A parameter that the store cannot compare
with moves the conjuncts on the main table to the rows.

## Main definitions

* `TablePlan.StandsFor`, `QueryPlan.StandsFor` — bound plans that stand for conjuncts.

## Main results

* `QueryPlan.IsUnreduced.exists_of_bind` — what binding a plan of tables does.
* `QueryPlan.TakesConjuncts.bind` — a bound plan stands for the conjuncts that it has taken.
-/

namespace RecordQuery

open Outcome

/-- The bound plan of a table stands for conjuncts: its conditions are those that became of them. -/
structure TablePlan.StandsFor (scope : Scope) (params : List Value) (table : Nat) (es : List Expr)
    (t u : TablePlan) : Prop where
  /-- The plan is the given one with conditions. -/
  same : u = { t with
    condition := u.condition, keyCondition := u.keyCondition, strategy := u.strategy }
  /-- The conditions became of the conjuncts. Parameters in them could be bound. -/
  parts : ∃ parts : List (Expr × NativeCondition), parts.map Prod.fst = es ∧
    (∀ a ∈ parts, NativeCondition.Of scope table a.1 a.2 ∧
      ∀ c, a.2 = .bins c → ∃ d, c.bind params = .ok d) ∧
    u.Means params (parts.map Prod.snd)

/-- A bound plan stands for conjuncts, those on the main table and those on each joined one. -/
structure QueryPlan.StandsFor (scope : Scope) (params : List Value) (routed : List (Nat × Expr))
    (p q : QueryPlan) : Prop where
  /-- The conjuncts on the main table are decided by the store, or row by row together. -/
  main : (p.toTablePlan.StandsFor scope params 0 (conjunctsAt routed 0) q.toTablePlan ∧
      q.rowFilter = none) ∨
    (q.toTablePlan = { p.toTablePlan with strategy := q.strategy } ∧
      ∃ e, q.rowFilter = some e ∧ e.conjuncts = conjunctsAt routed 0)
  /-- The conjuncts on joined tables. -/
  joins : ∀ i : Nat, Option.Rel (fun j k => j.plan.StandsFor scope params (i + 1)
      (conjunctsAt routed (i + 1)) k.plan ∧ k = { j with plan := k.plan }) p.joins[i]? q.joins[i]?
  /-- As many columns are returned. -/
  wildcard : q.wildcard = p.wildcard
  /-- The rows are neither reduced nor limited. -/
  unreduced : q.IsUnreduced

section

variable {scope : Scope} {params : List Value} {table : Nat} {es : List Expr} {t u v : TablePlan}

/-- Another strategy makes no difference. -/
lemma TablePlan.StandsFor.withStrategy (h : t.StandsFor scope params table es u)
    (s : Option AccessStrategy) : t.StandsFor scope params table es { u with strategy := s } := by
  obtain ⟨parts, hfst, hof, hmeans⟩ := h.parts
  refine ⟨?_, parts, hfst, hof, { hmeans with }⟩
  rw [h.same]

/-- A table without conditions has no parameters. -/
lemma TablePlan.bindConditions_of_none (hcondition : t.condition = none)
    (hkey : t.keyCondition = none) : t.bindConditions params = .ok t := by
  rw [TablePlan.bindConditions, hcondition, hkey]
  cases t
  simp only at hcondition hkey
  rw [hcondition, hkey]
  rfl

/-- **The bound plan of a table stands for the conjuncts that it has taken.**

**Proof sketch.** The table has been given the native parts of the conjuncts, one for each. Each of
them fits the kinds of its bins and has supplied parameters, so the bound conditions mean what the
parts mean together. Binding all of them binds each. -/
theorem TablePlan.TakesConjuncts.bindConditions (h : t.TakesConjuncts scope table es u)
    (ht : t.IsBare)
    (hsupplied : ∀ e ∈ es, e.IsSupplied scope table params (.ofRow params .empty))
    (hv : u.bindConditions params = .ok v) : t.StandsFor scope params table es v := by
  obtain ⟨parts, hfst, hof, hu⟩ := h
  simp only [TablePlan.bindConditions, bind_eq_ok, pure_eq_ok] at hv
  obtain ⟨c, hc, k, hk, rfl⟩ := hv
  rw [hu] at hc hk
  have hmeans : ({ (parts.map Prod.snd).foldl TablePlan.addNative t with
      condition := c, keyCondition := k } : TablePlan).Means params (parts.map Prod.snd) := by
    refine TablePlan.means_of_bindConditions ht.condition ht.keyCondition (fun n hn => ?_)
      (fun c hc => ?_) ?_
    · obtain ⟨a, ha, rfl⟩ := List.mem_map.mp hn
      exact (hof a ha).isKinded
    · obtain ⟨a, ha, heq⟩ := List.mem_map.mp hc
      exact (hof a ha).isOf (hsupplied a.1 (hfst ▸ List.mem_map_of_mem ha)) c heq
    · simp only [TablePlan.bindConditions, bind_eq_ok, pure_eq_ok]
      exact ⟨c, hc, k, hk, rfl⟩
  refine ⟨?_, parts, hfst, fun a ha => ⟨hof a ha, fun d hd => ?_⟩, { hmeans with }⟩
  · rw [hu, TablePlan.foldl_addNative_eq]
  · exact (TablePlan.exists_bind_of_foldl hc).2 d (hd ▸ List.mem_map_of_mem ha)

/-- Joined tables whose parameters are bound. -/
lemma bindJoins_spec {js ks : List JoinSpec} (h : bindJoins params js = .ok ks) (i : Nat) :
    Option.Rel (fun j k => ∃ t s, j.plan.bindConditions params = .ok t ∧
      k = { j with plan := { t with strategy := s } }) js[i]? ks[i]? := by
  induction js generalizing ks i with
  | nil =>
    obtain rfl := pure_eq_ok.mp h
    exact .none
  | cons j js ih =>
    simp only [bindJoins, TablePlan.bind, bind_eq_ok, pure_eq_ok] at h
    obtain ⟨plan, ⟨t, ht, hplan⟩, rest, hrest, rfl⟩ := h
    cases i with
    | zero =>
      split at hplan
      · cases hplan
      · obtain ⟨s, -, rfl⟩ := TablePlan.chooseStrategy_eq_ok.mp hplan
        exact .some ⟨t, some s, ht, rfl⟩
    | succ i => exact ih hrest i

end

namespace QueryPlan

variable {scope : Scope} {params : List Value} {routed : List (Nat × Expr)} {es : List Expr}
  {p m q : QueryPlan}

/-- **What binding a plan of tables does**, if its rows are neither reduced nor limited: conditions
on the main table that a float is left in are dropped, and the plan decides row by row.

**Proof sketch.** The binding is taken apart. Without limits nothing but joins and conditions is
bound. A float that is left in the conditions turns the whole condition into a row filter; otherwise
only a strategy is chosen. -/
lemma IsUnreduced.exists_of_bind (h : m.IsUnreduced) (hq : m.bind params = .ok q) :
    ∃ joins table s, bindJoins params m.joins = .ok joins ∧
      m.toTablePlan.bindConditions params = .ok table ∧
      ((table.floatParam? = none ∧ q = { m with
          toTablePlan := { table with strategy := s }, joins, offset := none, limit := none }) ∨
        (table.floatParam? ≠ none ∧ ∃ e, m.whereClause = some e ∧ q = { m with
          toTablePlan := { table with condition := none, keyCondition := none, strategy := s }
          rowFilter := some e, joins, offset := none, limit := none })) := by
  rw [bind_eq_bindOwn h.source h.subqueries] at hq
  simp only [bindOwn, bind_eq_ok] at hq
  obtain ⟨joins, hjoins, table, htable, offset, hoffset, limit, hlimit, hq⟩ := hq
  rw [h.offset] at hoffset
  rw [h.limit] at hlimit
  obtain rfl := pure_eq_ok.mp hoffset
  obtain rfl := pure_eq_ok.mp hlimit
  split at hq
  · rename_i index hfloat
    obtain ⟨moved, hmoved, hq⟩ := bind_eq_ok.mp hq
    obtain ⟨s, rfl⟩ := eq_of_chooseStrategy hq
    unfold filterByRow at hmoved
    split at hmoved
    · cases hmoved
    · rename_i e hwhere
      split at hmoved
      · cases hmoved
      · obtain rfl := Except.ok.inj hmoved
        exact ⟨joins, table, s, hjoins, htable,
          .inr ⟨by rw [hfloat]; exact Option.some_ne_none index, e, hwhere, rfl⟩⟩
  · rename_i hfloat
    obtain ⟨s, rfl⟩ := eq_of_chooseStrategy hq
    exact ⟨joins, table, s, hjoins, htable, .inl ⟨hfloat, rfl⟩⟩

/-- **The bound conditions on the main table** stand for the conjuncts there, unless these were left
to the rows and there are no conditions.

**Proof sketch.** By what became of the conjuncts. If the table took them then the bound table
stands for them. If they were left to the rows then the table is bare, and binding it changes
nothing. -/
lemma TakesMain.bindConditions (h : p.TakesMain scope es m) (hp : p.toTablePlan.IsBare)
    (hsupplied : ∀ e ∈ es, e.IsSupplied scope 0 params (.ofRow params .empty)) {table : TablePlan}
    (htable : m.toTablePlan.bindConditions params = .ok table) :
    (p.toTablePlan.StandsFor scope params 0 es table ∧ m.rowFilter = none ∧
        ∀ e, m.whereClause = some e → e.conjuncts = es) ∨
      (table = { p.toTablePlan with strategy := table.strategy } ∧ table.floatParam? = none ∧
        ∃ e, m.rowFilter = some e ∧ e.conjuncts = es) := by
  rcases h with ⟨htakes, hrows⟩ | ⟨hsame, hrows⟩
  · exact .inl ⟨htakes.bindConditions hp hsupplied htable, hrows⟩
  · have hcondition : m.condition = none := by
      rw [show m.condition = m.toTablePlan.condition from rfl, hsame]
      exact hp.condition
    have hkey : m.keyCondition = none := by
      rw [show m.keyCondition = m.toTablePlan.keyCondition from rfl, hsame]
      exact hp.keyCondition
    obtain rfl := Except.ok.inj
      ((TablePlan.bindConditions_of_none hcondition hkey).symm.trans htable)
    have hfloat : m.toTablePlan.floatParam? = none := by
      rw [TablePlan.floatParam?, hcondition]
      rfl
    exact .inr ⟨hsame, hfloat, hrows⟩

/-- **A bound plan stands for the conjuncts that it has taken.**

**Proof sketch.** Table by table the conditions are bound
(`TablePlan.TakesConjuncts.bindConditions`). If a float is left on the main table, the conditions
there are dropped and the conjuncts are decided row by row, as they are if the store did not decide
them in the first place. -/
theorem TakesConjuncts.bind (h : p.TakesConjuncts scope routed m) (hp : p.IsBare)
    (hsupplied : ∀ i, ∀ e ∈ conjunctsAt routed i,
      e.IsSupplied scope i params (.ofRow params .empty))
    (hq : m.bind params = .ok q) : p.StandsFor scope params routed q := by
  obtain ⟨joins, table, s, hjoins, htable, hown⟩ := h.unreduced.exists_of_bind hq
  have hjoined : ∀ i : Nat, Option.Rel (fun j k => j.plan.StandsFor scope params (i + 1)
      (conjunctsAt routed (i + 1)) k.plan ∧ k = { j with plan := k.plan })
      p.joins[i]? joins[i]? := by
    intro i
    refine rel_comp (h.joins i) (bindJoins_spec hjoins i) fun j k l hj hjk hkl => ?_
    obtain ⟨hplan, hk⟩ := hjk
    obtain ⟨t, s, ht, rfl⟩ := hkl
    have hbare := hp.joins j (List.mem_of_getElem? hj)
    exact ⟨(hplan.bindConditions hbare (hsupplied (i + 1)) ht).withStrategy s, by rw [hk]⟩
  have hmain := h.main.bindConditions hp.main (hsupplied 0) htable
  obtain ⟨hfloat, rfl⟩ | ⟨hfloat, e, hwhere, rfl⟩ := hown
  · refine ⟨?_, hjoined, h.wildcard, { h.unreduced with offset := rfl, limit := rfl }⟩
    obtain ⟨hstands, hfilter, -⟩ | ⟨hsame, -, hrows⟩ := hmain
    · exact .inl ⟨hstands.withStrategy s, hfilter⟩
    · exact .inr ⟨by rw [hsame], hrows⟩
  · refine ⟨?_, hjoined, h.wildcard, { h.unreduced with offset := rfl, limit := rfl }⟩
    obtain ⟨hstands, -, hclause⟩ | ⟨-, hnone, -⟩ := hmain
    · refine .inr ⟨?_, e, rfl, hclause e hwhere⟩
      change { table with condition := none, keyCondition := none, strategy := s } = _
      rw [hstands.same, ← hp.main.condition, ← hp.main.keyCondition]
    · exact absurd hnone hfloat

end QueryPlan

end RecordQuery
