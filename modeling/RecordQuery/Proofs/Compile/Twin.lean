import RecordQuery.Compile.Query
import RecordQuery.Proofs.Outcome

set_option autoImplicit false

/-!
# Twin plans

Returned columns, the order and the grouping of a selection do not depend on the conditions, the
indexes and the strategies of its tables. Two plans that differ in these only, as far as a relation
between the plans of their tables allows, keep differing in the same way while columns are added.

## Main definitions

* `Twinning` — a relation between plans of tables that adding columns keeps.
* `JoinSpec.Twin`, `QueryPlan.Twin` — plans that are the same but for their tables and for what no
  column depends on.

## Main results

* `QueryPlan.Twin.modifyTable`, `QueryPlan.Twin.register` — twins stay twins.
* `twin_addItems`, `twin_planOrder`, `twin_addHaving`, `twin_addReduction` — the steps of the
  compilation of a selection.
-/

namespace RecordQuery

open Outcome

/-- A relation between the plans of the tables at a position that depends neither on the columns
nor on the digest, and relates only plans that have both in common. -/
structure Twinning (T : Nat → TablePlan → TablePlan → Prop) : Prop where
  /-- Related plans read the same namespace. -/
  ns : ∀ {i t t'}, T i t t' → t.ns = t'.ns
  /-- Related plans carry the same columns. -/
  columns : ∀ {i t t'}, T i t t' → t.columns = t'.columns
  /-- Related plans stay related if both get the same columns. -/
  withColumns : ∀ {i t t'}, T i t t' → ∀ cs, T i { t with columns := cs } { t' with columns := cs }
  /-- Related plans stay related if both carry the digest. -/
  withDigest : ∀ {i t t'}, T i t t' →
    T i { t with needsDigest := true } { t' with needsDigest := true }

/-- Two joins that differ in the plans of their tables only. -/
structure JoinSpec.Twin (T : TablePlan → TablePlan → Prop) (j j' : JoinSpec) : Prop where
  /-- The joins are of the same kind. -/
  kind : j.kind = j'.kind
  /-- The joined tables have the same name. -/
  qualifier : j.qualifier = j'.qualifier
  /-- The plans of the tables are related. -/
  plan : T j.plan j'.plan
  /-- The outer values are the same. -/
  outerKey : j.outerKey = j'.outerKey
  /-- The joined columns are the same. -/
  innerColumn : j.innerColumn = j'.innerColumn

namespace QueryPlan

/-- What no column of a plan depends on: what is decided row by row, the source and the
sub-queries. -/
structure Rest where
  /-- The condition that is decided row by row. -/
  rowFilter : Option Expr
  /-- The condition on the main table. -/
  whereClause : Option Expr
  /-- The source. -/
  source : Option QueryNode
  /-- The sub-queries. -/
  subqueries : List SubquerySlot

/-- What no column of a plan depends on. -/
def rest (p : QueryPlan) : Rest := ⟨p.rowFilter, p.whereClause, p.source, p.subqueries⟩

/-- Two plans that are the same but for their tables and for what no column depends on; in these
they differ as two relations say. -/
structure Twin (T : Nat → TablePlan → TablePlan → Prop) (E : Rest → Rest → Prop)
    (p p' : QueryPlan) : Prop where
  /-- The main tables are related. -/
  table : T 0 p.toTablePlan p'.toTablePlan
  /-- The joins are twins. -/
  joins : ∀ i : Nat, Option.Rel (JoinSpec.Twin (T (i + 1))) p.joins[i]? p'.joins[i]?
  /-- Both return all columns or neither does. -/
  wildcard : p.wildcard = p'.wildcard
  /-- The conditions on groups are the same. -/
  having : p.having = p'.having
  /-- The reductions are the same. -/
  reduction : p.reduction = p'.reduction
  /-- Both drop duplicates or neither does. -/
  distinct : p.distinct = p'.distinct
  /-- The orders are the same. -/
  orderBy : p.orderBy = p'.orderBy
  /-- The offsets are the same. -/
  offset : p.offset = p'.offset
  /-- The limits are the same. -/
  limit : p.limit = p'.limit
  /-- The rest is related. -/
  rest : E p.rest p'.rest

namespace Twin

variable {T : Nat → TablePlan → TablePlan → Prop} {E : Rest → Rest → Prop} {p p' : QueryPlan}

/-- Twins carry the same columns. -/
lemma columns_eq (h : p.Twin T E p') (hT : Twinning T) : p.columns = p'.columns :=
  hT.columns h.table

/-- Twins have the same labels. -/
lemma labels_eq (h : p.Twin T E p') (hT : Twinning T) : p.labels = p'.labels := by
  rw [QueryPlan.labels, QueryPlan.labels, TablePlan.labels, TablePlan.labels, h.columns_eq hT]

/-- Twins read the same namespaces. -/
lemma ns_eq (h : p.Twin T E p') (hT : Twinning T) (i : Nat) :
    (p.tableAt i).ns = (p'.tableAt i).ns := by
  have hmain := hT.ns h.table
  cases i with
  | zero => exact hmain
  | succ i =>
    have hjoin := h.joins i
    simp only [tableAt]
    revert hjoin
    cases p.joins[i]? <;> cases p'.joins[i]? <;> intro hjoin <;> cases hjoin
    · simpa using hmain
    · rename_i hjoin
      simpa using hT.ns hjoin.plan

/-- Twins of which the main table is changed in the same way. -/
lemma mapTable (h : p.Twin T E p') {f f' : TablePlan → TablePlan}
    (hf : ∀ t t', T 0 t t' → T 0 (f t) (f' t')) : (p.mapTable f).Twin T E (p'.mapTable f') :=
  ⟨hf _ _ h.table, h.joins, h.wildcard, h.having, h.reduction, h.distinct, h.orderBy, h.offset,
    h.limit, h.rest⟩

/-- **Twins of which a table is changed** in the same way. -/
lemma modifyTable (h : p.Twin T E p') (i : Nat) {f f' : TablePlan → TablePlan}
    (hf : ∀ t t', T i t t' → T i (f t) (f' t')) :
    (p.modifyTable i f).Twin T E (p'.modifyTable i f') := by
  cases i with
  | zero => exact h.mapTable hf
  | succ i =>
    refine ⟨h.table, fun k => ?_, h.wildcard, h.having, h.reduction, h.distinct, h.orderBy,
      h.offset, h.limit, h.rest⟩
    have hjoin := h.joins k
    simp only [QueryPlan.modifyTable, List.getElem?_modify]
    by_cases hk : i = k
    · subst hk
      revert hjoin
      simp only [if_true]
      cases p.joins[i]? <;> cases p'.joins[i]? <;> intro hjoin <;> cases hjoin
      · exact .none
      · rename_i hjoin
        exact .some ⟨hjoin.kind, hjoin.qualifier, hf _ _ hjoin.plan, hjoin.outerKey,
          hjoin.innerColumn⟩
    · simpa [hk] using hjoin

/-- Twins that carry digests. -/
lemma requireDigest (h : p.Twin T E p') (hT : Twinning T) (i : Nat) :
    (p.requireDigest i).Twin T E (p'.requireDigest i) :=
  h.modifyTable i fun _ _ ht => hT.withDigest ht

/-- **Twins stay twins when a column is added.** -/
lemma register (h : p.Twin T E p') (hT : Twinning T) (i : Nat) (c : Column) :
    (p.register i c).Twin T E (p'.register i c) := by
  have hcolumns := h.columns_eq hT
  have hadd : (p.mapTable (fun t => { t with columns := c.add t.columns })).Twin T E
      (p'.mapTable (fun t => { t with columns := c.add t.columns })) := by
    refine h.mapTable fun t t' ht => ?_
    rw [hT.columns ht]
    exact hT.withColumns ht _
  unfold QueryPlan.register
  rw [hcolumns]
  split
  · exact h
  · simp only
    split
    · exact hadd
    · refine hadd.modifyTable i fun t t' ht => ?_
      rw [hT.columns ht]
      split
      · exact ht
      · exact hT.withColumns ht _

end Twin

end QueryPlan

/-! ## Steps of the compilation -/

section Steps

variable {T : Nat → TablePlan → TablePlan → Prop} {E : QueryPlan.Rest → QueryPlan.Rest → Prop}
  {p p' : QueryPlan} {scope : Scope} {groups : List String} {grouping : Option (List String)}

/-- Twins carry an aggregate. -/
lemma twin_addAggregate (hT : Twinning T) (h : p.Twin T E p') (e : Expr) (label : Option String)
    (hidden : Bool) :
    Follows (QueryPlan.Twin T E) (addAggregate p e label hidden)
      (addAggregate p' e label hidden) := by
  refine (Follows.of_eq (aggregateSpec e)).bind fun spec _ hspec => ?_
  subst hspec
  have hns : p.ns = p'.ns := hT.ns h.table
  refine .pure ?_
  rw [QueryPlan.expressionColumn, QueryPlan.expressionColumn, hns]
  exact h.register hT 0 _

/-- Twins carry a column of groups. -/
lemma twin_addGroupedColumn (hT : Twinning T) (h : p.Twin T E p') (c : ColumnRef) :
    Follows (QueryPlan.Twin T E) (addGroupedColumn scope groups p c)
      (addGroupedColumn scope groups p' c) := by
  have hns : p.ns = p'.ns := hT.ns h.table
  simp only [addGroupedColumn, h.labels_eq hT, hns]
  split
  · exact .pure h
  · refine (Follows.of_eq (scope.resolve c)).bind fun table _ htable => ?_
    subst htable
    split
    · exact .throw _
    · exact .pure (h.register hT 0 _)

mutual

/-- Twins carry what an expression over groups needs.

**Proof sketch.** Recursion on the expression, along the definition: an aggregate or a grouping
column is added to both plans, and every other expression has its parts registered one after the
other. -/
lemma twin_registerGrouped (hT : Twinning T) {p p' : QueryPlan} (h : p.Twin T E p') : (e : Expr) →
    Follows (QueryPlan.Twin T E) (registerGrouped scope groups p e)
      (registerGrouped scope groups p' e)
  | .call name args distinct => by
    simp only [registerGrouped]
    split
    · exact twin_addAggregate hT h _ none true
    · exact twin_registerGroupedList hT h args
  | .column c => by
    simp only [registerGrouped]
    exact twin_addGroupedColumn hT h c
  | .binary op l r => by
    simp only [registerGrouped]
    exact (twin_registerGrouped hT h l).bind fun q q' hq => twin_registerGrouped hT hq r
  | .negative e | .not e | .isNull e _ | .paren e | .inQuery e _ _ => by
    simp only [registerGrouped]
    exact twin_registerGrouped hT h e
  | .between e low high negated => by
    simp only [registerGrouped]
    exact (twin_registerGrouped hT h e).bind fun q q' hq =>
      (twin_registerGrouped hT hq low).bind fun q q' hq => twin_registerGrouped hT hq high
  | .inList e items negated => by
    simp only [registerGrouped]
    exact (twin_registerGrouped hT h e).bind fun q q' hq => twin_registerGroupedList hT hq items
  | .array items => by
    simp only [registerGrouped]
    exact twin_registerGroupedList hT h items
  | .element e key => by
    simp only [registerGrouped]
    exact (twin_registerGrouped hT h e).bind fun q q' hq => twin_registerGrouped hT hq key
  | .literal _ | .param _ | .scalarQuery _ | .star => by
    simp only [registerGrouped]
    exact .ok h

/-- Twins carry what several expressions over groups need. -/
lemma twin_registerGroupedList (hT : Twinning T) {p p' : QueryPlan} (h : p.Twin T E p') :
    (es : List Expr) →
    Follows (QueryPlan.Twin T E) (registerGroupedList scope groups p es)
      (registerGroupedList scope groups p' es)
  | [] => by
    simp only [registerGroupedList]
    exact .ok h
  | e :: es => by
    simp only [registerGroupedList]
    exact (twin_registerGrouped hT h e).bind fun q q' hq => twin_registerGroupedList hT hq es

end

/-- Twins that carry the digest of a table if a column asks for it. -/
lemma QueryPlan.Twin.requireDigest_if (hT : Twinning T) (h : p.Twin T E p') (c : ColumnRef)
    (i : Nat) :
    (if c.name = digestColumn then p.requireDigest i else p).Twin T E
      (if c.name = digestColumn then p'.requireDigest i else p') := by
  split
  · exact h.requireDigest hT i
  · exact h

/-- Twins carry the columns of an expression. -/
lemma twin_registerColumns (hT : Twinning T) (h : p.Twin T E p') (cs : List ColumnRef) :
    Follows (QueryPlan.Twin T E) (registerColumns scope p cs) (registerColumns scope p' cs) := by
  induction cs generalizing p p' with
  | nil => exact .ok h
  | cons c cs ih =>
    refine (Follows.of_eq (scope.resolve c)).bind fun i _ hi => ?_
    subst hi
    have hq := h.requireDigest_if hT c i
    refine ih ?_
    rw [QueryPlan.hiddenColumn, QueryPlan.hiddenColumn, hq.ns_eq hT i]
    exact hq.register hT i _

/-- Twins return a column. -/
lemma twin_addColumnItem (hT : Twinning T) (h : p.Twin T E p') (c : ColumnRef)
    (label : Option String) :
    Follows (QueryPlan.Twin T E) (addColumnItem scope grouping p c label)
      (addColumnItem scope grouping p' c label) := by
  refine (Follows.of_eq (scope.resolve c)).bind fun i _ hi => ?_
  subst hi
  refine (Follows.of_eq (columnValue grouping i c)).bind fun value _ hvalue => ?_
  subst hvalue
  have hq := h.requireDigest_if hT c i
  refine .pure ?_
  simp only [hq.ns_eq hT i, columnLabel, hq.labels_eq hT]
  exact hq.register hT i _

/-- Twins return the value of an expression. -/
lemma twin_addExpressionItem (hT : Twinning T) (h : p.Twin T E p') (e : Expr)
    (label : Option String) :
    Follows (QueryPlan.Twin T E) (addExpressionItem scope grouping p e label)
      (addExpressionItem scope grouping p' e label) := by
  have hcarried : ∀ q q' : QueryPlan, q.Twin T E q' → Follows (QueryPlan.Twin T E)
      (pure (q.register 0 (q.expressionColumn e.render label (.computed e) false)) :
        Except QueryError QueryPlan)
      (pure (q'.register 0 (q'.expressionColumn e.render label (.computed e) false)) :
        Except QueryError QueryPlan) := by
    intro q q' hq
    have hns : q.ns = q'.ns := hT.ns hq.table
    refine .pure ?_
    rw [QueryPlan.expressionColumn, QueryPlan.expressionColumn, hns]
    exact hq.register hT 0 _
  cases grouping with
  | some groups => exact (twin_registerGrouped hT h e).bind hcarried
  | none => exact (twin_registerColumns hT h e.columns).bind hcarried

/-- Twins return a selected expression. -/
lemma twin_addExpr (hT : Twinning T) (h : p.Twin T E p') (e : Expr) (label : Option String) :
    Follows (QueryPlan.Twin T E) (addExpr scope grouping p e label)
      (addExpr scope grouping p' e label) := by
  unfold addExpr
  split
  · exact twin_addColumnItem hT h _ label
  · split
    · exact twin_addAggregate hT h _ label false
    · split
      · exact twin_addExpressionItem hT h _ label
      · exact .error _

/-- **Twins return selected items.** -/
theorem twin_addItems (hT : Twinning T) (h : p.Twin T E p') (items : List SelectItem) :
    Follows (QueryPlan.Twin T E) (addItems scope grouping p items)
      (addItems scope grouping p' items) := by
  induction items generalizing p p' with
  | nil => exact .ok h
  | cons i is ih =>
    have hitem : Follows (QueryPlan.Twin T E) (addItem scope grouping p i)
        (addItem scope grouping p' i) := by
      cases i with
      | all =>
        simp only [addItem]
        split
        · exact .error _
        · exact .ok { h with wildcard := rfl }
      | expr e label => exact twin_addExpr hT h e.unwrap label
    exact hitem.bind fun q q' hq => ih hq

/-- Twins with a condition on groups. -/
lemma twin_addHaving (hT : Twinning T) (h : p.Twin T E p') (e : Expr) :
    Follows (QueryPlan.Twin T E) (addHaving scope groups p e) (addHaving scope groups p' e) := by
  unfold addHaving
  split
  · exact .throw _
  · exact (twin_registerGrouped hT h e).bind fun q q' hq => .pure { hq with having := rfl }

/-- Twins carry what a column of an order needs. -/
lemma twin_columnOrder (hT : Twinning T) (h : p.Twin T E p') (c : ColumnRef) :
    Follows (fun a b => a.1 = b.1 ∧ a.2.Twin T E b.2) (columnOrder scope grouping p c)
      (columnOrder scope grouping p' c) := by
  have hresolved : ∀ q q' : QueryPlan, q.Twin T E q' →
      Follows (fun a b : OrderKey × QueryPlan => a.1 = b.1 ∧ a.2.Twin T E b.2)
        (do
          let table ← scope.resolve c
          return (.column (scope.rowKey table c.name), q))
        (do
          let table ← scope.resolve c
          return (.column (scope.rowKey table c.name), q')) := by
    intro q q' hq
    refine (Follows.of_eq (scope.resolve c)).bind fun i _ hi => ?_
    subst hi
    exact .pure ⟨rfl, hq⟩
  cases grouping with
  | some groups => exact (twin_addGroupedColumn hT h c).bind hresolved
  | none => exact hresolved p p' h

/-- Twins carry what a key of an order needs. -/
lemma twin_planOrderKey (hT : Twinning T) (h : p.Twin T E p') (e : Expr) :
    Follows (fun a b => a.1 = b.1 ∧ a.2.Twin T E b.2) (planOrderKey scope grouping p e)
      (planOrderKey scope grouping p' e) := by
  have hcolumns := h.columns_eq hT
  unfold planOrderKey
  split
  · rw [hcolumns]
    split
    · exact .ok ⟨rfl, h⟩
    · exact .error _
  · rw [labelledColumn?, labelledColumn?, hcolumns]
    split
    · exact .ok ⟨rfl, h⟩
    · exact twin_columnOrder hT h _
  · split
    · exact .error _
    · split
      · exact .ok ⟨rfl, h⟩
      · exact (twin_registerGrouped hT h _).bind fun q q' hq => .pure ⟨rfl, hq⟩

/-- **Twins in an order.** -/
theorem twin_planOrder (hT : Twinning T) (h : p.Twin T E p') (items : List OrderItem) :
    Follows (fun a b => a.1 = b.1 ∧ a.2.Twin T E b.2) (planOrder scope grouping p items)
      (planOrder scope grouping p' items) := by
  induction items generalizing p p' with
  | nil => exact .pure ⟨rfl, h⟩
  | cons o os ih =>
    refine (twin_planOrderKey hT h o.expr.unwrap).bind fun a b hab => ?_
    refine (ih hab.2).bind fun c d hcd => ?_
    exact .pure ⟨by rw [hab.1, hcd.1], hcd.2⟩

/-- Twins with a reduction. -/
theorem twin_addReduction (hT : Twinning T) (h : p.Twin T E p') (distinct : Bool) :
    Follows (QueryPlan.Twin T E) (addReduction grouping distinct p)
      (addReduction grouping distinct p') := by
  have hcolumns := h.columns_eq hT
  unfold addReduction
  split
  · refine .ok { h with reduction := ?_ }
    simp only [QueryPlan.aggregation, QueryPlan.aggregateTexts, QueryPlan.outputMapping, hcolumns]
  · split
    · have hreduction : p.distinctReduction = p'.distinctReduction := by
        simp only [QueryPlan.distinctReduction, QueryPlan.outputMapping, hcolumns, h.wildcard]
      rw [hreduction]
      refine (Follows.of_eq p'.distinctReduction).bind fun r _ hr => ?_
      subst hr
      exact .pure { h with reduction := rfl, distinct := rfl }
    · exact .ok h

end Steps

/-! ## Selections -/

section Selections

variable {T T' : Nat → TablePlan → TablePlan → Prop}
  {E E' : QueryPlan.Rest → QueryPlan.Rest → Prop}

/-- Lists that are related one by one are both empty or neither is. -/
lemma isEmpty_eq_of_rel {α β : Type} {R : Nat → α → β → Prop} {as : List α} {bs : List β}
    (h : ∀ i : Nat, Option.Rel (R i) as[i]? bs[i]?) : as.isEmpty = bs.isEmpty := by
  have hfirst := h 0
  cases as <;> cases bs <;> first | rfl | cases hfirst

/-- Lists that are related one by one, with one more element each. -/
lemma rel_cons {α β : Type} {R : Nat → α → β → Prop} {a : α} {b : β} {as : List α} {bs : List β}
    (hab : R 0 a b) (h : ∀ i : Nat, Option.Rel (R (i + 1)) as[i]? bs[i]?) (i : Nat) :
    Option.Rel (R i) (a :: as)[i]? (b :: bs)[i]? := by
  cases i with
  | zero => exact .some hab
  | succ i => simpa using h i

/-- A list that is related one by one to one with a first element has a first element. -/
lemma exists_of_rel_cons {α β : Type} {R : Nat → α → β → Prop} {a : α} {as : List α} {bs : List β}
    (h : ∀ i : Nat, Option.Rel (R i) (a :: as)[i]? bs[i]?) :
    ∃ b rest, bs = b :: rest ∧ R 0 a b ∧ ∀ i : Nat, Option.Rel (R (i + 1)) as[i]? rest[i]? := by
  cases bs with
  | nil => cases h 0
  | cons b rest =>
    refine ⟨b, rest, rfl, ?_, fun i => by simpa using h (i + 1)⟩
    cases h 0 with
    | some hab => exact hab

/-- Two relations between what may be missing, one after the other. -/
lemma rel_comp {α β γ : Type} {R : α → β → Prop} {S : β → γ → Prop} {T : α → γ → Prop}
    {a : Option α} {b : Option β} {c : Option γ} (hab : Option.Rel R a b) (hbc : Option.Rel S b c)
    (hcomp : ∀ x y z, a = some x → R x y → S y z → T x z) : Option.Rel T a c := by
  cases hab with
  | none =>
    cases hbc
    exact .none
  | some hxy =>
    cases hbc with
    | some hyz => exact .some (hcomp _ _ _ rfl hxy hyz)

/-- A list that is related one by one to the empty list is empty. -/
lemma eq_nil_of_rel {α β : Type} {R : Nat → α → β → Prop} {bs : List β}
    (h : ∀ i : Nat, Option.Rel (R i) ([] : List α)[i]? bs[i]?) : bs = [] :=
  List.isEmpty_iff.mp (isEmpty_eq_of_rel h).symm

/-- Twin joins choose strategies. -/
lemma twin_chooseJoinStrategies {js js' : List JoinSpec}
    (hstrategy : ∀ i t t', T i t t' → Follows (T i) t.chooseStrategy t'.chooseStrategy)
    (h : ∀ i : Nat, Option.Rel (JoinSpec.Twin (T i)) js[i]? js'[i]?) :
    Follows (fun ks ks' => ∀ i : Nat, Option.Rel (JoinSpec.Twin (T i)) ks[i]? ks'[i]?)
      (chooseJoinStrategies js) (chooseJoinStrategies js') := by
  induction js generalizing js' T with
  | nil =>
    obtain rfl := eq_nil_of_rel h
    exact .pure h
  | cons j js ih =>
    obtain ⟨j', js', rfl, hj, hjs⟩ := exists_of_rel_cons h
    refine (hstrategy 0 _ _ hj.plan).bind fun t t' ht => ?_
    refine (ih (T := fun i => T (i + 1)) (fun i => hstrategy (i + 1)) hjs).bind
      fun ks ks' hks => .pure ?_
    exact rel_cons (R := fun i => JoinSpec.Twin (T i))
      ⟨hj.kind, hj.qualifier, ht, hj.outerKey, hj.innerColumn⟩ hks

/-- Twins with a step for something that may be missing. -/
lemma twin_withOption {α : Type} {step step' : QueryPlan → α → Except QueryError QueryPlan}
    {p p' : QueryPlan}
    (hstep : ∀ p p', p.Twin T E p' → ∀ a, Follows (QueryPlan.Twin T E) (step p a) (step' p' a))
    (h : p.Twin T E p') (a : Option α) :
    Follows (QueryPlan.Twin T E) (p.withOption step a) (p'.withOption step' a) := by
  cases a with
  | none => exact .ok h
  | some a => exact hstep p p' h a

/-- Twins with limits and strategies.

**Proof sketch.** A reduction over rows that are filtered one by one is refused for both plans: the
reduction is the same, and so is, by assumption, whether rows are filtered (`hp`, `hp'`). Otherwise
both get the same offset and limit, strategies for their joins (`twin_chooseJoinStrategies`) and one
for the main table. -/
lemma twin_finishSelect {p p' : QueryPlan}
    (hcheck : ∀ r r', E r r' → (r.source.isNone && r.rowFilter.isSome) = false →
      (r'.source.isNone && r'.rowFilter.isSome) = false)
    (hstrategy : ∀ i t t', T i t t' → Follows (T i) t.chooseStrategy t'.chooseStrategy)
    (hchoose : ∀ p p' : QueryPlan, p.Twin T E p' →
      Follows (QueryPlan.Twin T E) p.chooseStrategy p'.chooseStrategy)
    (h : p.Twin T E p') (limit offset : Option Expr) :
    Follows (QueryPlan.Twin T E) (finishSelect limit offset p) (finishSelect limit offset p') := by
  have hboth := hcheck _ _ h.rest
  simp only [QueryPlan.rest] at hboth
  unfold finishSelect
  by_cases hdecided : (p.source.isNone && p.rowFilter.isSome) = true ∧ p.reduction.isSome = true
  · simp only [Bool.and_eq_true] at hdecided
    simp only [hdecided, Bool.and_self, if_true]
    exact .error _
  · have hp : (p.reduction.isSome && p.source.isNone && p.rowFilter.isSome) = false := by
      rw [Bool.and_assoc, Bool.eq_false_iff]
      intro hall
      rw [Bool.and_eq_true] at hall
      exact hdecided ⟨hall.2, hall.1⟩
    have hp' : (p'.reduction.isSome && p'.source.isNone && p'.rowFilter.isSome) = false := by
      rw [Bool.and_assoc, ← h.reduction]
      by_cases hreduction : p.reduction.isSome = true
      · rw [hreduction, Bool.true_and]
        exact hboth (Bool.eq_false_iff.mpr fun hrest => hdecided ⟨hrest, hreduction⟩)
      · rw [Bool.eq_false_iff.mpr hreduction, Bool.false_and]
    simp only [hp, hp', Bool.false_eq_true, if_false]
    refine (Follows.of_eq _).bind fun o _ ho => ?_
    subst ho
    refine (Follows.of_eq _).bind fun l _ hl => ?_
    subst hl
    refine (twin_chooseJoinStrategies (T := fun i => T (i + 1)) (fun i => hstrategy (i + 1))
      h.joins).bind fun ks ks' hks => ?_
    exact hchoose _ _ { h with joins := hks, offset := rfl, limit := rfl }

/-- **Selections that differ in the condition and in what tables are known to be** become twins, if
their sources, their joins and the plans with the condition are twins and twins choose strategies.

**Proof sketch.** Step by step: what is decided between the steps depends on the columns, the number
of joins and the reduction only. -/
theorem twin_compileSelect {env env' : CompileEnv}
    {compileSub compileSub' : Query → Except QueryError QueryNode} {s : Select}
    (condition : Option Expr) {orderBy : List OrderItem} {limit offset : Option Expr}
    (hT : Twinning T) (hT' : Twinning T')
    (hsource : Follows (fun p p' => p.Twin T E p' ∧ p.set = p'.set ∧ p.rename = p'.rename)
      (compileSource env compileSub s.source) (compileSource env' compileSub' s.source))
    (hjoins : ∀ scope, Follows
      (fun a b => (∀ i : Nat, Option.Rel (JoinSpec.Twin (T (i + 1))) a.1[i]? b.1[i]?) ∧ a.2 = b.2)
      (compileJoinList env scope s.joins) (compileJoinList env' scope s.joins))
    (hwhere : ∀ (scope : Scope) (p p' : QueryPlan), p.Twin T E p' → Follows (QueryPlan.Twin T' E')
      (p.withOption (compileWhere compileSub scope) s.condition)
      (p'.withOption (compileWhere compileSub' scope) condition))
    (hcheck : ∀ r r', E' r r' → (r.source.isNone && r.rowFilter.isSome) = false →
      (r'.source.isNone && r'.rowFilter.isSome) = false)
    (hstrategy : ∀ i t t', T' i t t' → Follows (T' i) t.chooseStrategy t'.chooseStrategy)
    (hchoose : ∀ p p' : QueryPlan, p.Twin T' E' p' →
      Follows (QueryPlan.Twin T' E') p.chooseStrategy p'.chooseStrategy) :
    Follows (QueryPlan.Twin T' E') (compileSelect env compileSub s orderBy limit offset)
      (compileSelect env' compileSub' { s with condition } orderBy limit offset) := by
  unfold compileSelect
  refine hsource.bind fun p p' ⟨hp, hset, hrename⟩ => ?_
  rw [hset, hrename]
  refine (hjoins _).bind fun a b ⟨hab, hscope⟩ => ?_
  obtain ⟨joins, scope⟩ := a
  obtain ⟨joins', _⟩ := b
  obtain rfl := hscope
  have hstart : QueryPlan.Twin T E { p with joins } { p' with joins := joins' } :=
    { hp with joins := hab }
  have hempty := isEmpty_eq_of_rel hab
  have hgrouped : ({ s with condition } : Select).isGrouped orderBy = s.isGrouped orderBy := rfl
  have hgroups : ({ s with condition } : Select).hasGroups = s.hasGroups := rfl
  simp only [hempty, hgrouped, hgroups]
  split
  · exact .error _
  refine (Follows.of_eq _).bind fun groups _ hgroups => ?_
  subst hgroups
  split
  · exact .error _
  refine (twin_addItems hT hstart s.items).bind fun q q' hq => ?_
  refine (hwhere scope q q' hq).bind fun q q' hq => ?_
  refine (twin_withOption (fun p p' hp e => twin_addHaving hT' hp e) hq s.having).bind
    fun q q' hq => ?_
  refine (twin_planOrder hT' hq orderBy).bind fun c d ⟨horder, hcd⟩ => ?_
  rw [horder]
  have hordered : QueryPlan.Twin T' E' { c.2 with orderBy := d.1 } { d.2 with orderBy := d.1 } :=
    { hcd with orderBy := rfl }
  exact (twin_addReduction hT' hordered s.distinct).bind fun q q' hq =>
    twin_finishSelect hcheck hstrategy hchoose hq limit offset

end Selections

end RecordQuery
