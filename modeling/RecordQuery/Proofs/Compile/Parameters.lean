import RecordQuery.Proofs.Compile.Growth
import RecordQuery.Proofs.Compile.Where
import RecordQuery.Proofs.Plan.Parameters

set_option autoImplicit false

/-!
# Parameters of compiled selections

The expressions and the limits of a compiled selection are those that were written, so they have no
parameters but those of the selection.

## Main results

* `compileSelect_isNumbered` — the parameters of a compiled selection.
-/

namespace RecordQuery

open Outcome

variable {env : CompileEnv} {compileSub : Query → Except QueryError QueryNode} {scope : Scope}
  {ok : Nat → Bool} {p q : QueryPlan}

/-- More columns that are computed from given parameters. -/
lemma QueryPlan.IsNumbered.grows {A : Prop} (hp : p.IsNumbered ok)
    (h : p.Grows A (Column.Computes fun e => ∀ i ∈ e.paramNumbers, ok i = true) q) :
    q.IsNumbered ok := by
  have hcolumns : ∀ c ∈ q.columns, ∀ e, c.value = .computed e →
      ∀ i ∈ e.paramNumbers, ok i = true := by
    intro c hc
    rcases h.of_mem_columns hc with hc | hc
    · exact hp.columns c hc
    · exact hc
  have hrest := h.sameReading.rest
  generalize q.toTablePlan = t, q.wildcard = w, q.joins = js at hrest hcolumns
  subst hrest
  exact ⟨hp.rowFilter, hp.whereClause, hp.having, hcolumns, hp.orderBy, hp.offset, hp.limit⟩

/-- The parameters of a conjunction are those of its conjuncts.

**Proof sketch.** Induction on the conjuncts behind the first one, with the conjunction so far
(`hfold`): a parameter of `d AND c` is one of `d` or one of `c`. -/
lemma exists_of_mem_conjoin {es : List Expr} {e : Expr} {i : Nat} (h : conjoin es = some e)
    (hi : i ∈ e.paramNumbers) : ∃ d ∈ es, i ∈ d.paramNumbers := by
  have hfold : ∀ (ds : List Expr) (d : Expr), i ∈ (ds.foldl Expr.andAlso d).paramNumbers →
      ∃ c ∈ d :: ds, i ∈ c.paramNumbers := by
    intro ds
    induction ds with
    | nil => exact fun d hd => ⟨d, by simp, hd⟩
    | cons c cs ih =>
      intro d hd
      obtain ⟨b, hb, hib⟩ := ih _ hd
      rcases List.mem_cons.mp hb with rfl | hb
      · rw [Expr.andAlso, Expr.paramNumbers, List.mem_append] at hib
        rcases hib with hib | hib
        · exact ⟨d, by simp, hib⟩
        · exact ⟨c, by simp, hib⟩
      · exact ⟨b, by simp [hb], hib⟩
  cases es with
  | nil => cases h
  | cons d ds =>
    obtain rfl := Option.some.inj h
    exact hfold ds d hi

/-- A condition on the main table.

**Proof sketch.** Either conditions are added, which leaves the columns of the table alone
(`hcolumns`) and keeps the whole condition as a clause, or the whole condition becomes the row
filter (`compileMain_cases`). -/
lemma compileMain_isNumbered {conjuncts : List Expr} {whole : Expr} (hp : p.IsNumbered ok)
    (hwhole : ∀ i ∈ whole.paramNumbers, ok i = true)
    (h : compileMain compileSub scope p conjuncts whole = .ok q) : q.IsNumbered ok := by
  have hkeeps : ∀ e ∈ some whole, ∀ i ∈ e.paramNumbers, ok i = true := by
    rintro e ⟨⟩
    exact hwhole
  rcases compileMain_cases h with ⟨-, parts, slots, -, -, rfl⟩ | ⟨-, rfl⟩
  · have hcolumns : ∀ (ns : List NativeCondition) (t : TablePlan),
        (ns.foldl TablePlan.addNative t).columns = t.columns := by
      intro ns
      induction ns with
      | nil => exact fun t => rfl
      | cons n ns ih =>
        intro t
        rw [List.foldl_cons, ih]
        cases n <;> rfl
    refine ⟨hp.rowFilter, ?_, hp.having, fun c hc => ?_, hp.orderBy, hp.offset, hp.limit⟩
    · simp only
      split
      · exact hp.whereClause
      · exact hkeeps
    · exact hp.columns c (hcolumns _ _ ▸ hc)
  · exact ⟨hkeeps, hp.whereClause, hp.having, hp.columns, hp.orderBy, hp.offset, hp.limit⟩

/-- **A condition.**

**Proof sketch.** What the main table keeps is the condition itself or the conjunction of some of
its conjuncts, and a parameter of a conjunct is one of the condition (`exists_of_mem_conjoin`,
`Expr.paramNumbers_subset`). The plans of joined tables hold no expressions. -/
theorem compileWhere_isNumbered {condition : Expr} (hp : p.IsNumbered ok)
    (hcondition : ∀ i ∈ condition.paramNumbers, ok i = true)
    (h : compileWhere compileSub scope p condition = .ok q) : q.IsNumbered ok := by
  have hjoined : ∀ (m : QueryPlan) (js : List JoinSpec), m.IsNumbered ok →
      QueryPlan.IsNumbered ok { m with joins := js } := fun m js hm =>
    ⟨hm.rowFilter, hm.whereClause, hm.having, hm.columns, hm.orderBy, hm.offset, hm.limit⟩
  unfold compileWhere at h
  obtain ⟨routed, hrouted, h⟩ := bind_eq_ok.mp h
  simp only at h
  split at h
  · rename_i whole hwhole
    obtain ⟨m, hm, h⟩ := bind_eq_ok.mp h
    obtain ⟨joins, -, h⟩ := bind_eq_ok.mp h
    obtain rfl := Except.ok.inj h
    refine hjoined m joins (compileMain_isNumbered hp (fun i hi => ?_) hm)
    split at hwhole
    · obtain rfl := Option.some.inj hwhole
      exact hcondition i hi
    · obtain ⟨d, hd, hid⟩ := exists_of_mem_conjoin hwhole hi
      have hmem := Expr.parts_conjuncts condition (mem_of_routeConjuncts hrouted hd)
        (Expr.self_mem_parts d)
      exact hcondition i (Expr.paramNumbers_subset condition hmem hid)
  · obtain ⟨m, hm, h⟩ := bind_eq_ok.mp h
    obtain ⟨joins, -, h⟩ := bind_eq_ok.mp h
    obtain rfl := Except.ok.inj hm
    obtain rfl := Except.ok.inj h
    exact hjoined p joins hp

/-- A limit. -/
lemma optionalRowBound_isNumbered {e : Option Expr} {b : Option RowBound}
    (he : ∀ i ∈ paramNumbersOption e, ok i = true) (h : optionalRowBound e = .ok b) :
    RowBound.IsNumbered ok b := by
  cases e with
  | none =>
    obtain rfl := Except.ok.inj h
    exact .none
  | some e =>
    obtain ⟨c, hc, h⟩ := bind_eq_ok.mp h
    obtain rfl := Except.ok.inj h
    rintro i ⟨⟩
    have hself := Expr.parts_unwrap e (Expr.self_mem_parts e.unwrap)
    unfold rowBound at hc
    generalize e.unwrap = u at hc hself
    split at hc
    · split at hc <;> cases hc
    · cases hc
      exact he i (Expr.mem_paramNumbers hself)
    · cases hc

/-- The sort key of a selection. -/
lemma planOrderKey_eq_expr {grouping : Option (List String)} {e d : Expr}
    (h : planOrderKey scope grouping p e = .ok (.expr d, q)) : d = e := by
  unfold planOrderKey at h
  split at h
  · split at h <;> cases h
  · split at h
    · cases h
    · unfold columnOrder at h
      split at h <;> (obtain ⟨m, -, h⟩ := bind_eq_ok.mp h
                      obtain ⟨table, -, h⟩ := bind_eq_ok.mp h
                      cases h)
  · split at h
    · cases h
    · split at h
      · exact (OrderKey.expr.inj (Prod.mk.inj (Except.ok.inj h)).1).symm
      · obtain ⟨m, -, h⟩ := bind_eq_ok.mp h
        have hkey := (Prod.mk.inj (Except.ok.inj h)).1
        split at hkey
        · cases hkey
        · exact (OrderKey.expr.inj hkey).symm

/-- The parameters of the expression of an item are among those of the order. -/
lemma mem_paramNumbersOrder_of_unwrap {item : OrderItem} (items : List OrderItem) {i : Nat}
    (hi : i ∈ item.expr.unwrap.paramNumbers) : i ∈ paramNumbersOrder (item :: items) := by
  rw [paramNumbersOrder, OrderItem.paramNumbers_eq]
  exact List.mem_append_left _ (Expr.paramNumbers_subset item.expr
    (Expr.parts_unwrap item.expr (Expr.self_mem_parts _)) hi)

/-- The order of a selection.

**Proof sketch.** Induction on the items. A sort key that is an expression is the expression of its
item (`planOrderKey_eq_expr`), so its parameters are among those of the order. -/
lemma planOrder_areNumbered {grouping : Option (List String)} {items : List OrderItem}
    {order : List OrderSpec} (hitems : ∀ i ∈ paramNumbersOrder items, ok i = true)
    (h : planOrder scope grouping p items = .ok (order, q)) : OrderSpec.AreNumbered ok order := by
  induction items generalizing p order with
  | nil =>
    obtain ⟨rfl, -⟩ := Prod.mk.inj (Except.ok.inj h)
    exact fun o ho => absurd ho List.not_mem_nil
  | cons item items ih =>
    simp only [planOrder, bind_eq_ok, pure_eq_ok] at h
    obtain ⟨⟨key, m⟩, hm, ⟨specs, last⟩, hlast, h⟩ := h
    obtain ⟨rfl, rfl⟩ := Prod.mk.inj h
    have hrest := ih (fun i hi => hitems i (by simp [paramNumbersOrder, hi])) hlast
    intro o ho e he i hi
    rcases List.mem_cons.mp ho with rfl | ho
    · change key = _ at he
      subst he
      obtain rfl := planOrderKey_eq_expr hm
      exact hitems i (mem_paramNumbersOrder_of_unwrap items hi)
    · exact hrest o ho e he i hi

/-- A sort key of a set operation that is an expression is the one of its item. -/
lemma chainOrderKey_eq_expr {labels : List String} {e d : Expr}
    (h : chainOrderKey labels e = .ok (.expr d)) : d = e := by
  unfold chainOrderKey at h
  split at h
  · simp only at h
    split at h <;> cases h
  · cases h
  · split at h
    · cases h
    · exact (OrderKey.expr.inj (Except.ok.inj h)).symm

/-- The order of a set operation.

**Proof sketch.** Induction on the items, as for the order of a selection: a sort key that is an
expression is the expression of its item (`chainOrderKey_eq_expr`). -/
lemma chainOrder_areNumbered {labels : List String} {items : List OrderItem}
    {order : List OrderSpec} (hitems : ∀ i ∈ paramNumbersOrder items, ok i = true)
    (h : chainOrder labels items = .ok order) : OrderSpec.AreNumbered ok order := by
  induction items generalizing order with
  | nil =>
    obtain rfl := Except.ok.inj h
    exact fun o ho => absurd ho List.not_mem_nil
  | cons item items ih =>
    simp only [chainOrder, bind_eq_ok, pure_eq_ok] at h
    obtain ⟨key, hkey, specs, hspecs, rfl⟩ := h
    have hrest := ih (fun i hi => hitems i (by simp [paramNumbersOrder, hi])) hspecs
    intro o ho e he i hi
    rcases List.mem_cons.mp ho with rfl | ho
    · change key = _ at he
      subst he
      obtain rfl := chainOrderKey_eq_expr hkey
      exact hitems i (mem_paramNumbersOrder_of_unwrap items hi)
    · exact hrest o ho e he i hi

/-- The parameters of a selected expression among those of several items. -/
lemma paramNumbers_subset_items {e : Expr} {label : Option String} {items : List SelectItem}
    (h : .expr e label ∈ items) : e.paramNumbers ⊆ paramNumbersItems items := by
  induction items with
  | nil => cases h
  | cons i items ih =>
    rw [paramNumbersItems]
    rcases List.mem_cons.mp h with rfl | h
    · exact List.subset_append_left _ _
    · exact List.subset_append_of_subset_right _ (ih h)

/-- A selection of nothing yet has no parameters. -/
lemma compileSource_isNumbered {table : TableExpr} (h : compileSource env compileSub table = .ok p)
    (joins : List JoinSpec) : QueryPlan.IsNumbered ok { p with joins } := by
  have hempty : ∀ (t : TablePlan) (source : Option QueryNode), t.columns = [] →
      QueryPlan.IsNumbered ok { QueryPlan.ofTable t with source, joins } := by
    intro t source ht
    have hnone : ∀ e ∈ (none : Option Expr), ∀ i ∈ e.paramNumbers, ok i = true :=
      fun e he => by cases he
    refine ⟨hnone, hnone, hnone, fun c hc => ?_, fun o ho => absurd ho List.not_mem_nil, .none,
      .none⟩
    change c ∈ t.columns at hc
    rw [ht] at hc
    exact absurd hc List.not_mem_nil
  cases table with
  | named name rename =>
    obtain rfl := Except.ok.inj h
    exact hempty _ none rfl
  | derived q rename =>
    obtain ⟨n, -, h⟩ := bind_eq_ok.mp h
    obtain rfl := Except.ok.inj h
    exact hempty _ (some n) rfl

/-- **The parameters of a compiled selection** in its expressions and limits are parameters of the
selection.

**Proof sketch.** Items, groups and orders only add columns, of which only items are computed. The
condition comes in with `compileWhere`, the condition on groups, the order and the limits with the
steps after it. -/
theorem compileSelect_isNumbered {s : Select} {orderBy : List OrderItem}
    {limit offset : Option Expr} (hs : ∀ i ∈ s.paramNumbers, ok i = true)
    (horderBy : ∀ i ∈ paramNumbersOrder orderBy, ok i = true)
    (hlimit : ∀ i ∈ paramNumbersOption limit, ok i = true)
    (hoffset : ∀ i ∈ paramNumbersOption offset, ok i = true)
    (h : compileSelect env compileSub s orderBy limit offset = .ok p) : p.IsNumbered ok := by
  obtain ⟨_, items, table, joined, condition, groupBy, having⟩ := s
  simp only [Select.paramNumbers, List.mem_append] at hs
  unfold compileSelect at h
  obtain ⟨source, hsource, h⟩ := bind_eq_ok.mp h
  obtain ⟨⟨joins, scope⟩, -, h⟩ := bind_eq_ok.mp h
  simp only at h
  split at h
  · cases h
  obtain ⟨groups, -, h⟩ := bind_eq_ok.mp h
  split at h
  · cases h
  obtain ⟨shown, hshown, h⟩ := bind_eq_ok.mp h
  obtain ⟨filtered, hfiltered, h⟩ := bind_eq_ok.mp h
  obtain ⟨grouped, hgrouped, h⟩ := bind_eq_ok.mp h
  obtain ⟨⟨order, ordered⟩, hordered, h⟩ := bind_eq_ok.mp h
  obtain ⟨reduced, hreduced, h⟩ := bind_eq_ok.mp h
  have hshownKept : shown.IsNumbered ok := by
    refine (compileSource_isNumbered hsource joins).grows
      (addItems_grows (A := True) (fun _ => trivial) (fun e label hmem i hi => hs i ?_) hshown)
    have hunwrap := Expr.paramNumbers_subset e (Expr.parts_unwrap e (Expr.self_mem_parts _)) hi
    exact .inl (paramNumbers_subset_items hmem hunwrap)
  have hfilteredKept : filtered.IsNumbered ok := by
    cases condition with
    | none =>
      obtain rfl := Except.ok.inj hfiltered
      exact hshownKept
    | some e =>
      exact compileWhere_isNumbered hshownKept
        (fun i hi => hs i (.inr (.inr (.inr (.inl hi))))) hfiltered
  have hgroupedKept : grouped.IsNumbered ok := by
    cases having with
    | none =>
      obtain rfl := Except.ok.inj hgrouped
      exact hfilteredKept
    | some e =>
      obtain ⟨m, hm, rfl⟩ := addHaving_grows (A := True) hgrouped
      have hkept := hfilteredKept.grows hm
      refine ⟨hkept.rowFilter, hkept.whereClause, ?_, hkept.columns, hkept.orderBy, hkept.offset,
        hkept.limit⟩
      rintro d ⟨⟩
      exact fun i hi => hs i (.inr (.inr (.inr (.inr (.inr hi)))))
  have hcarried := hgroupedKept.grows (planOrder_grows (A := True) hordered)
  have hreducedKept : reduced.IsNumbered ok := by
    have hwith : QueryPlan.IsNumbered ok { ordered with orderBy := order } :=
      ⟨hcarried.rowFilter, hcarried.whereClause, hcarried.having, hcarried.columns,
        planOrder_areNumbered horderBy hordered, hcarried.offset, hcarried.limit⟩
    unfold addReduction at hreduced
    split at hreduced
    · obtain rfl := Except.ok.inj hreduced
      exact ⟨hwith.rowFilter, hwith.whereClause, hwith.having, hwith.columns, hwith.orderBy,
        hwith.offset, hwith.limit⟩
    · split at hreduced
      · obtain ⟨r, -, hreduced⟩ := bind_eq_ok.mp hreduced
        obtain rfl := Except.ok.inj hreduced
        exact ⟨hwith.rowFilter, hwith.whereClause, hwith.having, hwith.columns, hwith.orderBy,
          hwith.offset, hwith.limit⟩
      · obtain rfl := Except.ok.inj hreduced
        exact hwith
  unfold finishSelect at h
  split at h
  · cases h
  obtain ⟨o, ho, h⟩ := bind_eq_ok.mp h
  obtain ⟨l, hl, h⟩ := bind_eq_ok.mp h
  obtain ⟨js, -, h⟩ := bind_eq_ok.mp h
  obtain ⟨strategy, rfl⟩ := QueryPlan.eq_of_chooseStrategy h
  exact ⟨hreducedKept.rowFilter, hreducedKept.whereClause, hreducedKept.having,
    hreducedKept.columns, hreducedKept.orderBy, optionalRowBound_isNumbered hoffset ho,
    optionalRowBound_isNumbered hlimit hl⟩

end RecordQuery
