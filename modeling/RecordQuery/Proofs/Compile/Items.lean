import RecordQuery.Proofs.Compile.Distinct
import RecordQuery.Proofs.Plan.Cargo

set_option autoImplicit false

/-!
# Selected items of one table

The items of a selection of one table that is not grouped become returned columns, one after the
other, each under its label. What these columns are can be read off the items: a column shows a
place of the record's row, and anything else is computed in the place that has its text for a name.
What expressions need besides is carried and not returned.

## Main definitions

* `labelItems` — selected expressions under their labels; `Column.ofItem` — their columns.
* `Column.addNew` — returned columns with one more.
* `QueryPlan.Gains` — a plan to which returned columns were added.

## Main results

* `addItems_gains` — what a plan with items returns.
* `compileSelect_isListing` — a selection of one table lists records and returns its items.
* `compileSelect_carrying` — the items of a selection are cargo.
-/

namespace RecordQuery

open Outcome

/-! ## Items -/

/-- The label of an expression that was given none, beside labels that are taken: the name of a
column, behind that of its table if the name is taken, and the text of anything else. -/
def Expr.ownLabel (qualifier : String) (taken : List String) : Expr → String
  | .column c => if taken.contains c.name then qualifier ++ "." ++ c.name else c.name
  | e => e.render

/-- Selected expressions under their labels, beside labels that are taken. Stars are left out. -/
def labelItems (qualifier : String) (taken : List String) :
    List SelectItem → List (String × Expr)
  | [] => []
  | .all :: items => labelItems qualifier taken items
  | .expr e label :: items =>
    let l := label.getD (e.unwrap.ownLabel qualifier taken)
    (l, e.unwrap) :: labelItems qualifier (l :: taken) items

/-- Whether an expression refers to the digest. -/
def Expr.mentionsDigest (e : Expr) : Bool := e.columns.any (fun c => c.name == digestColumn)

namespace Column

/-- The returned column of an expression under a label. -/
def ofItem (ns : String) : String × Expr → Column
  | (label, .column c) => ⟨ns, none, c.name, label, c.name,
      if c.name = keyColumn then .key else if c.name = digestColumn then .digest else .bin, false⟩
  | (label, e) => ⟨ns, none, e.render, label, e.render, .computed e, false⟩

/-- Returned columns with one more, unless one returns the same place under the same label. -/
def addNew (cs : List Column) (c : Column) : List Column :=
  if cs.any (fun d => d.source == c.source && d.label == c.label) then cs else cs ++ [c]

variable {c d : Column} {cs ds : List Column}

/-- The column of an item is visible. -/
lemma visible_ofItem (ns : String) (item : String × Expr) : (ofItem ns item).isVisible = true := by
  obtain ⟨label, e⟩ := item
  cases e <;> rfl

/-- The column of an item has the label of the item. -/
lemma label_ofItem (ns : String) (item : String × Expr) : (ofItem ns item).label = item.1 := by
  obtain ⟨label, e⟩ := item
  cases e <;> rfl

/-- A column that is not returned can be dropped from the others. -/
lemma visible_eraseP {f : Column → Bool} (hf : ∀ d, f d = true → d.isVisible = false) :
    visible (cs.eraseP f) = visible cs := by
  induction cs with
  | nil => rfl
  | cons d cs ih =>
    rw [List.eraseP_cons]
    cases hd : f d with
    | true =>
      simp only [cond_true, visible]
      rw [List.filter_cons_of_neg (by simp [hf d hd])]
    | false =>
      simp only [cond_false, visible, List.filter_cons] at ih ⊢
      rw [ih]

/-- The returned columns with one more. -/
lemma visible_add (c : Column) (cs : List Column) :
    visible (c.add cs) = visible cs ++ visible [c] := by
  have herased : visible (if c.isVisible then
      cs.eraseP (fun d => !d.isVisible && d.source == c.source) else cs) = visible cs := by
    split
    · exact visible_eraseP fun d hd => by simp_all
    · rfl
  rw [add, visible, List.filter_append]
  exact congrArg (· ++ visible [c]) herased

/-- Labels under which columns are returned, with one more. -/
lemma mem_labels_addNew {l : String} :
    l ∈ (addNew cs c).map label ↔ l = c.label ∨ l ∈ cs.map label := by
  unfold addNew
  split
  · rename_i hany
    obtain ⟨d, hd, hsame⟩ := List.any_eq_true.mp hany
    simp only [Bool.and_eq_true, beq_iff_eq] at hsame
    refine ⟨.inr, ?_⟩
    rintro (rfl | h)
    · exact hsame.2 ▸ List.mem_map_of_mem hd
    · exact h
  · simp [or_comm]

/-- Columns that are added are those before and some of the others. -/
lemma mem_of_mem_foldl_addNew (h : d ∈ ds.foldl addNew cs) : d ∈ cs ∨ d ∈ ds := by
  induction ds generalizing cs with
  | nil => exact .inl h
  | cons c ds ih =>
    rcases ih h with h | h
    · unfold addNew at h
      split at h
      · exact .inl h
      · rcases List.mem_append.mp h with h | h
        · exact .inl h
        · exact .inr (List.mem_cons.mpr (.inl (List.mem_singleton.mp h)))
    · exact .inr (List.mem_cons_of_mem c h)

/-- Columns under labels of their own are all added. -/
lemma foldl_addNew_of_nodup (h : ((cs ++ ds).map label).Nodup) : ds.foldl addNew cs = cs ++ ds := by
  induction ds generalizing cs with
  | nil => simp
  | cons c ds ih =>
    have hnew : addNew cs c = cs ++ [c] := by
      refine if_neg fun hany => ?_
      obtain ⟨d, hd, hsame⟩ := List.any_eq_true.mp hany
      simp only [Bool.and_eq_true, beq_iff_eq] at hsame
      rw [List.map_append, List.nodup_append] at h
      exact h.2.2 d.label (List.mem_map_of_mem hd) c.label (by simp) hsame.2
    rw [List.foldl_cons, hnew, ih (by simpa using h)]
    simp

end Column

/-! ## Plans with more returned columns -/

/-- A plan of the same table that returns more columns, and whose rows may carry the digest. -/
structure QueryPlan.Gains (p : QueryPlan) (cs : List Column) (digest : Bool) (q : QueryPlan) :
    Prop where
  /-- The namespace is the same. -/
  ns : q.ns = p.ns
  /-- The returned columns are those before and the new ones. -/
  visible : Column.visible q.columns = cs.foldl Column.addNew (Column.visible p.columns)
  /-- The digest is carried if it was before, or is asked for. -/
  needsDigest : q.needsDigest = (p.needsDigest || digest)

namespace QueryPlan

variable {p q r : QueryPlan} {cs ds : List Column} {a b : Bool}

/-- A plan that stays as it is gains nothing. -/
lemma Gains.refl (p : QueryPlan) : p.Gains [] false p := ⟨rfl, rfl, by simp⟩

/-- Some columns after others. -/
lemma Gains.trans (h : p.Gains cs a q) (h' : q.Gains ds b r) : p.Gains (cs ++ ds) (a || b) r :=
  ⟨h'.ns.trans h.ns, by rw [h'.visible, h.visible, List.foldl_append],
    by rw [h'.needsDigest, h.needsDigest, Bool.or_assoc]⟩

/-- A column that is carried and not returned. -/
lemma gains_register_hidden {c : Column} (hc : c.isVisible = false) :
    p.Gains [] false (p.register 0 c) := by
  unfold register
  split
  · exact .refl p
  · refine ⟨rfl, ?_, by simp [mapTable]⟩
    change Column.visible (c.add p.columns) = Column.visible p.columns
    rw [Column.visible_add]
    simp [Column.visible, hc]

/-- A column that is returned. -/
lemma gains_register {c : Column} (hc : c.isVisible = true) :
    p.Gains [c] false (p.register 0 c) := by
  have hcarried : c.isCarriedBy p.columns =
      (Column.visible p.columns).any (fun d => d.source == c.source && d.label == c.label) := by
    rw [Column.isCarriedBy, if_pos hc, Column.visible, List.any_filter]
    simp only [Bool.and_assoc]
  unfold register
  rw [hcarried]
  split
  · rename_i hany
    exact ⟨rfl, (if_pos hany).symm, by simp⟩
  · rename_i hany
    refine ⟨rfl, ?_, by simp [mapTable]⟩
    change Column.visible (c.add p.columns) = Column.addNew _ c
    rw [Column.visible_add, Column.addNew, if_neg hany]
    simp [Column.visible, hc]

/-- The digest, if a column asks for it. -/
lemma gains_requireDigest (p : QueryPlan) (c : ColumnRef) :
    p.Gains [] (c.name == digestColumn)
      (if c.name = digestColumn then p.requireDigest 0 else p) := by
  split
  · rename_i hname
    exact ⟨rfl, rfl, by simp [hname, requireDigest, modifyTable, mapTable]⟩
  · rename_i hname
    exact ⟨rfl, rfl, by simp [hname]⟩

end QueryPlan

/-! ## Items of one table -/

section

variable {t : TableRef} {qualifier : String} {p q : QueryPlan}

/-- The columns that an expression needs are not returned. -/
lemma registerColumns_gains {cs : List ColumnRef} (h : registerColumns [t] p cs = .ok q) :
    p.Gains [] (cs.any (fun c => c.name == digestColumn)) q := by
  induction cs generalizing p with
  | nil =>
    obtain rfl := Except.ok.inj h
    exact .refl p
  | cons c cs ih =>
    obtain ⟨table, htable, h⟩ := bind_eq_ok.mp h
    obtain rfl := Scope.resolve_singleton htable
    have hfirst := (QueryPlan.gains_requireDigest p c).trans
      (QueryPlan.gains_register_hidden (c := QueryPlan.hiddenColumn
        (if c.name = digestColumn then p.requireDigest 0 else p) [t] 0 c.name) rfl)
    simpa using hfirst.trans (ih h)

/-- A returned column of a table.

**Proof sketch.** The column resolves to the only table. If it is the digest, the plan is told to
read digests first, which changes no labels; so the label is the own label of the column, with the
qualifier if the bare name is taken (`hlabel`). -/
lemma addColumnItem_gains (hqualifier : t.qualifier = some qualifier) {c : ColumnRef}
    {label : Option String} (h : addColumnItem [t] none p c label = .ok q) :
    p.Gains [.ofItem p.ns (label.getD (Expr.ownLabel qualifier p.labels (.column c)), .column c)]
      (c.name == digestColumn) q := by
  obtain ⟨table, htable, h⟩ := bind_eq_ok.mp h
  obtain ⟨value, hvalue, h⟩ := bind_eq_ok.mp h
  obtain rfl := Scope.resolve_singleton htable
  obtain rfl := Except.ok.inj hvalue
  obtain rfl := Except.ok.inj h
  have hdigest := QueryPlan.gains_requireDigest p c
  generalize hm : (if c.name = digestColumn then p.requireDigest 0 else p) = m at hdigest ⊢
  have hlabels : m.labels = p.labels := by
    rw [← hm]
    split <;> rfl
  have hlabel : columnLabel m [t] 0 c label =
      label.getD (Expr.ownLabel qualifier p.labels (.column c)) := by
    have hscope : Scope.qualifier [t] 0 = some qualifier := hqualifier
    cases label with
    | some l => rfl
    | none => simp only [columnLabel, hlabels, hscope, Option.getD_none, Expr.ownLabel]
  have hitem : (⟨(m.tableAt 0).ns, Scope.shownTable [t] 0, c.name, columnLabel m [t] 0 c label,
      Scope.rowKey [t] 0 c.name, if c.name = keyColumn then .key else if c.name = digestColumn then
        .digest else .bin, false⟩ : Column) =
      .ofItem p.ns (label.getD (Expr.ownLabel qualifier p.labels (.column c)), .column c) := by
    rw [hlabel, show (m.tableAt 0).ns = p.ns from hdigest.ns]
    rfl
  rw [hitem]
  simpa using hdigest.trans (QueryPlan.gains_register (Column.visible_ofItem p.ns _))

/-- **A returned expression** of a table that calls no aggregate.

**Proof sketch.** A column is `addColumnItem_gains`. Any other expression first has its columns
registered, which shows nothing (`registerColumns_gains`), and is then registered itself under its
text or its alias. -/
lemma addExpr_gains (hqualifier : t.qualifier = some qualifier) {e : Expr} {label : Option String}
    (haggregate : e.hasAggregate = false) (h : addExpr [t] none p e label = .ok q) :
    p.Gains [.ofItem p.ns (label.getD (e.ownLabel qualifier p.labels), e)] e.mentionsDigest q := by
  unfold addExpr at h
  split at h
  · rename_i c
    have hgains := addColumnItem_gains hqualifier h
    simpa [Expr.mentionsDigest, Expr.columns, Expr.addColumns, Expr.addColumn] using hgains
  · rename_i hcolumn
    have hself : e.isAggregate = false := Expr.any_eq_false.mp haggregate e e.self_mem_parts
    rw [hself, if_neg Bool.false_ne_true] at h
    split at h
    · obtain ⟨m, hm, h⟩ := bind_eq_ok.mp h
      obtain rfl := Except.ok.inj h
      have hneeds := registerColumns_gains hm
      have hitem : m.expressionColumn e.render label (.computed e) false =
          .ofItem p.ns (label.getD (e.ownLabel qualifier p.labels), e) := by
        rw [QueryPlan.expressionColumn, hneeds.ns]
        cases e <;> first | rfl | exact absurd rfl (hcolumn _)
      rw [hitem]
      simpa [Expr.mentionsDigest] using
        hneeds.trans (QueryPlan.gains_register (Column.visible_ofItem _ _))
    · cases h

/-- **What a plan with items returns.** Added one after the other, they are returned in order, each
under its label, unless the same place was returned under the same label before.

**Proof sketch.** Induction on the items, with the list of labels taken so far. What the first item
adds is `addExpr_gains`, and the labels taken afterwards are those of the plan that it leaves
(`hlabels`). -/
theorem addItems_gains (hqualifier : t.qualifier = some qualifier) {items : List SelectItem}
    (haggregate : ∀ i ∈ items, i.hasAggregate = false) {taken : List String}
    (htaken : ∀ l, l ∈ taken ↔ l ∈ p.labels) (h : addItems [t] none p items = .ok q) :
    p.Gains ((labelItems qualifier taken items).map (Column.ofItem p.ns))
      ((labelItems qualifier taken items).any (fun i => i.2.mentionsDigest)) q := by
  induction items generalizing p taken with
  | nil =>
    obtain rfl := Except.ok.inj h
    exact .refl p
  | cons i items ih =>
    obtain ⟨m, hm, hmore⟩ := bind_eq_ok.mp h
    have hrest : ∀ i ∈ items, i.hasAggregate = false := fun i hi => haggregate i (by simp [hi])
    cases i with
    | all =>
      obtain rfl := Except.ok.inj hm
      obtain ⟨hns, hvisible, hdigest⟩ := ih (p := { p with wildcard := true }) hrest htaken hmore
      exact ⟨hns, hvisible, hdigest⟩
    | expr e label =>
      have hunwrap : e.unwrap.hasAggregate = false := Expr.any_eq_false.mpr fun s hs =>
        Expr.any_eq_false.mp (haggregate _ List.mem_cons_self) s (e.parts_unwrap hs)
      have hfirst := addExpr_gains hqualifier hunwrap hm
      have hown : e.unwrap.ownLabel qualifier p.labels = e.unwrap.ownLabel qualifier taken := by
        unfold Expr.ownLabel
        split
        · simp only [List.contains_iff_mem, htaken]
        · rfl
      rw [hown] at hfirst
      have hlabels : ∀ l, l ∈ label.getD (e.unwrap.ownLabel qualifier taken) :: taken ↔
          l ∈ m.labels := by
        intro l
        change _ ↔ l ∈ (Column.visible m.columns).map Column.label
        rw [hfirst.visible, List.foldl_cons, List.foldl_nil, Column.mem_labels_addNew,
          Column.label_ofItem, List.mem_cons, htaken]
        rfl
      have hsecond := ih hrest hlabels hmore
      rw [hfirst.ns] at hsecond
      exact hfirst.trans hsecond

end

/-! ## Conditions and cargo -/

section

variable {compileSub : Query → Except QueryError QueryNode} {p q : QueryPlan} {ns set : String}

/-- Conditions are put to a table whatever its rows carry. -/
lemma TablePlan.foldl_addNative_carrying (natives : List NativeCondition) (t : TablePlan)
    (columns : List Column) (needsDigest : Bool) :
    natives.foldl TablePlan.addNative { t with columns, needsDigest } =
      { natives.foldl TablePlan.addNative t with columns, needsDigest } := by
  induction natives generalizing t with
  | nil => rfl
  | cons n natives ih =>
    rw [List.foldl_cons, List.foldl_cons, ← ih]
    cases n <;> rfl

/-- **The condition on the main table ignores the cargo.** -/
lemma ignoresCargo_compileMain (scope : Scope) (conjuncts : List Expr) (whole : Expr) :
    QueryPlan.IgnoresCargo fun p => compileMain compileSub scope p conjuncts whole := by
  intro p c
  have hmain : mainConditions compileSub scope (p.carrying c) conjuncts =
      mainConditions compileSub scope p conjuncts := rfl
  simp only [compileMain, hmain, map_bind]
  refine bind_congr fun found => ?_
  split
  · simp only [QueryPlan.carrying, TablePlan.foldl_addNative_carrying]
    rfl
  · split <;> rfl

/-- **A condition ignores the cargo.** -/
lemma ignoresCargo_compileWhere (scope : Scope) (condition : Expr) :
    QueryPlan.IgnoresCargo fun p => compileWhere compileSub scope p condition := by
  intro p c
  simp only [compileWhere, map_bind]
  refine bind_congr fun routed => ?_
  have hjoins : QueryPlan.IgnoresCargo fun p => (do
      let joins ← compileJoins compileSub scope routed 1 p.joins
      return { p with joins } : Except QueryError QueryPlan) := by
    intro p c
    simp only [map_bind]
    rfl
  split
  · exact ((ignoresCargo_compileMain scope _ _).bind hjoins) p c
  · exact hjoins p c

/-- **Limits and strategies ignore the cargo.** -/
lemma ignoresCargo_finishSelect (limit offset : Option Expr) :
    QueryPlan.IgnoresCargo (finishSelect limit offset) := by
  intro p c
  have hguard : (p.carrying c).rowFilter = p.rowFilter := rfl
  have hreduction : (p.carrying c).reduction = p.reduction := rfl
  have hsource : (p.carrying c).source = p.source := rfl
  have hjoins : (p.carrying c).joins = p.joins := rfl
  simp only [finishSelect, hguard, hreduction, hsource, hjoins]
  split
  · rfl
  · simp only [map_bind]
    exact bind_congr fun o => bind_congr fun l => bind_congr fun joins =>
      QueryPlan.ignoresCargo_chooseStrategy { p with joins, offset := o, limit := l } c

namespace QueryPlan

/-- The plan of a selection from that of its items: with the condition, in an order and with
limits. -/
def completed (compileSub : Query → Except QueryError QueryNode) (scope : Scope)
    (condition : Option Expr) (order : List OrderSpec) (limit offset : Option Expr)
    (shown : QueryPlan) : Except QueryError QueryPlan := do
  let filtered ← shown.withOption (compileWhere compileSub scope) condition
  finishSelect limit offset { filtered with orderBy := order }

variable {scope : Scope} {condition : Option Expr} {order : List OrderSpec}
  {limit offset : Option Expr} {t : TableRef}

/-- **What follows the items ignores the cargo.** -/
lemma ignoresCargo_completed : IgnoresCargo (completed compileSub scope condition order limit
    offset) := by
  have hfinish : IgnoresCargo fun p : QueryPlan =>
      finishSelect limit offset { p with orderBy := order } := fun p c =>
    ignoresCargo_finishSelect limit offset { p with orderBy := order } c
  cases condition with
  | none => exact hfinish
  | some e => exact (ignoresCargo_compileWhere scope e).bind hfinish

/-- A condition on one table leaves a listing a listing, and is all that it decides row by row. -/
lemma IsListing.compileWhere {condition : Expr} (h : p.IsListing ns set)
    (hfree : p.DecidesOnly none) (hq : compileWhere compileSub [t] p condition = .ok q) :
    q.IsListing ns set ∧ q.DecidesOnly (some condition) := by
  obtain ⟨m, joins, hm, hjoins, rfl⟩ := compileWhere_singleton hq
  have hmain : m.IsListing ns set ∧ m.DecidesOnly (some condition) := by
    have hfilter : ∀ e ∈ p.rowFilter, e ∈ some condition := fun e he =>
      nomatch hfree.rowFilter e he
    have hclause : ∀ e ∈ p.whereClause, e ∈ some condition := fun e he =>
      nomatch hfree.whereClause e he
    rcases compileMain_cases hm with ⟨-, parts, slots, -, -, rfl⟩ | ⟨-, rfl⟩
    · rw [TablePlan.foldl_addNative_eq]
      refine ⟨{ h with }, hfilter, fun e he => ?_⟩
      simp only at he
      split at he
      · exact hclause e he
      · exact he
    · exact ⟨{ h with }, fun e he => he, hclause⟩
  rw [hmain.1.joins] at hjoins
  obtain rfl := Except.ok.inj hjoins
  exact ⟨{ hmain.1 with joins := rfl }, { hmain.2 with }⟩

section

variable (h : p.IsListing ns set) (hfree : p.DecidesOnly none)

include h hfree

/-- The last step of a listing: the order, the limits and the strategy. -/
lemma IsListing.exists_of_completed
    (hq : p.completed compileSub [t] condition order limit offset = .ok q) :
    ∃ (m : QueryPlan) (o l : Option RowBound), m.IsListing ns set ∧ m.DecidesOnly condition ∧
      optionalRowBound offset = .ok o ∧ optionalRowBound limit = .ok l ∧
        ({ m with orderBy := order, offset := o, limit := l } : QueryPlan).chooseStrategy =
          .ok q := by
  obtain ⟨filtered, hfiltered, hq⟩ := bind_eq_ok.mp hq
  have hlisting : filtered.IsListing ns set ∧ filtered.DecidesOnly condition := by
    cases condition with
    | none =>
      obtain rfl := Except.ok.inj hfiltered
      exact ⟨h, hfree⟩
    | some e => exact h.compileWhere hfree hfiltered
  obtain ⟨-, o, l, ho, hl, hq⟩ :=
    finishSelect_single (p := { filtered with orderBy := order }) hlisting.1.joins hq
  exact ⟨{ filtered with joins := [] }, o, l, { hlisting.1 with joins := rfl },
    { hlisting.2 with }, ho, hl, hq⟩

/-- **What follows the items leaves a listing a listing**, and decides the condition row by row or
nothing. -/
lemma IsListing.completed
    (hq : p.completed compileSub [t] condition order limit offset = .ok q) :
    q.IsListing ns set ∧ q.DecidesOnly condition := by
  obtain ⟨m, o, l, hm, hcondition, -, -, hq⟩ := h.exists_of_completed hfree hq
  constructor
  · refine IsListing.chooseStrategy ?_ hq
    exact { hm with }
  · refine DecidesOnly.chooseStrategy ?_ hq
    exact { hcondition with }

/-- Without order and limits all rows are returned as they come. -/
lemma IsListing.isUnpaged_completed
    (hq : p.completed compileSub [t] condition [] none none = .ok q) : q.IsUnpaged := by
  obtain ⟨m, o, l, -, -, ho, hl, hq⟩ := h.exists_of_completed hfree hq
  refine IsUnpaged.chooseStrategy ?_ hq
  exact ⟨rfl, (Except.ok.inj ho).symm, (Except.ok.inj hl).symm⟩

end

end QueryPlan

end

/-! ## Selections -/

section

variable {env : CompileEnv} {compileSub : Query → Except QueryError QueryNode} {s : Select}
  {name : TableName} {rename : Option String} {orderBy : List OrderItem}
  {limit offset : Option Expr} {p p' : QueryPlan}

/-- Without groups an order needs nothing more of the plan.

**Proof sketch.** Induction on the order. A sort key without groups is a position, a label or an
expression over the row, and none of these is registered. -/
lemma eq_of_planOrder {scope : Scope} {q : QueryPlan} {order : List OrderSpec}
    (h : planOrder scope none p orderBy = .ok (order, q)) : q = p := by
  induction orderBy generalizing order with
  | nil => exact (Prod.mk.inj (Except.ok.inj h)).2.symm
  | cons o items ih =>
    simp only [planOrder, bind_eq_ok, pure_eq_ok] at h
    obtain ⟨⟨key, m⟩, hm, ⟨specs, last⟩, hlast, h⟩ := h
    obtain ⟨-, rfl⟩ := Prod.mk.inj h
    have hsame : m = p := by
      unfold planOrderKey at hm
      split at hm
      · split at hm
        · exact (Prod.mk.inj (Except.ok.inj hm)).2.symm
        · cases hm
      · split at hm
        · exact (Prod.mk.inj (Except.ok.inj hm)).2.symm
        · obtain ⟨k, hk, hm⟩ := bind_eq_ok.mp hm
          obtain ⟨table, -, hm⟩ := bind_eq_ok.mp hm
          exact (Prod.mk.inj (Except.ok.inj hm)).2.symm.trans (Except.ok.inj hk).symm
      · split at hm
        · cases hm
        · exact (Prod.mk.inj (Except.ok.inj hm)).2.symm
    subst hsame
    exact ih hlast

/-- **The steps of a selection of one table** that is not grouped: items, and what follows them. -/
lemma exists_of_compileSelect (hsource : s.source = .named name rename) (hjoins : s.joins = [])
    (hdistinct : s.distinct = false) (hgrouped : s.isGrouped orderBy = false)
    (h : compileSelect env compileSub s orderBy limit offset = .ok p) :
    ∃ shown order, addItems [⟨some name.name, rename⟩] none (.ofTable (env.tablePlan name rename))
        s.items = .ok shown ∧
      shown.completed compileSub [⟨some name.name, rename⟩] s.condition order limit offset =
        .ok p ∧ (orderBy = [] → order = []) := by
  rw [compileSelect_ungrouped hjoins hgrouped, hsource, hdistinct] at h
  obtain ⟨source, hsource, h⟩ := bind_eq_ok.mp h
  obtain rfl := Except.ok.inj hsource
  obtain ⟨shown, hshown, h⟩ := bind_eq_ok.mp h
  obtain ⟨filtered, hfiltered, h⟩ := bind_eq_ok.mp h
  obtain ⟨⟨order, ordered⟩, horder, h⟩ := bind_eq_ok.mp h
  obtain ⟨reduced, hreduced, h⟩ := bind_eq_ok.mp h
  obtain rfl := eq_of_planOrder horder
  obtain rfl := Except.ok.inj hreduced
  refine ⟨shown, order, hshown, bind_eq_ok.mpr ⟨_, hfiltered, h⟩, ?_⟩
  rintro rfl
  exact (Prod.mk.inj (Except.ok.inj horder)).1.symm

/-- No item of a selection that is not grouped calls an aggregate. -/
lemma hasAggregate_of_isGrouped (hgrouped : s.isGrouped orderBy = false) :
    ∀ i ∈ s.items, i.hasAggregate = false := by
  simp only [Select.isGrouped, Bool.or_eq_false_iff, List.any_eq_false] at hgrouped
  exact fun i hi => Bool.eq_false_iff.mpr (hgrouped.1.2 i hi)

/-- Items are cargo. -/
lemma carrying_addItems {t : TableRef} {items : List SelectItem} {q : QueryPlan}
    (hjoins : p.joins = []) (h : addItems [t] none p items = .ok q) : q = p.carrying q.cargo := by
  obtain ⟨htable, hjoined, hrest⟩ := (addItems_own h).sameReading
  rw [hjoins] at hjoined
  have hsame : q.joins = p.joins := by rw [hjoins, List.forall₂_nil_left_iff.mp hjoined]
  calc
    q = { p with toTablePlan := q.toTablePlan, wildcard := q.wildcard, joins := q.joins } := hrest
    _ = { p with toTablePlan := q.toTablePlan, wildcard := q.wildcard } := by rw [hsame]
    _ = p.carrying q.cargo :=
      congrArg (fun t => { p with toTablePlan := t, wildcard := q.wildcard }) htable

/-- The plan of the items of a table lists its records, all of them. -/
lemma isListing_addItems {t : TableRef} {items : List SelectItem} {q : QueryPlan}
    (h : addItems [t] none (.ofTable (env.tablePlan name rename)) items = .ok q) :
    q.IsListing (env.namespaceOf name) name.name ∧ q.DecidesOnly none := by
  rw [carrying_addItems rfl h]
  exact ⟨⟨rfl, rfl, rfl, rfl, rfl, rfl⟩, fun e he => he, fun e he => he⟩

/-- **What a selection of one table returns.** It lists the records of the table and decides the
condition row by row or nothing, and the columns that it returns are those of its items.

**Proof sketch.** The compilation is taken apart once (`exists_of_compileSelect`). What is returned
has been decided when the items are added (`addItems_gains`), since condition, order and limits
leave this part of the plan alone (`QueryPlan.ignoresCargo_completed`). -/
theorem compileSelect_isListing (hsource : s.source = .named name rename) (hjoins : s.joins = [])
    (hdistinct : s.distinct = false) (hgrouped : s.isGrouped orderBy = false)
    (h : compileSelect env compileSub s orderBy limit offset = .ok p) :
    p.IsListing (env.namespaceOf name) name.name ∧ p.DecidesOnly s.condition ∧
      Column.visible p.columns = ((labelItems (rename.getD name.name) [] s.items).map
        (Column.ofItem (env.namespaceOf name))).foldl Column.addNew [] ∧
      p.needsDigest =
        (labelItems (rename.getD name.name) [] s.items).any (fun i => i.2.mentionsDigest) ∧
      (.all ∉ s.items → p.wildcard = false) := by
  obtain ⟨shown, order, hshown, hp, -⟩ :=
    exists_of_compileSelect hsource hjoins hdistinct hgrouped h
  have hcargo := (QueryPlan.ignoresCargo_completed.of_eq_ok hp).1
  have hqualifier : TableRef.qualifier ⟨some name.name, rename⟩ = some (rename.getD name.name) := by
    cases rename <;> rfl
  have hlabels : ∀ l, l ∈ ([] : List String) ↔
      l ∈ (QueryPlan.ofTable (env.tablePlan name rename)).labels := fun l => Iff.rfl
  have hgains := addItems_gains hqualifier (hasAggregate_of_isGrouped hgrouped) hlabels hshown
  obtain ⟨hlisting, hfree⟩ := isListing_addItems hshown
  obtain ⟨hlisted, hcondition⟩ := hlisting.completed hfree hp
  refine ⟨hlisted, hcondition, ?_, ?_, fun hstar => ?_⟩
  · rw [show p.columns = shown.columns from congrArg QueryPlan.Cargo.columns hcargo]
    exact hgains.visible
  · rw [show p.needsDigest = shown.needsDigest from congrArg QueryPlan.Cargo.needsDigest hcargo]
    exact hgains.needsDigest
  · rw [show p.wildcard = shown.wildcard from congrArg QueryPlan.Cargo.wildcard hcargo]
    have hgrows : QueryPlan.Grows False (Column.Computes fun _ => True) _ shown :=
      addItems_grows hstar (fun _ _ _ => trivial) hshown
    exact hgrows.wildcard_eq

/-- Without order and limits it returns its rows as they come. -/
lemma compileSelect_isUnpaged (hsource : s.source = .named name rename) (hjoins : s.joins = [])
    (hdistinct : s.distinct = false) (hgrouped : s.isGrouped [] = false)
    (h : compileSelect env compileSub s [] none none = .ok p) : p.IsUnpaged := by
  obtain ⟨shown, order, hshown, hp, horder⟩ :=
    exists_of_compileSelect hsource hjoins hdistinct hgrouped h
  rw [horder rfl] at hp
  obtain ⟨hlisting, hfree⟩ := isListing_addItems hshown
  exact hlisting.isUnpaged_completed hfree hp

/-- **The items of a selection are cargo.** Two selections of one table that differ in them have
plans that differ in what they carry. -/
theorem compileSelect_carrying {items : List SelectItem} (hsource : s.source = .named name rename)
    (hjoins : s.joins = []) (hdistinct : s.distinct = false) (hgrouped : s.isGrouped [] = false)
    (hgrouped' : Select.isGrouped { s with items } [] = false)
    (h : compileSelect env compileSub s [] limit offset = .ok p)
    (h' : compileSelect env compileSub { s with items } [] limit offset = .ok p') :
    p' = p.carrying p'.cargo := by
  obtain ⟨shown, order, hshown, hp, horder⟩ :=
    exists_of_compileSelect hsource hjoins hdistinct hgrouped h
  obtain ⟨shown', order', hshown', hp', horder'⟩ :=
    exists_of_compileSelect (s := { s with items }) hsource hjoins hdistinct hgrouped' h'
  rw [horder rfl] at hp
  rw [horder' rfl] at hp'
  have hboth : shown' = shown.carrying shown'.cargo := by
    rw [carrying_addItems rfl hshown, QueryPlan.carrying_carrying]
    exact carrying_addItems rfl hshown'
  rw [hboth, (QueryPlan.ignoresCargo_completed.of_eq_ok hp).2] at hp'
  obtain rfl := Except.ok.inj hp'
  rfl

end

end RecordQuery
