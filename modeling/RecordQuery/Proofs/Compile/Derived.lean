import RecordQuery.Proofs.Compile.Depth
import RecordQuery.Proofs.Compile.Grouped
import RecordQuery.Proofs.Duplicates

set_option autoImplicit false

/-!
# Grouped selections of the rows of a query

A grouped selection can be made from a set under a condition, or from the query of all columns of
the records that satisfy this condition. Both compile to plans that group the same records and do
the same with the groups, if the store decides the condition by bins.

## Main definitions

* `Expr.IsOnBins` — the store decides a condition by bins alone.
* `Select.records`, `Select.overRecords` — the query of the records that a selection groups, and the
  selection from this query.
* `QueryPlan.Alongside` — the plans of the two selections in the course of compilation.

## Main results

* `QueryPlan.exists_of_isOnBins` — a condition on bins becomes the same condition in all plans.
* `QueryPlan.Alongside.groupsAlike` — the last step of the compilation.
* `agree_compileSelect` — the plans of the two selections.
-/

namespace RecordQuery

open Outcome

/-! ## Conditions on bins -/

/-- The store decides a condition on a table by bins alone: every conjunct becomes a condition on
bins, and no query is asked. -/
def Expr.IsOnBins (t : TableRef) (w : Expr) : Prop :=
  ∃ cs : List Condition,
    (compileConjuncts (fun _ => .error .nestingTooDeep) [t] 0 w.conjuncts).run [] =
      .ok (cs.map fun c => some (.bins c), [])

/-- Conditions on bins change nothing else, and nothing else has a part in what they become. -/
lemma foldl_addNative_bins (cs : List Condition) (d : Option Condition) :
    ∃ c, ∀ t : TablePlan, t.condition = d →
      (cs.map NativeCondition.bins).foldl TablePlan.addNative t = { t with condition := c } := by
  induction cs generalizing d with
  | nil => exact ⟨d, fun t ht => by rw [← ht]; rfl⟩
  | cons c cs ih =>
    obtain ⟨e, he⟩ : ∃ e, ∀ t : TablePlan, t.condition = d →
        t.addCondition c = { t with condition := e } := by
      cases d with
      | none => exact ⟨some c, fun t ht => by simp only [TablePlan.addCondition, ht]⟩
      | some d => exact ⟨some (.all [d, c]), fun t ht => by simp only [TablePlan.addCondition, ht]⟩
    obtain ⟨f, hf⟩ := ih e
    refine ⟨f, fun t ht => ?_⟩
    change (cs.map NativeCondition.bins).foldl TablePlan.addNative (t.addCondition c) = _
    rw [he t ht, hf _ rfl]

namespace QueryPlan

variable {p p' q q' start start' : QueryPlan} {t t' : TableRef}

/-- **A condition on bins** becomes the same condition in all plans that had none.

**Proof sketch.** The conditions on bins are found by any way to compile queries, since none is
compiled (`follows_mainConditions_eq`), and adding them gives the same condition wherever there was
none (`foldl_addNative_bins`). There are no joined tables that could take a conjunct. -/
lemma exists_of_isOnBins {w : Expr} (h : w.IsOnBins t) :
    ∃ c, ∀ (compileSub : Query → Except QueryError QueryNode) (p q : QueryPlan), p.source = none →
      p.joins = [] → p.condition = none → p.subqueries = [] →
        compileWhere compileSub [t] p w = .ok q →
          ∃ clause, q = { p with condition := c, whereClause := clause } := by
  obtain ⟨cs, hcs⟩ := h
  obtain ⟨c, hc⟩ := foldl_addNative_bins cs none
  refine ⟨c, fun compileSub p q hsource hjoins hcondition hslots hq => ?_⟩
  obtain ⟨m, joins, hm, hjoined, rfl⟩ := compileWhere_singleton hq
  -- no query is compiled, so any other way to compile queries does as well
  have hnatives : mainConditions compileSub [t] p w.conjuncts =
      .ok (cs.map fun c => some (.bins c), []) := by
    have hnone : mainConditions (fun _ => .error .nestingTooDeep) [t] p w.conjuncts =
        .ok (cs.map fun c => some (.bins c), []) := by
      rw [mainConditions, hsource]
      exact hcs
    obtain ⟨b, hb, rfl⟩ := follows_mainConditions_eq (fun q => .error .nestingTooDeep) p
      w.conjuncts _ hnone
    exact hb
  simp only [compileMain, hnatives, ok_bind] at hm
  have hdecided : (cs.map fun c => some (NativeCondition.bins c)).all Option.isSome = true := by
    simp
  have hbins : (cs.map fun c => some (NativeCondition.bins c)).filterMap id =
      cs.map NativeCondition.bins := by
    simp [List.filterMap_map]
  rw [if_pos hdecided, hbins, hc _ hcondition] at hm
  obtain rfl := Except.ok.inj hm
  rw [show compileJoins compileSub [t] _ 1 p.joins = .ok [] by rw [hjoins]; rfl] at hjoined
  obtain rfl := Except.ok.inj hjoined
  exact ⟨_, by rw [← hjoins, ← hslots]⟩

/-- A condition on bins, if there is one. -/
lemma exists_of_option_isOnBins {w : Option Expr} (h : ∀ e ∈ w, e.IsOnBins t) :
    ∃ c, ∀ (compileSub : Query → Except QueryError QueryNode) (p q : QueryPlan), p.source = none →
      p.joins = [] → p.condition = none → p.subqueries = [] →
        p.withOption (compileWhere compileSub [t]) w = .ok q →
          ∃ clause, q = { p with condition := c, whereClause := clause } := by
  cases w with
  | some e => exact exists_of_isOnBins (h e rfl)
  | none =>
    refine ⟨none, fun _ p q _ _ hcondition _ hq => ⟨p.whereClause, ?_⟩⟩
    rw [← hcondition, ← Except.ok.inj hq]
    cases p
    rfl

/-! ## Two plans side by side -/

/-- More columns of a plan without joins. -/
lemma SameReading.eq_of_joins (h : p.SameReading q) (hjoins : p.joins = []) :
    q = { p with columns := q.columns, needsDigest := q.needsDigest, wildcard := q.wildcard } := by
  have hboth := h.joins
  rw [hjoins, List.forall₂_nil_left_iff] at hboth
  have hrest := h.rest
  rw [hboth, ← hjoins, show q.toTablePlan = _ from h.table] at hrest
  exact hrest

/-- The plans of two selections to which the same columns were added. -/
structure Alongside (start start' p p' : QueryPlan) : Prop where
  /-- They carry the same columns. -/
  parallel : p.Parallel (fun _ => True) p'
  /-- Columns were added to the first plan. -/
  adds : p = { start with
    columns := p.columns, needsDigest := p.needsDigest, wildcard := p.wildcard }
  /-- Columns were added to the second one. -/
  adds' : p' = { start' with
    columns := p'.columns, needsDigest := p'.needsDigest, wildcard := p'.wildcard }

namespace Alongside

/-- No column was added. -/
lemma refl (h : start.Parallel (fun _ => True) start') : Alongside start start' start start' :=
  ⟨h, by cases start; rfl, by cases start'; rfl⟩

/-- **More columns** in both plans. -/
lemma grows (h : Alongside start start' p p') (hjoins : start.joins = [])
    (hjoins' : start'.joins = []) (hq : p.SameReading q) (hq' : p'.SameReading q')
    (hboth : q.Parallel (fun _ => True) q') : Alongside start start' q q' := by
  refine ⟨hboth, ?_, ?_⟩
  · rw [hq.eq_of_joins (by rw [h.adds]; exact hjoins), h.adds]
  · rw [hq'.eq_of_joins (by rw [h.adds']; exact hjoins'), h.adds']

/-- A condition on the records of the first plan. -/
lemma withCondition (h : Alongside start start' p p') (c : Option Condition)
    (clause : Option Expr) :
    Alongside { start with condition := c, whereClause := clause } start'
      { p with condition := c, whereClause := clause } p' :=
  ⟨{ h.parallel with }, by rw [h.adds], h.adds'⟩

/-- The condition on groups. -/
lemma withHaving {groups : List String} {having : Option Expr} (h : Alongside start start' p p')
    (hjoins : start.joins = []) (hjoins' : start'.joins = []) (hnone : start.having = none)
    (hnone' : start'.having = none)
    (hq : p.withOption (addHaving [t] groups) having = .ok q)
    (hq' : p'.withOption (addHaving [t'] groups) having = .ok q') :
    Alongside { start with having } { start' with having } q q' := by
  cases having with
  | none =>
    obtain rfl := Except.ok.inj hq
    obtain rfl := Except.ok.inj hq'
    exact ⟨h.parallel, by rw [← hnone]; exact h.adds, by rw [← hnone']; exact h.adds'⟩
  | some e =>
    obtain ⟨hboth, -, -⟩ := agree_addHaving h.parallel e q q' hq hq'
    obtain ⟨m, hm, rfl⟩ := addHaving_grows (A := False) (E := fun _ => True) hq
    obtain ⟨m', hm', rfl⟩ := addHaving_grows (A := False) (E := fun _ => True) hq'
    refine ⟨hboth, ?_, ?_⟩
    · rw [hm.sameReading.eq_of_joins (by rw [h.adds]; exact hjoins), h.adds]
    · rw [hm'.sameReading.eq_of_joins (by rw [h.adds']; exact hjoins'), h.adds']

/-- The selected items. Either the two tables have the same name, or no label needs it. -/
lemma ofItems {groups : List String} {items : List SelectItem}
    (hlabels : t.qualifier = t'.qualifier ∨ LabelsApart items)
    (hempty : ∀ B, start.Parallel B start') (hjoins : start.joins = [])
    (hjoins' : start'.joins = []) (hq : addItems [t] (some groups) start items = .ok q)
    (hq' : addItems [t'] (some groups) start' items = .ok q') : Alongside start start' q q' := by
  have hboth : q.Parallel (fun _ => True) q' := by
    rcases hlabels with hname | hapart
    · exact agree_addItems (hempty fun _ => True) (.inl ⟨hname, fun _ => trivial⟩) q q' hq hq'
    · exact agree_addItems (hempty fun _ => False) (.inr ⟨hapart, fun _ _ _ _ => id⟩) q q' hq hq'
  refine (Alongside.refl (hempty _)).grows hjoins hjoins' ?_ ?_ hboth
  · exact (addItems_grows (A := True) (E := fun _ => True) (fun _ => trivial)
      (fun _ _ _ => trivial) hq).sameReading
  · exact (addItems_grows (A := True) (E := fun _ => True) (fun _ => trivial)
      (fun _ _ _ => trivial) hq').sameReading

/-- The order of the rows. -/
lemma planOrder_eq {groups : List String} {orderBy : List OrderItem} {order order' : List OrderSpec}
    (h : Alongside start start' p p') (hjoins : start.joins = []) (hjoins' : start'.joins = [])
    (hq : planOrder [t] (some groups) p orderBy = .ok (order, q))
    (hq' : planOrder [t'] (some groups) p' orderBy = .ok (order', q')) :
    order = order' ∧ Alongside start start' q q' := by
  obtain ⟨horder, hboth⟩ := agree_planOrder h.parallel orderBy _ _ hq hq'
  exact ⟨horder, h.grows hjoins hjoins'
    (planOrder_grows (A := True) (E := fun _ => True) hq).sameReading
    (planOrder_grows (A := True) (E := fun _ => True) hq').sameReading hboth⟩

end Alongside

end QueryPlan

/-! ## Reductions -/

namespace QueryPlan

variable {p : QueryPlan}

/-- The aggregates that a plan asks for are those of its columns. -/
lemma mem_aggregateTexts {text : String} (h : text ∈ p.aggregateTexts) :
    ∃ c ∈ p.columns, ∃ s, c.value.spec? = some s ∧ s.text = text := by
  rw [aggregateTexts, foldl_eq_eraseDups, List.mem_eraseDups] at h
  obtain ⟨c, hc, hspec⟩ := List.mem_filterMap.mp h
  obtain ⟨s, hs, rfl⟩ := Option.map_eq_some_iff.mp hspec
  exact ⟨c, hc, s, hs, rfl⟩

/-- **The reduction of a grouped plan** groups by bins and aggregates bins. -/
lemma names_aggregation {groups : List String} (hgroups : ∀ g ∈ groups, IsBinName g)
    (h : ∀ c ∈ p.columns, ∀ s, c.value.spec? = some s → s.OfBin) :
    (p.aggregation groups).call.Names IsBinName := by
  have htexts : AggregateSpec.TextsName IsBinName p.aggregateTexts := by
    intro text htext
    obtain ⟨c, hc, s, hs, rfl⟩ := mem_aggregateTexts htext
    exact ⟨s, rfl, h c hc s hs⟩
  unfold aggregation
  simp only
  split
  · exact .stats htexts
  · exact .groupBy hgroups htexts

end QueryPlan

/-! ## Selections -/

namespace Select

/-- The query of the records that a selection reads: the same table, joins and condition, and all
columns. -/
def records (s : Select) : Select :=
  { s with distinct := false, items := [.all], groupBy := [], having := none }

/-- The same selection from the query of its records, under another name or none. -/
def overRecords (s : Select) (byname : Option String) : Select :=
  { s with source := .derived ⟨.select s.records, [], none, none⟩ byname, condition := none }

end Select

section

variable {env : CompileEnv}
  {compileSub compileSub' compileSub'' : Query → Except QueryError QueryNode} {s : Select}
  {orderBy : List OrderItem} {limit offset : Option Expr} {p q : QueryPlan}

/-- What compiling a grouped selection of one table comes to. -/
lemma compileSelect_groups (hjoins : s.joins = []) (hgrouped : s.isGrouped orderBy = true) :
    compileSelect env compileSub s orderBy limit offset = (do
      let source ← compileSource env compileSub s.source
      let scope : Scope := [⟨source.set, source.rename⟩]
      let groups ← groupColumns scope [] s.groupBy
      if s.having.isSome && !s.hasGroups then throw .havingWithoutGroup
      let shown ← addItems scope (some groups) { source with joins := [] } s.items
      let filtered ← shown.withOption (compileWhere compileSub scope) s.condition
      let grouped ← filtered.withOption (addHaving scope groups) s.having
      let (order, ordered) ← planOrder scope (some groups) grouped orderBy
      finishSelect limit offset
        { ordered with orderBy := order, reduction := some (ordered.aggregation groups) }) := by
  obtain ⟨distinct, items, source, joins, condition, groupBy, having⟩ := s
  obtain rfl : joins = [] := hjoins
  simp only [compileSelect, hgrouped]
  rfl

/-- What compiling the query of the records comes to. -/
lemma compileSelect_records {name : TableName} {rename : Option String}
    (hsource : s.source = .named name rename) (hjoins : s.joins = [])
    (h : compileSelect env compileSub s.records [] none none = .ok q) :
    ∃ filtered, ({ QueryPlan.ofTable (env.tablePlan name rename) with
        wildcard := true } : QueryPlan).withOption
          (compileWhere compileSub [⟨some name.name, rename⟩]) s.condition = .ok filtered ∧
      (filtered.joins = [] → ({ filtered with
        joins := [], orderBy := [], offset := none, limit := none } :
          QueryPlan).chooseStrategy = .ok q) := by
  rw [compileSelect_single (s := s.records) hjoins rfl] at h
  rw [show s.records.source = .named name rename from hsource] at h
  obtain ⟨start, hstart, h⟩ := bind_eq_ok.mp h
  obtain rfl := Except.ok.inj hstart
  obtain ⟨shown, hshown, h⟩ := bind_eq_ok.mp h
  obtain rfl := Except.ok.inj hshown
  obtain ⟨filtered, hfiltered, h⟩ := bind_eq_ok.mp h
  exact ⟨filtered, hfiltered, fun hjoins => (finishSelect_plain
    (p := { filtered with orderBy := [] }) hjoins h).2⟩

/-- **The last step** for two plans that carry the same columns. The first one reads the records of
a set that satisfy a condition, and the second one the rows of the plan that returns them.

**Proof sketch.** Both plans are written with the columns that were added to them, and they have the
same aggregation (`aggregation_eq`). The last step is taken apart for both (`finishSelect_single`),
so limit, offset and order are the same; what a strategy changes is one field
(`QueryPlan.eq_of_chooseStrategy`). -/
lemma QueryPlan.Alongside.groupsAlike {name : TableName} {rename byname : Option String}
    {c : Option Condition} {clause clause' : Option Expr} {having : Option Expr}
    {groups : List String} {order : List OrderSpec} {base p p' q q' : QueryPlan}
    (hbase : ({ QueryPlan.ofTable (env.tablePlan name rename) with
      condition := c, wildcard := true, whereClause := clause' } : QueryPlan).chooseStrategy =
        .ok base)
    (h : Alongside
      { QueryPlan.ofTable (env.tablePlan name rename) with
        condition := c, whereClause := clause, having }
      { QueryPlan.ofSource env.defaultNamespace byname (.plan base) with having } p p')
    (hgroups : ∀ g ∈ groups, IsBinName g)
    (hq : finishSelect limit offset
      { p with orderBy := order, reduction := some (p.aggregation groups) } = .ok q)
    (hq' : finishSelect limit offset
      { p' with orderBy := order, reduction := some (p'.aggregation groups) } = .ok q') :
    base.GroupsAlike q q' := by
  have hcolumns := h.parallel.columns
  have hwildcard := h.parallel.wildcard
  have hreduction := hcolumns.aggregation_eq groups
  have hnames := QueryPlan.names_aggregation hgroups h.parallel.aggregates
  obtain ⟨cs, d, w, rfl⟩ : ∃ cs d w, p = { QueryPlan.ofTable (env.tablePlan name rename) with
      columns := cs, needsDigest := d, wildcard := w, condition := c, whereClause := clause
      having } := ⟨_, _, _, h.adds⟩
  obtain ⟨cs', d', w', rfl⟩ : ∃ cs d w, p' = {
      QueryPlan.ofSource env.defaultNamespace byname (.plan base) with
      columns := cs, needsDigest := d, wildcard := w, having } := ⟨_, _, _, h.adds'⟩
  obtain rfl : w = w' := hwildcard
  rw [hreduction] at hnames
  simp only [hreduction] at hq
  obtain ⟨-, o, l, ho, hl, hchosen⟩ := finishSelect_single rfl hq
  obtain ⟨-, o', l', ho', hl', hchosen'⟩ := finishSelect_single rfl hq'
  obtain rfl := Except.ok.inj (ho.symm.trans ho')
  obtain rfl := Except.ok.inj (hl.symm.trans hl')
  have hsettled := QueryPlan.isSettled_of_chooseStrategy hchosen
  obtain ⟨_, hwhole⟩ := QueryPlan.eq_of_chooseStrategy hbase
  obtain ⟨_, rfl⟩ := QueryPlan.eq_of_chooseStrategy hchosen
  obtain ⟨_, rfl⟩ := QueryPlan.eq_of_chooseStrategy hchosen'
  exact {
    whole := by
      rw [hwhole]
      exact ⟨rfl, rfl, rfl, rfl, rfl, rfl, rfl, rfl, rfl, rfl, rfl, rfl⟩
    table := by
      rw [hwhole]
      rfl
    source := rfl
    subqueries := rfl
    joins := rfl
    rowFilter := rfl
    reduction := ⟨_, rfl, hnames⟩
    eq := ⟨_, rfl⟩
    condition := rfl
    keyCondition := rfl
    columns := hcolumns
    settledBase := QueryPlan.isSettled_of_chooseStrategy hbase
    settled := hsettled }

/-- **The plans of a grouped selection from a set and from the query of its records** group the same
records. Either the query goes by the name of the set, or no label needs that name.

**Proof sketch.** The two compilations add the same columns, step by step. Between them the first
one puts the condition to the set, and the second one has put it to the query. -/
theorem agree_compileSelect {name : TableName} {rename byname : Option String}
    (hsource : s.source = .named name rename) (hjoins : s.joins = [])
    (hgrouped : s.isGrouped orderBy = true)
    (hnative : ∀ w ∈ s.condition, w.IsOnBins ⟨some name.name, rename⟩)
    (hlabels : byname = some (rename.getD name.name) ∨ LabelsApart s.items)
    (hrecords : ∀ n, compileSub' ⟨.select s.records, [], none, none⟩ = .ok n →
      ∃ base, n = .plan base ∧ compileSelect env compileSub'' s.records [] none none = .ok base) :
    Agree (fun p p' => ∃ base : QueryPlan, base.GroupsAlike p p')
      (compileSelect env compileSub s orderBy limit offset)
      (compileSelect env compileSub' (s.overRecords byname) orderBy limit offset) := by
  intro p p' hp hp'
  rw [compileSelect_groups hjoins hgrouped, hsource] at hp
  rw [compileSelect_groups (s := s.overRecords byname) hjoins hgrouped] at hp'
  obtain ⟨c, hc⟩ := QueryPlan.exists_of_option_isOnBins hnative
  -- what the selections are made from
  obtain ⟨start, hstart, hp⟩ := bind_eq_ok.mp hp
  obtain rfl := Except.ok.inj hstart
  obtain ⟨start', hstart', hp'⟩ := bind_eq_ok.mp hp'
  obtain ⟨n, hn, hstart'⟩ := bind_eq_ok.mp hstart'
  obtain rfl := Except.ok.inj hstart'
  obtain ⟨base, rfl, hbase⟩ := hrecords n hn
  obtain ⟨found, hfound, hbase⟩ := compileSelect_records hsource hjoins hbase
  obtain ⟨clause', rfl⟩ := hc _ _ _ rfl rfl rfl rfl hfound
  -- step by step both carry the same columns
  obtain ⟨groups, hgroups, hp⟩ := bind_eq_ok.mp hp
  obtain ⟨groups', hgroups', hp'⟩ := bind_eq_ok.mp hp'
  obtain ⟨rfl, hbins⟩ := agree_groupColumns (fun g hg => absurd hg List.not_mem_nil) s.groupBy
    groups groups' hgroups hgroups'
  split at hp
  · cases hp
  split at hp'
  · cases hp'
  obtain ⟨shown, hshown, hp⟩ := bind_eq_ok.mp hp
  obtain ⟨shown', hshown', hp'⟩ := bind_eq_ok.mp hp'
  obtain ⟨filtered, hfiltered, hp⟩ := bind_eq_ok.mp hp
  obtain ⟨filtered', hfiltered', hp'⟩ := bind_eq_ok.mp hp'
  have hnames : TableRef.qualifier ⟨some name.name, rename⟩ = TableRef.qualifier ⟨none, byname⟩ ∨
      LabelsApart s.items :=
    hlabels.imp_left fun hname => by rw [hname]; cases rename <;> rfl
  have hempty : ∀ B, (QueryPlan.ofTable (env.tablePlan name rename)).Parallel B
      (.ofSource env.defaultNamespace byname (.plan base)) := fun B =>
    ⟨rfl, rfl, fun l hl => absurd hl List.not_mem_nil, fun d hd => absurd hd List.not_mem_nil⟩
  have hitems := QueryPlan.Alongside.ofItems hnames hempty rfl rfl hshown hshown'
  obtain ⟨clause, rfl⟩ := hc compileSub shown filtered (by rw [hitems.adds]; rfl)
    (by rw [hitems.adds]; rfl) (by rw [hitems.adds]; rfl) (by rw [hitems.adds]; rfl) hfiltered
  obtain rfl := Except.ok.inj hfiltered'
  obtain ⟨grouped, hgrouped, hp⟩ := bind_eq_ok.mp hp
  obtain ⟨grouped', hgrouped', hp'⟩ := bind_eq_ok.mp hp'
  obtain ⟨⟨order, ordered⟩, hordered, hp⟩ := bind_eq_ok.mp hp
  obtain ⟨⟨order', ordered'⟩, hordered', hp'⟩ := bind_eq_ok.mp hp'
  have hhaving := (hitems.withCondition c clause).withHaving rfl rfl rfl rfl hgrouped hgrouped'
  obtain ⟨rfl, hlast⟩ := hhaving.planOrder_eq rfl rfl hordered hordered'
  exact ⟨base, QueryPlan.Alongside.groupsAlike (hbase rfl) hlast hbins hp hp'⟩

end

end RecordQuery
