import RecordQuery.Proofs.Execution.Answer
import RecordQuery.Proofs.Execution.Catalog
import RecordQuery.Proofs.Plan.Substitution

set_option autoImplicit false

/-!
# Statements with constants for parameters

A statement on one table answers with parameters what it answers with constants in their place, if
the parameters that are looked up as keys are no floats. A float that is looked up as a key finds
the record of its integer part, and the constant finds none, except where binding leaves a float in
a condition on bins: then the whole condition is decided row by row.

## Main definitions

* `Statement.tableCondition?`, `Statement.withCondition` — the condition of a statement on one
  table, and the statement with another one.
* `Expr.cutKeys` — constants of which those that are looked up as keys are cut off to integers.

## Main results

* `StatementPlan.FiltersAlike.answer` — statements with conditions that are true on the same rows
  answer the same.
* `Statement.answer_substitute` — a statement answers with parameters as it does with constants.
-/

namespace RecordQuery

open Outcome

variable {K : Store} {env : ExecutionEnv} {params : List Value} {p p' : QueryPlan}

/-! ## Pipelines -/

namespace Pipeline

variable {P P' : Pipeline}

/-- Computed values of the same rows. -/
lemma listing_computed (h : P.listing env K = P'.listing env K) (columns : List (Column × Expr))
    (withLabels : Bool) :
    (P.computed columns withLabels).listing env K =
      (P'.computed columns withLabels).listing env K := by
  unfold computed
  split
  · exact h
  · simp only [listing, h]

/-- Conditions that are true on the same rows keep the same ones of the same rows. -/
lemma listing_filtered (h : P.listing env K = P'.listing env K) {f f' : Option Expr}
    (hf : Option.Rel (fun e e' => ∀ row, e'.holdsOn env.params row = e.holdsOn env.params row)
      f f') : (P.filtered f).listing env K = (P'.filtered f').listing env K := by
  cases hf with
  | none => exact h
  | some hf => simp only [filtered, listing, h, hf]

/-- The same rows with their partners. -/
lemma listing_foldl_join (h : P.listing env K = P'.listing env K) (js : List JoinSpec) :
    (js.foldl join P).listing env K = (js.foldl join P').listing env K := by
  induction js generalizing P P' with
  | nil => exact h
  | cons j js ih => exact ih (by simp only [listing, h])

/-- The same rows in order and within limits. -/
lemma listing_paged (h : P.listing env K = P'.listing env K) (order : List OrderSpec)
    (offset limit : Option UInt64) :
    (P.paged order offset limit).listing env K = (P'.paged order offset limit).listing env K := by
  have hsorted : (if order.isEmpty then P else P.sort order (topRows offset limit)).listing env K =
      (if order.isEmpty then P' else P'.sort order (topRows offset limit)).listing env K := by
    split
    · exact h
    · simp only [listing, h]
  unfold paged
  simp only
  split
  · exact hsorted
  · simp only [listing, hsorted]

end Pipeline

/-- A condition is true on the rows on which it is. -/
lemma rel_holdsOn_refl (params : List Value) (f : Option Expr) :
    Option.Rel (fun e e' => ∀ row, e'.holdsOn params row = e.holdsOn params row) f f := by
  cases f with
  | none => exact .none
  | some e => exact .some fun row => rfl

namespace QueryPlan.FiltersAlike

/-- **Plans whose conditions are true on the same rows** have pipelines with the same rows.

**Proof sketch.** Every part of the plan but the row filter is the same, so both pipelines are built
by the same steps from the same base. At the one step that filters by condition the listings agree
since both conditions are true on the same rows; joins, the second filter, computed columns and
paging keep listings equal. -/
lemma follows_pipeline (h : p.FiltersAlike env.params p') :
    Follows (fun P P' : Pipeline => P.listing env K = P'.listing env K) p.pipeline p'.pipeline := by
  -- the stages but for the row filter are the same
  have hbase : Pipeline.ofSource p' none = Pipeline.ofSource p none := by
    rw [h.same]
    unfold Pipeline.ofSource
    cases p.reduction <;> rfl
  have hearly : p'.earlyColumns = p.earlyColumns := by rw [h.same]; rfl
  have hlate : p'.lateColumns = p.lateColumns := by rw [h.same]; rfl
  have hprojection : Projection.ofPlan p' = Projection.ofPlan p := by rw [h.same]; rfl
  have hreduction : p'.reduction = p.reduction := by rw [h.same]
  have hhaving : p'.having = p.having := by rw [h.same]
  have hjoins : p'.joins = p.joins := by rw [h.same]
  have horder : p'.orderBy = p.orderBy := by rw [h.same]
  have hoffset : p'.offset = p.offset := by rw [h.same]
  have hlimit : p'.limit = p.limit := by rw [h.same]
  have hsource : p'.source = none := by rw [h.same]; exact h.source
  rw [pipeline_eq, pipeline_eq, h.source, hsource]
  simp only [sourcePipeline, pure_bind, Pipeline.ofPlan, hbase, hearly, hlate, hprojection,
    hreduction, hhaving, hjoins, horder, hoffset, hlimit]
  refine (Follows.of_eq _).bind fun base _ hsame => ?_
  subst hsame
  have hkept : (if p.reduction.isNone then (base.computed p.earlyColumns true).filtered p.rowFilter
        else base.computed p.earlyColumns true).listing env K =
      (if p.reduction.isNone then (base.computed p.earlyColumns true).filtered p'.rowFilter
        else base.computed p.earlyColumns true).listing env K := by
    split
    · exact Pipeline.listing_filtered rfl h.rowFilter
    · rfl
  have hlast := Pipeline.listing_computed (Pipeline.listing_foldl_join
    (Pipeline.listing_filtered hkept (rel_holdsOn_refl env.params p.having)) p.joins)
      p.lateColumns false
  refine (Follows.of_eq _).bind fun offset _ hoffset => ?_
  subst hoffset
  refine (Follows.of_eq _).map fun limit _ hlimit => ?_
  subst hlimit
  simp only [Pipeline.listing, Pipeline.listing_paged hlast p.orderBy offset limit]

/-- Preparing such a plan leaves it as it is. -/
lemma prepare_eq_pure (h : p.FiltersAlike params p') (env : ExecutionEnv) :
    p.prepare env = pure p ∧ p'.prepare env = pure p' := by
  refine ⟨QueryPlan.prepare_eq_pure env h.source h.subqueries, QueryPlan.prepare_eq_pure env ?_ ?_⟩
  · rw [h.same]
    exact h.source
  · rw [h.same]
    exact h.subqueries

/-- Queries that filter alike answer the same. -/
lemma answer_query (h : p.FiltersAlike env.params p') :
    StoreM.Follows K Eq (openQuery env (.plan p) >>= fun s => (Outcome.rows s).answer)
      (openQuery env (.plan p') >>= fun s => (Outcome.rows s).answer) := by
  obtain ⟨hprepare, hprepare'⟩ := h.prepare_eq_pure env
  have hlabels : (QueryNode.plan p').labels = (QueryNode.plan p).labels := by
    change p'.labels = p.labels
    rw [h.same]
    rfl
  simp only [openQuery, QueryNode.prepare, hprepare, hprepare', bind_assoc, pure_bind, hlabels]
  refine (StoreM.Follows.lift (h.follows_pipeline (K := K))).bind fun P P' hP => ?_
  refine .of_reads (RowStream.reads_answer env _ P K) (RowStream.reads_answer env _ P' K) ?_
  rw [hP]
  exact .of_eq _

/-- Selections that filter alike find the same records.

**Proof sketch.** The plans read through the same access, and the fetched rows are filtered by
conditions that are true on the same rows. Draining a cursor reads the listing, so the same rows are
found, also if a limit cuts the listing off. -/
lemma follows_selectedRows (h : p.FiltersAlike env.params p') (limit : Option RowBound) :
    StoreM.Follows K Eq (selectedRows env p limit) (selectedRows env p' limit) := by
  obtain ⟨hprepare, hprepare'⟩ := h.prepare_eq_pure env
  have htable : p'.toTablePlan = p.toTablePlan := by rw [h.same]
  simp only [selectedRows, hprepare, hprepare', pure_bind, htable]
  refine (StoreM.Follows.lift (.of_eq (TableAccess.ofPlan p.toTablePlan))).bind fun a _ ha => ?_
  subst ha
  have hfound : ((Pipeline.fetch a).filtered p.rowFilter).listing env K =
      ((Pipeline.fetch a).filtered p'.rowFilter).listing env K :=
    Pipeline.listing_filtered rfl h.rowFilter
  have hdrain : ∀ P P' : Pipeline, P.listing env K = P'.listing env K →
      StoreM.Follows K Eq (P.cursor env).drain (P'.cursor env).drain := by
    intro P P' hP
    refine .of_reads (P.reads_drain env K) (P'.reads_drain env K) ?_
    rw [hP]
    exact .of_eq _
  cases limit with
  | none => exact hdrain _ _ hfound
  | some b =>
    simp only [Option.mapM_some, bind_map_left]
    refine (StoreM.Follows.lift (.of_eq b.value)).bind fun n _ hn => ?_
    subst hn
    exact hdrain _ _ (by simp only [Pipeline.listing, hfound])

/-- Selections that filter alike show the keys of the same records. -/
lemma recordKeyOf_eq (h : p.FiltersAlike params p') : recordKeyOf p = recordKeyOf p' := by
  rw [h.same]
  rfl

end QueryPlan.FiltersAlike

/-! ## Statements -/

/-- Plans of statements whose conditions are true on the same rows. -/
inductive StatementPlan.FiltersAlike (params : List Value) : StatementPlan → StatementPlan → Prop
  /-- Queries. -/
  | query {p p' : QueryPlan} : p.FiltersAlike params p' →
      FiltersAlike params (.query (.plan p)) (.query (.plan p'))
  /-- Updates. -/
  | update {p p' : QueryPlan} (assignments : List (String × Expr)) (limit : Option RowBound) :
      p.FiltersAlike params p' →
        FiltersAlike params (.update ⟨p, assignments, limit⟩) (.update ⟨p', assignments, limit⟩)
  /-- Deletions. -/
  | delete {p p' : QueryPlan} (limit : Option RowBound) :
      p.FiltersAlike params p' → FiltersAlike params (.delete ⟨p, limit⟩) (.delete ⟨p', limit⟩)

/-- **Statements with conditions that are true on the same rows** answer the same and leave like
stores. -/
theorem StatementPlan.FiltersAlike.answer {config : Config} {a a' : StatementPlan}
    (h : a.FiltersAlike params a') :
    StoreM.Repeats ((⟨a, params, config⟩ : BoundStatement).execute >>= Outcome.answer)
      ((⟨a', params, config⟩ : BoundStatement).execute >>= Outcome.answer) K := by
  cases h with
  | query hp =>
    simp only [BoundStatement.execute, bind_assoc, pure_bind]
    exact (QueryPlan.FiltersAlike.answer_query hp).repeats
  | update assignments limit hp =>
    simp only [BoundStatement.execute, UpdatePlan.run, bind_assoc, pure_bind]
    refine (QueryPlan.FiltersAlike.follows_selectedRows hp limit).bind_same fun rows _ hrows => ?_
    subst hrows
    exact (UpdatePlan.same_runRows hp.recordKeyOf_eq assignments limit _ rows).bind fun n => .pure _
  | delete limit hp =>
    simp only [BoundStatement.execute, DeletePlan.run, bind_assoc, pure_bind]
    refine (QueryPlan.FiltersAlike.follows_selectedRows hp limit).bind_same fun rows _ hrows => ?_
    subst hrows
    exact (DeletePlan.same_runRows hp.recordKeyOf_eq limit rows).bind fun n => .pure _

/-- What the plan of a statement decides row by row. -/
def StatementPlan.rowFilter? : StatementPlan → Option Expr
  | query (.plan p) => p.rowFilter
  | update p => p.selection.rowFilter
  | delete p => p.selection.rowFilter
  | _ => none

namespace Statement

/-- The condition of a statement on one table: of a selection without joins, of an update or of a
deletion. -/
def tableCondition? : Statement → Option Expr
  | query ⟨.select s, _, _, _⟩ =>
    match s.source, s.joins with
    | .named .., [] => s.condition
    | _, _ => none
  | update s => s.condition
  | delete s => s.condition
  | _ => none

/-- A statement with another condition. -/
def withCondition (w : Expr) : Statement → Statement
  | query ⟨.select s, orderBy, limit, offset⟩ =>
    query ⟨.select { s with condition := some w }, orderBy, limit, offset⟩
  | update s => update { s with condition := some w }
  | delete s => delete { s with condition := some w }
  | s => s

/-- A statement has as many parameters as its condition.

**Proof sketch.** Each form of statement that has a condition on one table counts the parameters of
its condition among its own; the other forms have no such condition. -/
lemma maxParam_le_of_tableCondition? {s : Statement} {w : Expr} (h : s.tableCondition? = some w) :
    w.maxParam ≤ s.maxParam := by
  cases s with
  | query q =>
    obtain ⟨body, orderBy, limit, offset⟩ := q
    cases body with
    | combine op l r => cases h
    | select s =>
      obtain ⟨distinct, items, source, joins, condition, groupBy, having⟩ := s
      cases source with
      | derived q rename => cases h
      | named name rename =>
        cases joins with
        | cons j js => cases h
        | nil =>
          obtain rfl : condition = some w := h
          simp only [Statement.maxParam, Query.maxParam, QueryBody.maxParam, Select.maxParam,
            maxParamOption]
          omega
  | update s =>
    have hw : s.condition = some w := h
    simp only [Statement.maxParam, hw, maxParamOption]
    omega
  | delete s =>
    have hw : s.condition = some w := h
    simp only [Statement.maxParam, hw, maxParamOption]
    omega
  | insert _ | truncate _ | createIndex _ | dropIndex _ _ => cases h

end Statement

/-- Plans of statements that come about alike from two conditions. -/
inductive StatementPlan.SelectedBy (w w' : Expr) : StatementPlan → StatementPlan → Prop
  /-- Queries. -/
  | query {p p' : QueryPlan} : QueryPlan.SelectedBy w w' p p' →
      SelectedBy w w' (.query (.plan p)) (.query (.plan p'))
  /-- Updates. -/
  | update {p p' : QueryPlan} (assignments : List (String × Expr)) (limit : Option RowBound) :
      QueryPlan.SelectedBy w w' p p' →
        SelectedBy w w' (.update ⟨p, assignments, limit⟩) (.update ⟨p', assignments, limit⟩)
  /-- Deletions. -/
  | delete {p p' : QueryPlan} (limit : Option RowBound) : QueryPlan.SelectedBy w w' p p' →
      SelectedBy w w' (.delete ⟨p, limit⟩) (.delete ⟨p', limit⟩)

/-- **The plans of a statement on one table with two conditions** come about alike.

**Proof sketch.** By the form of the statement. A query on one named table without joins compiles
its selection with either condition; an update and a delete compile a selection, and the same
assignments and limit next to it. The lemmas on selections then relate the plans. The other
statements have no condition on one table. -/
lemma Statement.selectedBy_plan {env : CompileEnv} {s : Statement} {w w' : Expr}
    {a a' : StatementPlan} (hs : s.tableCondition? = some w) (ha : s.plan env = .ok a)
    (ha' : (s.withCondition w').plan env = .ok a') : a.SelectedBy w w' a' := by
  cases s with
  | query q =>
    obtain ⟨body, orderBy, limit, offset⟩ := q
    cases body with
    | combine op l r => cases hs
    | select s =>
      obtain ⟨n, hn, ha⟩ := bind_eq_ok.mp ha
      obtain ⟨n', hn', ha'⟩ := bind_eq_ok.mp ha'
      obtain rfl := Except.ok.inj ha
      obtain rfl := Except.ok.inj ha'
      obtain ⟨p, hp, hn⟩ := bind_eq_ok.mp hn
      obtain ⟨p', hp', hn'⟩ := bind_eq_ok.mp hn'
      obtain rfl := Except.ok.inj hn
      obtain rfl := Except.ok.inj hn'
      simp only [tableCondition?] at hs
      split at hs
      · rename_i name rename hsource hjoins
        exact .query (QueryPlan.selectedBy_compileSelect hsource hjoins hs hp hp')
      · cases hs
  | update s =>
    have hw : s.condition = some w := hs
    obtain ⟨b, hb, ha⟩ := bind_eq_ok.mp ha
    obtain ⟨b', hb', ha'⟩ := bind_eq_ok.mp ha'
    obtain rfl := Except.ok.inj ha
    obtain rfl := Except.ok.inj ha'
    obtain ⟨p, hp, hb⟩ := bind_eq_ok.mp hb
    obtain ⟨p', hp', hb'⟩ := bind_eq_ok.mp hb'
    obtain ⟨-, -, hb⟩ := bind_eq_ok.mp hb
    obtain ⟨-, -, hb'⟩ := bind_eq_ok.mp hb'
    obtain ⟨limit, hlimit, hb⟩ := bind_eq_ok.mp hb
    obtain ⟨limit', hlimit', hb'⟩ := bind_eq_ok.mp hb'
    obtain rfl := Except.ok.inj hb
    obtain rfl := Except.ok.inj hb'
    obtain rfl : limit = limit' := Except.ok.inj (hlimit.symm.trans hlimit')
    rw [hw] at hp
    exact .update _ limit (QueryPlan.selectedBy_compileSelection hp hp')
  | delete s =>
    have hw : s.condition = some w := hs
    obtain ⟨b, hb, ha⟩ := bind_eq_ok.mp ha
    obtain ⟨b', hb', ha'⟩ := bind_eq_ok.mp ha'
    obtain rfl := Except.ok.inj ha
    obtain rfl := Except.ok.inj ha'
    obtain ⟨p, hp, hb⟩ := bind_eq_ok.mp hb
    obtain ⟨p', hp', hb'⟩ := bind_eq_ok.mp hb'
    obtain ⟨limit, hlimit, hb⟩ := bind_eq_ok.mp hb
    obtain ⟨limit', hlimit', hb'⟩ := bind_eq_ok.mp hb'
    obtain rfl := Except.ok.inj hb
    obtain rfl := Except.ok.inj hb'
    obtain rfl : limit = limit' := Except.ok.inj (hlimit.symm.trans hlimit')
    rw [hw] at hp
    exact .delete limit (QueryPlan.selectedBy_compileSelection hp hp')
  | insert _ | truncate _ | createIndex _ | dropIndex _ _ => cases hs

section Constants

variable {ls values : List Literal} {w : Expr}

/-- **Bound plans of a statement with parameters and with constants** differ in conditions that are
true on the same rows.

**Proof sketch.** A case for each of the three forms. Binding a statement binds its selection, to
which `QueryPlan.SelectedBy.filtersAlike` applies, and a limit, which is the same on both sides. -/
lemma StatementPlan.SelectedBy.filtersAlike {a a' b b' : StatementPlan}
    (h : a.SelectedBy w (w.substitute ls) a') (hls : StandFor ls values)
    (hshown : w.showsParams = true) (hvalues : w.maxParam ≤ values.length)
    (hb : a.bind (values.map Literal.value) = .ok b)
    (hb' : a'.bind (values.map Literal.value) = .ok b')
    (hfits : b.rowFilter? = none → ∀ index ∈ w.keyParams, KeyFits ls values index)
    (hrow : b.rowFilter? = none ∨ ls = values) :
    b.FiltersAlike (values.map Literal.value) b' := by
  cases h with
  | query hp =>
    obtain ⟨n, hn, hb⟩ := bind_eq_ok.mp hb
    obtain ⟨n', hn', hb'⟩ := bind_eq_ok.mp hb'
    obtain rfl := Except.ok.inj hb
    obtain rfl := Except.ok.inj hb'
    obtain ⟨q, hq, hn⟩ := bind_eq_ok.mp hn
    obtain ⟨q', hq', hn'⟩ := bind_eq_ok.mp hn'
    obtain rfl := Except.ok.inj hn
    obtain rfl := Except.ok.inj hn'
    exact .query (hp.filtersAlike hls hshown hvalues hq hq' hfits hrow)
  | update assignments limit hp =>
    obtain ⟨q, hq, hb⟩ := bind_eq_ok.mp hb
    obtain ⟨q', hq', hb'⟩ := bind_eq_ok.mp hb'
    obtain ⟨l, hl, hb⟩ := bind_eq_ok.mp hb
    obtain ⟨l', hl', hb'⟩ := bind_eq_ok.mp hb'
    obtain rfl := Except.ok.inj hb
    obtain rfl := Except.ok.inj hb'
    obtain rfl : l = l' := Except.ok.inj (hl.symm.trans hl')
    exact .update assignments l (hp.filtersAlike hls hshown hvalues hq hq' hfits hrow)
  | delete limit hp =>
    obtain ⟨q, hq, hb⟩ := bind_eq_ok.mp hb
    obtain ⟨q', hq', hb'⟩ := bind_eq_ok.mp hb'
    obtain ⟨l, hl, hb⟩ := bind_eq_ok.mp hb
    obtain ⟨l', hl', hb'⟩ := bind_eq_ok.mp hb'
    obtain rfl := Except.ok.inj hb
    obtain rfl := Except.ok.inj hb'
    obtain rfl : l = l' := Except.ok.inj (hl.symm.trans hl')
    exact .delete l (hp.filtersAlike hls hshown hvalues hq hq' hfits hrow)

/-- Constants of which those that are looked up as keys by a condition are cut off to integers. -/
def Expr.cutKeys (w : Expr) (values : List Literal) : List Literal :=
  values.mapIdx fun i l => if i + 1 ∈ w.keyParams then l.truncated else l

/-- Such constants stand for the values. -/
lemma standFor_cutKeys (w : Expr) (values : List Literal) : StandFor (w.cutKeys values) values := by
  intro i
  rw [Expr.cutKeys, List.getElem?_mapIdx]
  by_cases hkey : i + 1 ∈ w.keyParams
  · right
    simp only [hkey, if_true]
  · left
    simp only [hkey, if_false, Option.map_id']

/-- They stand for the values that are looked up as keys. -/
lemma keyFits_cutKeys {index : Nat} (h : index ∈ w.keyParams) (values : List Literal) :
    KeyFits (w.cutKeys values) values index := by
  rintro i rfl
  rw [Expr.cutKeys, List.getElem?_mapIdx]
  simp only [h, if_true]

/-- Values that are no floats stand for themselves where they are looked up as keys. -/
lemma keyFits_self {index : Nat} (h : ∀ x, values[index - 1]? ≠ some (.float x)) :
    KeyFits values values index := by
  rintro i rfl
  cases hl : values[i]? with
  | none => rfl
  | some l =>
    cases l with
    | float x => exact absurd hl (h x)
    | null | boolean _ | integer _ | text _ => rfl

/-- A statement with constants that stand for its parameters answers the same.

**Proof sketch.** Only executions that return on both sides matter, so both compile and bind. Since
the values were not too few, the condition has no more parameters than there are values, the bound
plans differ in conditions that are true on the same rows, and such plans answer alike. -/
lemma Statement.agrees_substitute {s : Statement} (hs : s.tableCondition? = some w)
    (hshown : w.showsParams = true) (hls : StandFor ls values) (config : Config)
    (catalog : IndexCatalog)
    (hfits : ∀ b,
      (s.compile config catalog >>= fun e => e.bind (values.map Literal.value)) = .ok b →
      (b.plan.rowFilter? = none → ∀ index ∈ w.keyParams, KeyFits ls values index) ∧
        (b.plan.rowFilter? = none ∨ ls = values)) :
    StoreM.Agrees (s.answer config catalog (values.map Literal.value))
      ((s.withCondition (w.substitute ls)).answer config catalog (values.map Literal.value)) K := by
  refine StoreM.Agrees.lift_bind fun e e' he he' => StoreM.Agrees.lift_bind fun b b' hb hb' => ?_
  obtain ⟨hkeys, hrow⟩ := hfits b (bind_eq_ok.mpr ⟨e, he, hb⟩)
  obtain ⟨a, ha, he⟩ := bind_eq_ok.mp he
  obtain ⟨a', ha', he'⟩ := bind_eq_ok.mp he'
  obtain rfl := Except.ok.inj he
  obtain rfl := Except.ok.inj he'
  obtain ⟨hcount, c, hc, rfl⟩ := Executable.of_bind_eq_ok hb
  obtain ⟨-, c', hc', rfl⟩ := Executable.of_bind_eq_ok hb'
  have hvalues : w.maxParam ≤ values.length := by
    rw [List.length_map] at hcount
    exact (maxParam_le_of_tableCondition? hs).trans hcount
  have halike := (selectedBy_plan hs ha ha').filtersAlike hls hshown hvalues hc hc' hkeys hrow
  exact halike.answer.agrees

end Constants

/-- **Parameters and constants.** Let a statement on one table show the parameters of its condition.
If those that are looked up as keys are no floats, it answers with parameters what it answers with
constants in their place, and leaves a like store, whenever both return. In general that is so if
the bound condition is decided row by row; if the store decides it, the statement answers as it does
with constants of which those that are looked up as keys are cut off to integers.

**Proof sketch.** Both parts are `Statement.agrees_substitute`. If no parameter looked up as a key
is a float, each fits as it is. In general, if the bound plan has a row filter then the values stand
for themselves and no key needs to fit; if it has none then the cut values stand for the values, and
fit the keys. -/
theorem Statement.answer_substitute {s : Statement} {w : Expr} (hs : s.tableCondition? = some w)
    (hshown : w.showsParams = true) (values : List Literal) (config : Config)
    (catalog : IndexCatalog) (K : Store) :
    ((∀ index ∈ w.keyParams, ∀ x, values[index - 1]? ≠ some (.float x)) →
      StoreM.Agrees (s.answer config catalog (values.map Literal.value))
        ((s.withCondition (w.substitute values)).answer config catalog
          (values.map Literal.value)) K) ∧
    ∀ b, (s.compile config catalog >>= fun e => e.bind (values.map Literal.value)) = .ok b →
      StoreM.Agrees (s.answer config catalog (values.map Literal.value))
        ((s.withCondition (w.substitute (if b.plan.rowFilter?.isSome then values
          else w.cutKeys values))).answer config catalog (values.map Literal.value)) K := by
  have hself : StandFor values values := fun i => .inl rfl
  refine ⟨fun hfloat => ?_, fun b hb => ?_⟩
  · exact agrees_substitute hs hshown hself config catalog fun b _ =>
      ⟨fun _ index hindex => keyFits_self (hfloat index hindex), .inr rfl⟩
  · cases hfilter : b.plan.rowFilter? with
    | some e =>
      refine agrees_substitute hs hshown hself config catalog fun c hc => ?_
      obtain rfl : b = c := Except.ok.inj (hb.symm.trans hc)
      exact ⟨fun hnone => absurd (hfilter.symm.trans hnone) (by simp), .inr rfl⟩
    | none =>
      refine agrees_substitute hs hshown (standFor_cutKeys w values) config catalog fun c hc => ?_
      obtain rfl : b = c := Except.ok.inj (hb.symm.trans hc)
      exact ⟨fun _ index hindex => keyFits_cutKeys hindex values, .inl hfilter⟩

/-- A store with one record, whose key is seven. -/
def Store.seventh : Store :=
  { sets := OrderedMap.empty.set ("test", "people")
      (OrderedMap.empty.set (.integer 7) (OrderedMap.empty.set "name" (.text "Ann")))
    indexes := []
    counts := .zero }

/-- The condition that the key is a parameter. -/
def Expr.keyIsParam : Expr := .binary (.compare .eq) (.column ⟨none, keyColumn⟩) (.param 1)

/-- The deletion of the record with a given key. -/
def Statement.deleteByKey : Statement :=
  .delete ⟨⟨some "test", "people"⟩, some .keyIsParam, none⟩

/-- The float `7.9`. -/
def Literal.almostEight : Literal := .float ⟨0x401f99999999999a⟩

/-- As a parameter, `7.9` deletes the record with the key seven, as the constant seven does; as a
constant it deletes nothing. The parameter seven and the constant seven delete the same record.

**Proof sketch.** The two counts are evaluated. The bound plan is found to have no row filter, so
the second part of `Statement.answer_substitute` compares with the cut constant, which is seven. The
parameter seven is an integer, so there the first part applies. -/
theorem Statement.answer_deleteByKey :
    (deleteByKey.answer .standard [] [Literal.almostEight.value] .seventh).1.toOption =
        some (.affected 1) ∧
      ((deleteByKey.withCondition (Expr.keyIsParam.substitute [.almostEight])).answer .standard []
        [Literal.almostEight.value] .seventh).1.toOption = some (.affected 0) ∧
      StoreM.Agrees (deleteByKey.answer .standard [] [Literal.almostEight.value])
        ((deleteByKey.withCondition (Expr.keyIsParam.substitute [.integer 7])).answer .standard []
          [Literal.almostEight.value]) .seventh ∧
      StoreM.Agrees (deleteByKey.answer .standard [] [.integer 7])
        ((deleteByKey.withCondition (Expr.keyIsParam.substitute [.integer 7])).answer .standard []
          [.integer 7]) .seventh := by
  have hcut : Expr.keyIsParam.cutKeys [.almostEight] = [.integer 7] := by
    have hseven : Literal.almostEight.truncated = .integer 7 := by
      simp only [Literal.almostEight, Literal.truncated, Literal.integer.injEq]
      decide +kernel
    rw [← hseven]
    rfl
  have hstore : ((deleteByKey.compile .standard [] >>= fun e =>
      e.bind [Literal.almostEight.value]).toOption.map fun b => b.plan.rowFilter?.isSome) =
        some false := by
    decide +kernel
  obtain ⟨b, hb, hnone⟩ := Option.map_eq_some_iff.mp hstore
  refine ⟨by decide +kernel, by decide +kernel, ?_, ?_⟩
  · have hagrees := (answer_substitute (s := deleteByKey) rfl (by decide) [.almostEight] .standard
      [] .seventh).2 b (eq_ok_of_toOption hb)
    rwa [hnone, if_neg Bool.false_ne_true, hcut] at hagrees
  · refine (answer_substitute (s := deleteByKey) rfl (by decide) [.integer 7] .standard []
      .seventh).1 fun index hindex x hx => ?_
    have hone : Expr.keyIsParam.keyParams = [1] := by decide
    rw [hone, List.mem_singleton] at hindex
    subst hindex
    cases hx

end RecordQuery
