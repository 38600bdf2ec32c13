import RecordQuery.Proofs.Pipeline.Products
import RecordQuery.Proofs.Plan.Routing

set_option autoImplicit false

/-!
# Conditions on joined records

The conditions of a bound plan are decided early: those on the main table before the joins, and
those on a joined table while the partners are looked for. Each of them admits the joined records of
which the conjuncts on its table are true. Put together they are the condition, if none of them is
on the table of a left join: there a record is kept without a partner if no partner is admitted.

## Main definitions

* `Expr.decided` — a decision for an expression that may have no value.
* `QueryPlan.Suits` — what is asked of a condition, so that it means the same wherever it is
  decided.
* `Store.IsPlain` — the bins of all records hold integers and texts.
* `QueryPlan.admitsLast` — the decision of a bound plan on the last of joined records.

## Main results

* `QueryPlan.StandsFor.tuples_eq` — a bound plan takes the joined records that its conjuncts admit.
* `QueryPlan.tuples_eq_filter` — these are those on which the condition is true.
-/

namespace RecordQuery

open Outcome

/-! ## Decisions -/

namespace Expr

variable {env env' : EvalEnv} {b : Bool} {e : Expr}

/-- The truth of an expression or, if it has no value, a given decision. -/
def decided (env : EvalEnv) (b : Bool) (e : Expr) : Bool :=
  match e.evalIn env with
  | .ok v => v.isTruthy
  | .error _ => b

/-- The decision for an expression is its truth, if it has a value. -/
lemma decides_decided : Decides (e.decided env b) (e.evalIn env) := by
  intro v hv
  rw [decided, hv]

/-- Expressions with the same outcome are decided alike. -/
lemma decided_congr (h : e.evalIn env = e.evalIn env') : e.decided env b = e.decided env' b := by
  rw [decided, decided, h]

/-- **Decisions on several expressions together** are decisions on each of them, if those without a
value leave the decision to the others.

**Proof sketch.** If all parts hold then each one with a value has a true one. If one does not hold
then this part is decided to be false, whether it has a value or not. -/
lemma all_decided {α : Type} {expr : α → Expr} {holds : α → Bool} {parts : List α}
    (h : ∀ a ∈ parts, Decides (holds a) ((expr a).evalIn env)) :
    (parts.map expr).all (decided env (parts.all holds)) = parts.all holds := by
  cases hall : parts.all holds with
  | true =>
    rw [List.all_map, List.all_eq_true]
    intro a ha
    simp only [Function.comp, decided]
    split
    · rename_i v hv
      rw [h a ha v hv]
      exact List.all_eq_true.mp hall a ha
    · rfl
  | false =>
    obtain ⟨a, ha, hfalse⟩ := List.all_eq_false.mp hall
    refine List.all_eq_false.mpr ⟨expr a, List.mem_map_of_mem ha, ?_⟩
    simp only [decided]
    split
    · rename_i v hv
      rwa [h a ha v hv]
    · exact Bool.false_ne_true

/-- If all conjuncts have values, so has the condition. -/
lemma exists_of_conjuncts (e : Expr) (h : ∀ c ∈ e.conjuncts, ∃ v, c.evalIn env = .ok v) :
    ∃ v, e.evalIn env = .ok v := by
  induction e using Expr.conjuncts_induction with
  | and l r ihl ihr =>
    rw [Expr.conjuncts] at h
    obtain ⟨v, hv⟩ := ihl fun c hc => h c (List.mem_append_left _ hc)
    obtain ⟨w, hw⟩ := ihr fun c hc => h c (List.mem_append_right _ hc)
    simp only [evalIn, hv, hw, ok_bind]
    split
    · exact ⟨_, rfl⟩
    · split
      · exact ⟨_, rfl⟩
      · split <;> exact ⟨_, rfl⟩
  | paren e ih =>
    rw [Expr.conjuncts] at h
    rw [evalIn]
    exact ih h
  | single e _ _ he => exact h e (by rw [he]; exact List.mem_singleton_self e)

/-- **A condition is true if all of its conjuncts are**; without a value it is not, and then some
conjunct has none.

**Proof sketch.** A value of the condition is decided by its conjuncts. If it has none then some
conjunct has none, and this one is decided to be false. -/
lemma all_decided_conjuncts (e : Expr) :
    e.conjuncts.all (decided env ((e.evalIn env).toOption.any Value.isTruthy)) =
      (e.evalIn env).toOption.any Value.isTruthy := by
  cases he : e.evalIn env with
  | ok v =>
    have hall : Decides (e.conjuncts.all (decided env v.isTruthy)) (e.evalIn env) :=
      Decides.conjuncts e e.conjuncts (List.map_id _) fun c _ => decides_decided
    exact (hall v he).symm
  | error err =>
    have hnone : ¬∀ c ∈ e.conjuncts, ∃ v, c.evalIn env = .ok v := fun h => by
      obtain ⟨v, hv⟩ := exists_of_conjuncts e h
      rw [he] at hv
      cases hv
    simp only [not_forall] at hnone
    obtain ⟨c, hc, hnone⟩ := hnone
    refine List.all_eq_false.mpr ⟨c, hc, ?_⟩
    simp only [decided]
    split
    · rename_i v hv
      exact absurd ⟨v, hv⟩ hnone
    · exact Bool.false_ne_true

end Expr

/-! ## Bound plans and what they return -/

/-- What is known of the elements in every place is known of the lists. -/
lemma forall₂_of_rel {α β : Type} {R : α → β → Prop} {as : List α} {bs : List β}
    (h : ∀ i : Nat, Option.Rel R as[i]? bs[i]?) : List.Forall₂ R as bs := by
  induction as generalizing bs with
  | nil =>
    cases bs with
    | nil => exact .nil
    | cons b bs => cases h 0
  | cons a as ih =>
    cases bs with
    | nil => cases h 0
    | cons b bs =>
      have hfirst := h 0
      simp only [List.getElem?_cons_zero, Option.rel_some_some] at hfirst
      exact .cons hfirst (ih fun i => h (i + 1))

namespace JoinSpec

variable {js ks : List JoinSpec}

/-- Conditions do not change the names of joined tables. -/
lemma map_qualifier_of_narrows (h : List.Forall₂ Narrows js ks) :
    ks.map qualifier = js.map qualifier := by
  induction h with
  | nil => rfl
  | cons hfirst _ ih => rw [List.map_cons, List.map_cons, ih, hfirst.eq]; rfl

/-- Conditions do not change what rows become with partners. -/
lemma row_zip_of_narrows (h : List.Forall₂ Narrows js ks) (base : Row)
    (ps : List (Option Record)) :
    (JoinedTuple.mk base (ks.zip ps)).row = (JoinedTuple.mk base (js.zip ps)).row := by
  induction h generalizing base ps with
  | nil => rfl
  | @cons j k js ks hfirst _ ih =>
    cases ps with
    | nil => rfl
    | cons p ps =>
      have hrest := ih (k.extended base p) ps
      exact hrest.trans (by rw [hfirst.extended_eq]; rfl)

end JoinSpec

namespace QueryPlan

variable {p q : QueryPlan} {params : List Value} {routed : List (Nat × Expr)} {K : Store}

namespace StandsFor

/-- The main table of a bound plan is the same but for conditions. -/
lemma table_eq (h : p.StandsFor p.scope params routed q) :
    q.toTablePlan = { p.toTablePlan with
      condition := q.condition, keyCondition := q.keyCondition, strategy := q.strategy } := by
  rcases h.main with ⟨htable, -⟩ | ⟨htable, -⟩
  · exact htable.same
  · rw [htable]

variable (h : p.StandsFor p.scope params routed q) (hp : p.IsBare)

include h hp

/-- The joined tables of a bound plan have conditions of their own only. -/
lemma narrows : List.Forall₂ JoinSpec.Narrows p.joins q.joins := by
  refine forall₂_of_rel fun i => ?_
  have hbare : ∀ j, p.joins[i]? = some j → j.plan.IsBare := fun j hj =>
    hp.joins j (List.mem_of_getElem? hj)
  have hjoin := h.joins i
  generalize p.joins[i]? = j? at hjoin hbare
  generalize q.joins[i]? = k? at hjoin
  cases hjoin with
  | none => exact .none
  | some hjk =>
    obtain ⟨hplan, hk⟩ := hjk
    refine .some ⟨?_, (hbare _ rfl).condition, (hbare _ rfl).keyCondition⟩
    rw [JoinSpec.withConditions, ← hplan.same]
    exact hk

/-- The values that a bound plan computes are the same, and so are the joins that they need. -/
lemma computedColumns_eq :
    q.earlyColumns = p.earlyColumns ∧ q.lateColumns = p.lateColumns := by
  have hcomputed : q.computedColumns = p.computedColumns := by
    unfold computedColumns
    rw [h.table_eq]
  have hrefers : q.refersToJoin = p.refersToJoin := by
    have hany : ∀ (r : QueryPlan) (t : String),
        (r.joins.any fun j => j.qualifier == t) = (r.joins.map JoinSpec.qualifier).any (· == t) :=
      fun r t => by rw [List.any_map]; rfl
    funext e
    simp only [refersToJoin, hany, JoinSpec.map_qualifier_of_narrows (h.narrows hp)]
  unfold earlyColumns lateColumns
  rw [hcomputed, hrefers]
  exact ⟨rfl, rfl⟩

/-- The rows with which the joins begin are the same. -/
lemma based_eq : q.based params = p.based params := by
  unfold based
  rw [(h.computedColumns_eq hp).1, h.table_eq]

/-- The rows of joined records are the same. -/
lemma joinedRow_eq : q.joinedRow params = p.joinedRow params := by
  funext t
  simp only [joinedRow, h.based_eq hp, JoinSpec.row_zip_of_narrows (h.narrows hp)]

/-- **A bound plan returns the same for joined records.** -/
lemma displayed_eq : q.displayed params = p.displayed params := by
  have hprojection : Projection.ofPlan q = Projection.ofPlan p := by
    unfold Projection.ofPlan
    rw [JoinSpec.map_qualifier_of_narrows (h.narrows hp), h.wildcard, h.unreduced.source,
      hp.unreduced.source, h.table_eq]
  funext t
  unfold displayed
  rw [h.joinedRow_eq hp, (h.computedColumns_eq hp).2, hprojection]

end StandsFor

end QueryPlan

/-! ## Conditions that mean the same wherever they are decided -/

section

variable {scope : Scope} {c : ColumnRef} {i : Nat}

/-- Columns refer to a table by its name. -/
lemma Scope.qualifier_of_tableOf? {name : String} (h : scope.tableOf? name = some i) :
    scope.qualifier i = some name := by
  unfold tableOf? at h
  unfold qualifier TableRef.qualifier
  rcases Option.or_eq_some_iff.mp h with h | ⟨-, h⟩
  · obtain ⟨hlt, hname, -⟩ := List.findIdx?_eq_some_iff_getElem.mp h
    rw [List.getElem?_eq_getElem hlt, Option.bind_some, beq_iff_eq.mp hname]
    rfl
  · obtain ⟨hlt, hname, -⟩ := List.findIdx?_eq_some_iff_getElem.mp h
    rw [Bool.and_eq_true, Option.isNone_iff_eq_none] at hname
    rw [List.getElem?_eq_getElem hlt, Option.bind_some, hname.1, beq_iff_eq.mp hname.2]
    rfl

/-- A column does not stand in a place that it overlooks.

**Proof sketch.** A column of the main table stands under its name, which is another one by
assumption. A column of a joined table is qualified, so it would stray to the place, and then it
could not be qualified. -/
lemma Expr.Overlooks.rowKey_ne {e : Expr} {row : Row} {place : String} (h : e.Overlooks row place)
    (hc : c ∈ e.columns) (hi : scope.resolve c = .ok i) : scope.rowKey i c.name ≠ place := by
  cases i with
  | zero => exact h.names c hc
  | succ i =>
    unfold Scope.resolve at hi
    split at hi
    · cases hi
    · rename_i name htable
      split at hi
      · rename_i hname
        obtain rfl := Except.ok.inj hi
        simp only [Scope.rowKey, Scope.qualifier_of_tableOf? hname]
        intro heq
        have hstrays : c.strays place = true := by
          simp only [ColumnRef.strays, htable, beq_iff_eq]
          exact heq.symm
        have hnone := (h.strays c hc hstrays).1
        rw [htable] at hnone
        cases hnone
      · cases hi

end

/-- A condition means the same wherever it is decided. It holds no queries and no aggregates, its
columns have simple names, the values of its parameters are ones with which the store compares, and
no list in it has a truth value. It does not depend on what is computed before the joins. -/
structure QueryPlan.Suits (p : QueryPlan) (params : List Value) (K : Store) (e : Expr) : Prop where
  /-- There are no queries. -/
  query : e.hasQuery = false
  /-- There are no aggregates. -/
  aggregate : e.hasAggregate = false
  /-- The names of the columns. -/
  names : ∀ c ∈ e.columns, isSimpleName c.name = true
  /-- The values of the parameters. -/
  param : ∀ index, Expr.param index ∈ e.parts →
    ∃ v, param? params index = .ok v ∧ v.isJoinable = true
  /-- The items of lists. -/
  items : e.hasTruthItem = false
  /-- The values of parameters in lists. -/
  paramItems : ∀ a items negated, Expr.inList a items negated ∈ e.parts → ∀ item ∈ items,
    ∀ index, item.unwrap = .param index → ∀ b, param? params index ≠ .ok (.boolean b)
  /-- The places and the labels of computed values. -/
  overlook : ∀ r ∈ K.recordsOf p.ns (p.set.getD ""), ∀ i ∈ p.earlyColumns,
    e.Overlooks (Row.ofRecord r p.needsDigest) i.1.source ∧
      e.Overlooks (Row.ofRecord r p.needsDigest) i.1.label

/-- The bins of all records hold integers and texts, under simple names. -/
def Store.IsPlain (K : Store) : Prop :=
  ∀ ns set, ∀ r ∈ K.recordsOf ns set, r.isPlain = true ∧ r.hasSimpleNames = true

/-- Only sets that are there have records. -/
lemma Store.isPlain_iff {K : Store} : K.IsPlain ↔
    ∀ k ∈ K.sets.keys, ∀ r ∈ K.recordsOf k.1 k.2, r.isPlain = true ∧ r.hasSimpleNames = true := by
  refine ⟨fun h k _ => h k.1 k.2, fun h ns set r hr => ?_⟩
  by_cases hmem : (ns, set) ∈ K.sets.keys
  · exact h _ hmem r hr
  · rw [recordsOf, recordSet, OrderedMap.get?_eq_none_iff.mpr hmem] at hr
    cases hr

/-- Only the sets that are there have to be looked at. -/
instance (K : Store) : Decidable K.IsPlain := decidable_of_iff _ Store.isPlain_iff.symm

namespace QueryPlan.Suits

variable {p : QueryPlan} {params : List Value} {K : Store} {e a : Expr}

/-- What is asked of a condition is true of its conjuncts. -/
lemma mono (h : p.Suits params K e) (ha : a.parts ⊆ e.parts) : p.Suits params K a where
  query := Expr.any_eq_false.mpr fun s hs => Expr.any_eq_false.mp h.query s (ha hs)
  aggregate := Expr.any_eq_false.mpr fun s hs => Expr.any_eq_false.mp h.aggregate s (ha hs)
  names := fun c hc => h.names c (Expr.mem_columns.mpr (ha (Expr.mem_columns.mp hc)))
  param := fun index hindex => h.param index (ha hindex)
  items := Expr.any_eq_false.mpr fun s hs => Expr.any_eq_false.mp h.items s (ha hs)
  paramItems := fun b items negated hlist => h.paramItems b items negated (ha hlist)
  overlook := fun r hr i hi => by
    have hsub : ∀ c ∈ a.columns, c ∈ e.columns := fun c hc =>
      Expr.mem_columns.mpr (ha (Expr.mem_columns.mp hc))
    have hplace : ∀ place, e.Overlooks (Row.ofRecord r p.needsDigest) place →
        a.Overlooks (Row.ofRecord r p.needsDigest) place := fun place hover =>
      ⟨fun c hc => hover.names c (hsub c hc), fun c hc => hover.strays c (hsub c hc),
        fun s hs => hover.calls s (ha hs)⟩
    exact ⟨hplace _ (h.overlook r hr i hi).1, hplace _ (h.overlook r hr i hi).2⟩

variable (h : p.Suits params K e) {r : Record} (hr : r ∈ K.recordsOf p.ns (p.set.getD ""))
  {base : Row} (hbase : p.based params r = .ok base)

include h hr hbase

/-- What is computed before the joins takes no place of a column. -/
lemma get?_base {c : ColumnRef} (hc : c ∈ e.columns) {i : Nat} (hi : p.scope.resolve c = .ok i) :
    base.get? (p.scope.rowKey i c.name) =
      (Row.ofRecord r p.needsDigest).get? (p.scope.rowKey i c.name) := by
  refine get?_computeRow (fun hmem => ?_) (fun hmem => ?_) hbase
  · obtain ⟨j, hj, heq⟩ := List.mem_map.mp hmem
    obtain ⟨k, hk, rfl⟩ := List.mem_map.mp hj
    exact absurd heq.symm ((h.overlook r hr k hk).1.rowKey_ne hc hi)
  · obtain ⟨l, hl, heq⟩ := List.mem_map.mp hmem
    obtain ⟨k, hk, rfl⟩ := List.mem_map.mp hl
    exact absurd heq.symm ((h.overlook r hr k (List.mem_filter.mp hk).1).2.rowKey_ne hc hi)

/-- **On the row with which the joins begin** a condition on the main table has the value that it
has on the record.

**Proof sketch.** The computed columns and their labels are overlooked, so the row may be taken as
the one of the record. There every part of the condition reads the same: columns are those of the
main table, parameters are the same, and there are no aggregates. -/
lemma evalIn_base (hnames : r.hasSimpleNames = true)
    (hmain : ∀ c ∈ e.columns, p.scope.resolve c = .ok 0) :
    e.evalIn (base.evalEnv params) = e.evalIn ((JoinedRecords.mk r []).env p params) := by
  have hsame : e.eval params base = e.eval params (Row.ofRecord r p.needsDigest) := by
    refine Expr.eval_computeRow (fun i hi => ?_) (fun l hl => ?_) hbase
    · obtain ⟨k, hk, rfl⟩ := List.mem_map.mp hi
      exact (h.overlook r hr k hk).1
    · obtain ⟨k, hk, rfl⟩ := List.mem_map.mp hl
      exact (h.overlook r hr k (List.mem_filter.mp hk).1).2
  refine hsame.trans (Expr.evalIn_congr e fun s hs => ?_)
  cases s with
  | column c =>
    have hc := Expr.mem_columns.mpr hs
    change ((Row.ofRecord r p.needsDigest).lookup? c).getD .null = _
    rw [JoinedRecords.column_env (hmain c hc), Row.lookup?_ofRecord hnames c]
    rfl
  | param index => rfl
  | call name args distinct =>
    intro hname
    exact absurd (Expr.any_eq_false.mp h.aggregate _ hs) (by simp [Expr.isAggregate, hname])
  | _ => trivial

end QueryPlan.Suits

namespace QueryPlan.Suits

variable {p : QueryPlan} {params : List Value} {K : Store} {e : Expr}

/-- The unknowns of such a condition have values with which the store compares, if values of other
tables are no floats. -/
lemma isSupplied (h : p.Suits params K e) {scope : Scope} {target : Nat} {ρ : Resolution}
    (houter : ∀ c ∈ e.columns, ∀ table, scope.resolve c = .ok table → table ≠ target →
      (ρ.outer (scope.rowKey table c.name)).isFloat = false) :
    e.IsSupplied scope target params ρ where
  param := h.param
  outer := fun c table hc => houter c (Expr.mem_columns.mpr hc) table
  query := Expr.any_eq_false.mp h.query

/-- No list in such a condition has an item that evaluates to a truth value. -/
lemma listsAt (h : p.Suits params K e) {env : EvalEnv} (henv : env.params = params) {scope : Scope}
    {target : Nat} : ∀ s ∈ e.parts, env.ListsAt scope target s :=
  Expr.listsAt_of_param (henv ▸ h.paramItems) h.items

end QueryPlan.Suits

/-- **The conditions of a bound table decide its conjuncts**: a record satisfies them if all
conjuncts are true, where those without a value leave the decision to the others. -/
lemma TablePlan.StandsFor.holdsIn_eq {scope : Scope} {params : List Value} {table : Nat}
    {es : List Expr} {t u : TablePlan} (h : t.StandsFor scope params table es u) {p : QueryPlan}
    {K : Store} (hes : ∀ e ∈ es, p.Suits params K e) {r : Record} (hplain : r.isPlain = true)
    {ρ : Resolution} (hρ : ρ.Gives params) {env : EvalEnv} (henv : env.params = params)
    (houter : ∀ e ∈ es, ∀ c ∈ e.columns, ∀ i, scope.resolve c = .ok i → i ≠ table →
      (ρ.outer (scope.rowKey i c.name)).isFloat = false)
    (hreads : ∀ e ∈ es, ∀ s ∈ e.parts, env.ReadsAt scope table ρ r s) :
    es.all (Expr.decided env (u.holdsIn ρ r)) = u.holdsIn ρ r := by
  obtain ⟨parts, rfl, hof, hmeans⟩ := h.parts
  have hholds : u.holdsIn ρ r = parts.all fun a => a.2.holdsIn ρ r := by
    rw [hmeans.holdsIn ρ hρ r, List.all_map]
    rfl
  rw [hholds]
  refine Expr.all_decided fun a ha => ?_
  have hmem := List.mem_map_of_mem (f := Prod.fst) ha
  have hsuits := hes a.1 hmem
  exact (hof a ha).1.decides hplain (hreads a.1 hmem) (hsuits.listsAt henv)
    ((hof a ha).1.fits hρ (hsuits.isSupplied (houter a.1 hmem)) (hof a ha).2)

/-! ## Joined records that a bound plan takes -/

/-- The decision of a bound plan on the last of joined records: on the record of the main table, or
on its last partner. -/
def QueryPlan.admitsLast (q : QueryPlan) (params : List Value) (t : JoinedRecords) : Bool :=
  match t.partners.getLast?, q.joins[t.partners.length - 1]?,
      q.joinedRow params ⟨t.main, t.partners.dropLast⟩ with
  | some (some r), some k, .ok row => k.test row r
  | _, _, _ => q.takes params t.main

/-- What a record of plain values has under a label is no float. -/
lemma Record.isFloat_get? {r : Record} (hplain : r.isPlain = true) (withDigest : Bool)
    (label : String) :
    (((Row.ofRecord r withDigest).get? label).getD .null).isFloat = false := by
  rw [Row.get?_ofRecord]
  have hbin := Record.isPlain_bin? hplain label
  cases hvalue : r.bin? label with
  | some v =>
    rw [hvalue] at hbin
    cases v <;> first | rfl | cases hbin
  | none =>
    rw [Option.none_or]
    split
    · rfl
    · split
      · cases r.key.user <;> rfl
      · rfl

/-- The value of a column on joined records of plain values is no float. -/
lemma JoinedRecords.isFloat_column {t : JoinedRecords} (hmain : t.main.isPlain = true)
    (hpartners : ∀ r, some r ∈ t.partners → r.isPlain = true) {p : QueryPlan} {params : List Value}
    {c : ColumnRef} {i : Nat} (hc : p.scope.resolve c = .ok i) :
    ((t.env p params).column c).isFloat = false := by
  rw [column_env hc]
  cases hrow : t.row? p i with
  | none => rfl
  | some out =>
    obtain ⟨r, hplain, withDigest, rfl⟩ :
        ∃ r : Record, r.isPlain = true ∧ ∃ withDigest, out = Row.ofRecord r withDigest := by
      cases i with
      | zero => exact ⟨t.main, hmain, _, (Option.some.inj hrow).symm⟩
      | succ i =>
        obtain ⟨j, -, hj⟩ := Option.bind_eq_some_iff.mp hrow
        obtain ⟨partner, hpartner, hout⟩ := Option.bind_eq_some_iff.mp hj
        obtain ⟨r, rfl, rfl⟩ := Option.map_eq_some_iff.mp hout
        exact ⟨r, hpartners r (List.mem_of_getElem? hpartner), _, rfl⟩
    exact Record.isFloat_get? hplain _ _

/-- The conditions on a joined table are decided with the values of the row in place. -/
lemma JoinSpec.test_eq_holdsIn {j : JoinSpec} (params : List Value) (row : Row) (r : Record)
    (hwithin : j.plan.condition.all (Condition.isWithin .outersOnly) = true)
    (hkinded : j.plan.condition.all Condition.isKinded = true)
    (hcomparable : j.plan.keyCondition.all KeyCondition.isComparable = true) :
    j.test row r = j.plan.holdsIn (.ofRow params row) r := by
  have hcondition : j.plan.condition.all (Condition.holdsFor row r) =
      j.plan.condition.all (Condition.holdsIn (.ofRow params row) r) := by
    cases hc : j.plan.condition with
    | none => rfl
    | some c =>
      rw [hc] at hwithin hkinded
      exact Condition.holdsFor_eq r c hwithin hkinded
  have hkey : j.plan.keyCondition.all (KeyCondition.holdsIn .unknown r.key.user) =
      j.plan.keyCondition.all (KeyCondition.holdsIn (.ofRow params row) r.key.user) := by
    cases hc : j.plan.keyCondition with
    | none => rfl
    | some c =>
      rw [hc] at hcomparable
      exact KeyCondition.holdsIn_of_isComparable hcomparable _ _ _
  rw [test, TablePlan.holdsIn, hcondition, hkey]

/-- Partners that tables may have are records of the store. -/
lemma JoinSpec.exists_of_takes {js : List JoinSpec} {ps : List (Option Record)} {K : Store}
    (hps : ∀ t ∈ js.zip ps, t.1.Takes K t.2) (hlength : ps.length ≤ js.length) {r : Record}
    (hr : some r ∈ ps) : ∃ ns set, r ∈ K.recordsOf ns set := by
  obtain ⟨n, hn⟩ := List.mem_iff_getElem?.mp hr
  have hlt : n < js.length := (List.getElem?_eq_some_iff.mp hn).1.trans_le hlength
  have hmem : (js[n], some r) ∈ js.zip ps :=
    List.mem_of_getElem? (List.getElem?_zip_eq_some.mpr ⟨List.getElem?_eq_getElem hlt, hn⟩)
  obtain ⟨set, -, hrecord⟩ := hps _ hmem
  exact ⟨_, set, hrecord⟩

namespace QueryPlan.StandsFor

variable {p q : QueryPlan} {params : List Value} {routed : List (Nat × Expr)} {K : Store}
  {main : Record} {base : Row}
  (h : p.StandsFor p.scope params routed q) (hp : p.IsBare) (hK : K.IsPlain)
  (hes : ∀ i, ∀ e ∈ conjunctsAt routed i,
    p.Suits params K e ∧ lastTable p.scope e.columns = .ok i)
  (hmain : main ∈ K.recordsOf p.ns (p.set.getD "")) (hbase : p.based params main = .ok base)

include h hp hK hes hmain hbase

/-- **The record of the main table is taken** if the conjuncts there are true.

**Proof sketch.** By what became of the condition. In a plan whose table holds the conjuncts, the
record is accepted if and only if these are decided to be true on it. In a plan with a row filter
every record is accepted, and the filter is the conjunction, which has the same value on the base
row. -/
lemma takes_eq (hknown : q.toTablePlan.isKnown = true) :
    (conjunctsAt routed 0).all (Expr.decided ((JoinedRecords.mk main []).env p params)
      (q.takes params main)) = q.takes params main := by
  have hcolumns : ∀ e ∈ conjunctsAt routed 0, ∀ c ∈ e.columns, p.scope.resolve c = .ok 0 := by
    intro e he c hc
    obtain ⟨i, hi, hresolve⟩ := lastTable_spec (hes 0 e he).2 c hc
    rwa [Nat.le_zero.mp hi] at hresolve
  have hqbase : q.based params main = .ok base := by rwa [h.based_eq hp]
  have haccepts := congrFun (TablePlan.accepts_eq (.ofRow params .empty) hknown) main
  rcases h.main with ⟨htable, hfilter⟩ | ⟨htable, e, hfilter, hconjuncts⟩
  · have htakes : q.takes params main = q.holdsIn (.ofRow params .empty) main := by
      simp only [takes, hqbase, ok_bind, passes, hfilter, haccepts]
      exact Bool.and_true _
    rw [htakes]
    refine htable.holdsIn_eq (fun e he => (hes 0 e he).1) (hK _ _ main hmain).1
      (Resolution.gives_ofRow params _) rfl (fun e he c hc i hi hne => ?_) fun e he => ?_
    · exact absurd (Except.ok.inj (hi.symm.trans (hcolumns e he c hc))) hne
    · exact JoinedRecords.readsAt_main (hK _ _ main hmain).2 (Resolution.gives_ofRow params _)
        (hcolumns e he)
  · have hall : q.holdsIn (.ofRow params .empty) main = true := by
      rw [TablePlan.holdsIn, htable, hp.main.condition, hp.main.keyCondition]
      rfl
    have htakes : q.takes params main =
        (e.evalIn (base.evalEnv params)).toOption.any Value.isTruthy := by
      simp only [takes, hqbase, ok_bind, passes, hfilter, haccepts, hall, Bool.true_and,
        Expr.holdsOn, Expr.eval]
      cases e.evalIn (base.evalEnv params) <;> rfl
    have hsame : ∀ b, (conjunctsAt routed 0).all
        (Expr.decided ((JoinedRecords.mk main []).env p params) b) =
          (conjunctsAt routed 0).all (Expr.decided (base.evalEnv params) b) := by
      intro b
      rw [Bool.eq_iff_iff, List.all_eq_true, List.all_eq_true]
      refine forall₂_congr fun c hc => ?_
      rw [Expr.decided_congr ((hes 0 c hc).1.evalIn_base hmain hbase (hK _ _ main hmain).2
        (hcolumns c hc))]
    rw [htakes, hsame, ← hconjuncts]
    exact e.all_decided_conjuncts

/-- **A partner is admitted** if the conjuncts on its table are true.

**Proof sketch.** The test of a joined table is what its condition says of the partner, and the
condition is made of the conjuncts on this table. Columns of the tables before are filled in from
the row of the joins so far, which has the values of their records, none of them a float; so the
conjuncts are read as they are evaluated. -/
lemma test_eq (hnodup : (p.joins.map JoinSpec.qualifier).Nodup) {ps : List (Option Record)}
    (hps : ∀ t ∈ p.joins.zip ps, t.1.Takes K t.2) {k : JoinSpec} (hk : q.joins[ps.length]? = some k)
    (hwithin : k.plan.condition.all (Condition.isWithin .outersOnly) = true) {r : Record}
    (hr : r ∈ K.recordsOf k.plan.ns (k.plan.set.getD "")) :
    (conjunctsAt routed (ps.length + 1)).all
      (Expr.decided ((JoinedRecords.mk main (ps ++ [some r])).env p params)
        (k.test (JoinedTuple.mk base (p.joins.zip ps)).row r)) =
      k.test (JoinedTuple.mk base (p.joins.zip ps)).row r := by
  have hjoin := h.joins ps.length
  rw [hk] at hjoin
  cases hj : p.joins[ps.length]? with
  | none =>
    rw [hj] at hjoin
    cases hjoin
  | some j =>
    rw [hj] at hjoin
    obtain ⟨hplan, -⟩ := Option.rel_some_some.mp hjoin
    have hlt : ps.length < p.joins.length := (List.getElem?_eq_some_iff.mp hj).1
    have hpartners : ∀ s, some s ∈ ps → s.isPlain = true ∧ s.hasSimpleNames = true := by
      intro s hs
      obtain ⟨ns, set, hrecord⟩ := JoinSpec.exists_of_takes hps hlt.le hs
      exact hK ns set s hrecord
    have hapart : p.TablesApart := ⟨hp.named, hnodup⟩
    have hnames : (JoinedRecords.mk main ps).HasSimpleNames :=
      ⟨(hK _ _ main hmain).2, fun s hs => (hpartners s hs).2⟩
    have hcolumns := fun e he => lastTable_spec (hes (ps.length + 1) e he).2
    have htest : k.test (JoinedTuple.mk base (p.joins.zip ps)).row r =
        k.plan.holdsIn (.ofRow params (JoinedTuple.mk base (p.joins.zip ps)).row) r := by
      obtain ⟨parts, -, -, hmeans⟩ := hplan.parts
      exact JoinSpec.test_eq_holdsIn params _ r hwithin hmeans.kinded hmeans.comparable
    rw [htest]
    refine hplan.holdsIn_eq (fun e he => (hes _ e he).1) (hK _ _ r hr).1
      (Resolution.gives_ofRow params _) rfl (fun e he c hc i hi hne => ?_) fun e he => ?_
    · obtain ⟨i', hle, hi'⟩ := hcolumns e he c hc
      obtain rfl := Except.ok.inj (hi.symm.trans hi')
      have hbefore : i ≤ ps.length := Nat.lt_succ_iff.mp (lt_of_le_of_ne hle hne)
      have hvalue : ((JoinedTuple.mk base (p.joins.zip ps)).row.get?
          (p.scope.rowKey i c.name)).getD .null =
            ((JoinedRecords.mk main ps).env p params).column c :=
        JoinedRecords.getD_row hapart hnames ((hes _ e he).1.names c hc) hi hbefore
          ((hes _ e he).1.get?_base hmain hbase hc hi)
      exact (congrArg Value.isFloat hvalue).trans
        (JoinedRecords.isFloat_column (hK _ _ main hmain).1 (fun s hs => (hpartners s hs).1) hi)
    · exact JoinedRecords.readsAt_joined (t := ⟨main, ps⟩) hapart hnames (hK _ _ r hr).2 hlt
        (hes _ e he).1.names (hcolumns e he) fun c hc i hi =>
          (hes _ e he).1.get?_base hmain hbase hc hi

end QueryPlan.StandsFor

namespace QueryPlan

variable {p q : QueryPlan} {params : List Value} {routed : List (Nat × Expr)} {K : Store}

/-- **A bound plan takes the joined records that its conjuncts admit**: a record of the main table
if the conjuncts there are true, and each further partner if those on its table are.

**Proof sketch.** On the main table this is `QueryPlan.StandsFor.takes_eq`. The joined tables are
those of the plan without conditions, with conditions that decide the conjuncts
(`QueryPlan.StandsFor.test_eq`), so that they offer the partners that these admit
(`JoinSpec.matchings_of_narrows`). -/
theorem StandsFor.tuples_eq (h : p.StandsFor p.scope params routed q) (hp : p.IsBare)
    (hK : K.IsPlain) (hes : ∀ i, ∀ e ∈ conjunctsAt routed i,
      p.Suits params K e ∧ lastTable p.scope e.columns = .ok i)
    (hnodup : (p.joins.map JoinSpec.qualifier).Nodup) (hq : q.IsRunnable) :
    (q.tuples params K fun t => !t.partners.isEmpty || q.takes params t.main) =
      p.tuples params K fun t => (conjunctsAt routed t.partners.length).all
        (Expr.decided (t.env p params) (q.admitsLast params t)) := by
  have hrecords : K.recordsOf q.ns (q.set.getD "") = K.recordsOf p.ns (p.set.getD "") := by
    rw [h.table_eq]
  unfold tuples
  rw [hrecords, JoinSpec.flatMap_filter, JoinSpec.flatMap_filter]
  refine List.flatMap_congr fun main hmain => ?_
  cases hbase : p.based params main with
  | error err => simp only [tuplesOf, h.based_eq hp, hbase, ite_self]
  | ok base =>
    have hfirst := h.takes_eq hp hK hes hmain hbase hq.known
    have hlast : q.admitsLast params ⟨main, []⟩ = q.takes params main := rfl
    simp only [List.isEmpty_nil, Bool.not_true, Bool.false_or, List.length_nil, hlast, hfirst]
    cases htakes : q.takes params main with
    | false => rfl
    | true =>
      simp only [tuplesOf, h.based_eq hp, hbase, htakes, Bool.or_true, if_true]
      refine congrArg (List.map _) (JoinSpec.matchings_of_narrows (h.narrows hp)
        (fun j hj => (hp.joins j hj).set) fun ps k r hps hk hr => ?_)
      have hrow : q.joinedRow params ⟨main, ps⟩ =
          .ok (JoinedTuple.mk base (p.joins.zip ps)).row := by
        rw [h.joinedRow_eq hp]
        simp only [joinedRow, hbase, ok_bind]
        rfl
      have hadmits : q.admitsLast params ⟨main, ps ++ [some r]⟩ =
          k.test (JoinedTuple.mk base (p.joins.zip ps)).row r := by
        simp only [admitsLast, List.getLast?_concat, List.dropLast_concat, List.length_append,
          List.length_singleton, Nat.add_sub_cancel, hk, hrow]
      rw [hadmits, List.length_append, List.length_singleton]
      exact (h.test_eq hp hK hes hmain hbase hnodup hps hk
        (hq.joins k (List.mem_of_getElem? hk)).condition hr).symm

/-- **The rows of a bound plan show the joined records that its conjuncts admit.** -/
theorem StandsFor.shows (h : p.StandsFor p.scope params routed q) (hp : p.IsBare)
    (hK : K.IsPlain) (hes : ∀ i, ∀ e ∈ conjunctsAt routed i,
      p.Suits params K e ∧ lastTable p.scope e.columns = .ok i)
    (hnodup : (p.joins.map JoinSpec.qualifier).Nodup) (hq : q.IsRunnable) {P : Pipeline}
    (hP : q.pipeline = .ok P) {env : ExecutionEnv} (henv : env.params = params) {rows : List Row}
    (hl : P.listing env K = .ok (.ofRows rows)) :
    p.Shows params (p.tuples params K fun t => (conjunctsAt routed t.partners.length).all
      (Expr.decided (t.env p params) (q.admitsLast params t))) rows := by
  subst henv
  have hshows := hq.shows_tuples hP hl
  rw [h.tuples_eq hp hK hes hnodup hq] at hshows
  unfold Shows at hshows ⊢
  rwa [h.displayed_eq hp] at hshows

/-! ## Conditions on all tables together -/

section

variable {w : Expr} {holds : JoinedRecords → Expr → Bool}
  (hrouted : routeConjuncts p.scope w.conjuncts = .ok routed)
  (hholds : ∀ t e, Decides (holds t e) (e.evalIn (t.env p params)))

include hrouted hholds

/-- **The conjuncts on all tables together** are the condition: each of them has the value on its
table that it has behind all joins.

**Proof sketch.** The conjuncts are evaluated behind all joins, but each of them refers only to the
tables up to its own, so it has the same value where only these are joined. The initial parts of the
partners are exactly these places, and the conjuncts at each of them are those whose last table it
is. -/
lemma all_inits_eq {main : Record} {ps : List (Option Record)}
    (hlength : ps.length = p.joins.length)
    {v : Value} (hv : w.evalIn ((JoinedRecords.mk main ps).env p params) = .ok v) :
    (ps.inits.all fun qs => (conjunctsAt routed qs.length).all (holds ⟨main, qs⟩)) =
      v.isTruthy := by
  obtain ⟨hsnd, hlast⟩ := routeConjuncts_spec hrouted
  have hall : Decides (routed.all fun a => holds ⟨main, ps.take a.1⟩ a.2)
      (w.evalIn ((JoinedRecords.mk main ps).env p params)) := by
    refine Decides.conjuncts w routed hsnd fun a ha => ?_
    have hlt := lt_length_of_lastTable (List.cons_ne_nil _ _) (hlast a ha)
    rw [List.length_cons, List.length_map, Nat.lt_succ_iff, ← hlength] at hlt
    have hsame : a.2.evalIn ((JoinedRecords.mk main (ps.take a.1 ++ ps.drop a.1)).env p params) =
        a.2.evalIn ((JoinedRecords.mk main (ps.take a.1)).env p params) :=
      JoinedRecords.evalIn_append fun c hc => by
        rw [List.length_take_of_le hlt]
        exact lastTable_spec (hlast a ha) c hc
    rw [List.take_append_drop] at hsame
    rw [hsame]
    exact hholds _ _
  rw [hall v hv, Bool.eq_iff_iff, List.all_eq_true, List.all_eq_true]
  constructor
  · intro h a ha
    have hlt := lt_length_of_lastTable (List.cons_ne_nil _ _) (hlast a ha)
    rw [List.length_cons, List.length_map, Nat.lt_succ_iff, ← hlength] at hlt
    have hpart := h _ (List.mem_inits _ _ |>.mpr (List.take_prefix a.1 ps))
    rw [List.length_take_of_le hlt] at hpart
    exact List.all_eq_true.mp hpart a.2
      (List.mem_map_of_mem (List.mem_filter.mpr ⟨ha, beq_self_eq_true a.1⟩))
  · intro h qs hqs
    rw [List.all_eq_true]
    intro e he
    obtain ⟨a, ha, rfl⟩ := List.mem_map.mp he
    obtain ⟨hmem, htable⟩ := List.mem_filter.mp ha
    have hpart := h a hmem
    rwa [beq_iff_eq.mp htable, ← List.prefix_iff_eq_take.mp ((List.mem_inits _ _).mp hqs)] at hpart

/-- **What the conjuncts admit are the joined records on which the condition is true**, if it has a
value on all of them and no conjunct is on the table of a left join.

**Proof sketch.** Partners that are left out at once may as well be left out afterwards
(`JoinSpec.matchings_eq_filter`), and then the conjuncts on all tables together are the condition
(`QueryPlan.all_inits_eq`). -/
theorem tuples_eq_filter
    (hleft : ∀ (i : Nat) (j : JoinSpec), p.joins[i]? = some j → j.kind = .left →
      conjunctsAt routed (i + 1) = [])
    (hvalue : ∀ t ∈ p.tuples params K fun _ => true, ∃ v, w.evalIn (t.env p params) = .ok v) :
    (p.tuples params K fun t => (conjunctsAt routed t.partners.length).all (holds t)) =
      (p.tuples params K fun _ => true).filter fun t =>
        (w.evalIn (t.env p params)).toOption.any Value.isTruthy := by
  have hall : (p.tuples params K fun _ => true) =
      (K.recordsOf p.ns (p.set.getD "")).flatMap (p.tuplesOf params K fun _ => true) := by
    rw [tuples, List.filter_true]
  rw [hall] at hvalue ⊢
  rw [tuples, JoinSpec.flatMap_filter, List.filter_flatMap]
  refine List.flatMap_congr fun main hmain => ?_
  cases hbase : p.based params main with
  | error err => simp only [tuplesOf, hbase, ite_self, List.filter_nil]
  | ok base =>
    have hmatchings : JoinSpec.matchings K
        (fun ps => (conjunctsAt routed ps.length).all (holds ⟨main, ps⟩)) p.joins base =
          (JoinSpec.matchings K (fun _ => true) p.joins base).filter fun ps =>
            ps.inits.tail.all fun qs => (conjunctsAt routed qs.length).all (holds ⟨main, qs⟩) :=
      JoinSpec.matchings_eq_filter fun i j hj hkind ps hps => by
        simp only [hps, hleft i j hj hkind, List.all_nil]
    have htrue : ∀ ps ∈ JoinSpec.matchings K (fun _ => true) p.joins base,
        ((conjunctsAt routed 0).all (holds ⟨main, []⟩) &&
          ps.inits.tail.all fun qs => (conjunctsAt routed qs.length).all (holds ⟨main, qs⟩)) =
            (w.evalIn ((JoinedRecords.mk main ps).env p params)).toOption.any Value.isTruthy := by
      intro ps hps
      have hmem : JoinedRecords.mk main ps ∈ p.tuplesOf params K (fun _ => true) main := by
        simp only [tuplesOf, hbase]
        exact List.mem_map_of_mem hps
      obtain ⟨v, hv⟩ := hvalue _ (List.mem_flatMap.mpr ⟨main, hmain, hmem⟩)
      have hinits := all_inits_eq hrouted hholds (JoinSpec.length_of_mem_matchings hps) hv
      rw [hv]
      refine Eq.trans ?_ hinits
      cases ps <;> rfl
    simp only [tuplesOf, hbase, hmatchings, List.length_nil, List.filter_map, Function.comp_def]
    rw [← List.filter_congr htrue]
    cases (conjunctsAt routed 0).all (holds ⟨main, []⟩) <;> simp

end

end QueryPlan

end RecordQuery
