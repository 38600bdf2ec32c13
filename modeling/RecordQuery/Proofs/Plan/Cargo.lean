import RecordQuery.Proofs.Execution.Selected
import RecordQuery.Proofs.Plan.Substitution

set_option autoImplicit false

/-!
# What plans carry

A plan says which records are read and what their rows carry: columns, on request the digest, and
on request all columns of the record. The first does not depend on the second. So every step that
makes a plan ready to run can be looked at for one cargo, and does the same for any other one.

## Main definitions

* `QueryPlan.Cargo`, `QueryPlan.carrying` — what the rows of a plan carry, and a plan with another
  cargo.
* `QueryPlan.IgnoresCargo` — a step that does the same whatever the cargo is.
* `QueryPlan.IsListing` — a plan that returns records of a set, each as a row;
  `QueryPlan.IsUnpaged` — as they come, and all of them.
* `QueryPlan.DecidesOnly` — what a plan decides row by row is a given condition.

## Main results

* `QueryPlan.ignoresCargo_bind`, `QueryPlan.ignoresCargo_prepare` — binding and preparing ignore the
  cargo.
* `QueryPlan.IsListing.bind`, `QueryPlan.IsListing.prepare` — plans that list records keep doing
  so.
-/

namespace RecordQuery

open Outcome

namespace QueryPlan

/-! ## Cargo -/

/-- What the rows of a plan carry. -/
structure Cargo where
  /-- The columns, in order. -/
  columns : List Column
  /-- Whether rows carry the digest of the key. -/
  needsDigest : Bool
  /-- Whether all columns are returned. -/
  wildcard : Bool

/-- The cargo of a plan. -/
def cargo (p : QueryPlan) : Cargo := ⟨p.columns, p.needsDigest, p.wildcard⟩

/-- A plan with another cargo. -/
def carrying (p : QueryPlan) (c : Cargo) : QueryPlan :=
  { p with columns := c.columns, needsDigest := c.needsDigest, wildcard := c.wildcard }

variable {p q : QueryPlan} {params : List Value} {ns set : String}

/-- A plan carries its own cargo. -/
@[simp]
lemma carrying_cargo (p : QueryPlan) : p.carrying p.cargo = p := by
  cases p
  rfl

/-- The cargo of a plan is what it was made to carry. -/
@[simp]
lemma cargo_carrying (p : QueryPlan) (c : Cargo) : (p.carrying c).cargo = c := rfl

/-- Of two cargoes the last one counts. -/
@[simp]
lemma carrying_carrying (p : QueryPlan) (c d : Cargo) :
    (p.carrying c).carrying d = p.carrying d := rfl

/-- A step that does the same whatever the cargo is, and leaves the cargo as it is. -/
def IgnoresCargo {m : Type → Type} [Functor m] (step : QueryPlan → m QueryPlan) : Prop :=
  ∀ p c, step (p.carrying c) = (fun q => q.carrying c) <$> step p

/-- **A step that ignores the cargo** takes plans that differ in it to plans that differ in it, and
leaves it as it is. -/
lemma IgnoresCargo.of_eq_ok {step : QueryPlan → Except QueryError QueryPlan}
    (hstep : IgnoresCargo step) (h : step p = .ok q) :
    q.cargo = p.cargo ∧ ∀ c, step (p.carrying c) = .ok (q.carrying c) := by
  have hall : ∀ c, step (p.carrying c) = .ok (q.carrying c) := fun c => by
    rw [hstep p c, h]
    rfl
  refine ⟨?_, hall⟩
  have hown := hall p.cargo
  rw [carrying_cargo, h] at hown
  rw [Except.ok.inj hown, cargo_carrying]

/-- The same for a step that reads a store. -/
lemma IgnoresCargo.of_reads {step : QueryPlan → StoreM QueryPlan} {K : Store}
    (hstep : IgnoresCargo step) (h : (step p).Reads K (.ok q)) :
    q.cargo = p.cargo ∧ ∀ c, (step (p.carrying c)).Reads K (.ok (q.carrying c)) := by
  have hall : ∀ c, (step (p.carrying c)).Reads K (.ok (q.carrying c)) := fun c => by
    rw [hstep p c]
    exact h.map fun q => q.carrying c
  refine ⟨?_, hall⟩
  have hown := hall p.cargo
  rw [carrying_cargo] at hown
  rw [Except.ok.inj (h.unique hown), cargo_carrying]

/-- One step after another. -/
lemma IgnoresCargo.bind {m : Type → Type} [Monad m] [LawfulMonad m]
    {step next : QueryPlan → m QueryPlan} (hstep : IgnoresCargo step) (hnext : IgnoresCargo next) :
    IgnoresCargo fun p => step p >>= next := by
  intro p c
  simp only [hstep p c, bind_map_left, map_bind, hnext _ c]

/-- The choice of a strategy looks at conditions and indexes only. -/
lemma ignoresCargo_chooseStrategy : IgnoresCargo chooseStrategy := by
  intro p c
  obtain ⟨table, wildcard, rowFilter, whereClause, having, reduction, distinct, joins, orderBy,
    offset, limit, source, subqueries⟩ := p
  cases source with
  | some n => rfl
  | none =>
    cases reduction with
    | none =>
      change (table.readingStrategy >>= _) = _ <$> (table.readingStrategy >>= _)
      cases table.readingStrategy <;> rfl
    | some r =>
      change (table.reducingStrategy r.call >>= _) = _ <$> (table.reducingStrategy r.call >>= _)
      cases table.reducingStrategy r.call <;> rfl

/-- Neither does it matter for a condition that is decided row by row. -/
lemma ignoresCargo_filterByRow (index : Nat) : IgnoresCargo (filterByRow · index) := by
  intro p c
  obtain ⟨table, wildcard, rowFilter, whereClause, having, reduction, distinct, joins, orderBy,
    offset, limit, source, subqueries⟩ := p
  cases whereClause with
  | none => rfl
  | some e => cases reduction <;> cases source <;> rfl

/-- Nor for the parameters of a plan. -/
lemma ignoresCargo_bindOwn (params : List Value) : IgnoresCargo (bindOwn params) := by
  intro p c
  simp only [bindOwn, TablePlan.bindConditions, map_bind, bind_assoc, pure_bind]
  refine bind_congr fun joins => bind_congr fun condition => bind_congr fun key =>
    bind_congr fun offset => bind_congr fun limit => ?_
  have hparam : TablePlan.floatParam? { (p.carrying c).toTablePlan with
      condition, keyCondition := key } =
        TablePlan.floatParam? { p.toTablePlan with condition, keyCondition := key } := rfl
  have hstep : ∀ step : QueryPlan → Except QueryError QueryPlan, IgnoresCargo step →
      step { p.carrying c with condition, keyCondition := key, joins, offset, limit } =
        (fun q => q.carrying c) <$>
          step { p with condition, keyCondition := key, joins, offset, limit } :=
    fun step h => h { p with condition, keyCondition := key, joins, offset, limit } c
  simp only [hparam]
  split
  · exact hstep _ ((ignoresCargo_filterByRow _).bind ignoresCargo_chooseStrategy)
  · exact hstep _ ignoresCargo_chooseStrategy

/-- **Binding ignores the cargo.** -/
theorem ignoresCargo_bind (params : List Value) : IgnoresCargo (QueryPlan.bind params) := by
  intro p c
  rw [bind_eq, bind_eq, map_bind]
  refine bind_congr fun source => ?_
  rw [map_bind]
  exact bind_congr fun subqueries => ignoresCargo_bindOwn params { p with source, subqueries } c

/-- So does putting the results of sub-queries in their places. -/
lemma ignoresCargo_substitute (rs : SlotResults) : IgnoresCargo (substitute · rs) := by
  intro p c
  simp only [substitute, map_bind]
  exact bind_congr fun condition => bind_congr fun key =>
    ignoresCargo_chooseStrategy { p with condition, keyCondition := key } c

/-- A step without the store, taken among steps that may read it. -/
lemma IgnoresCargo.lift {step : QueryPlan → Except QueryError QueryPlan}
    (hstep : IgnoresCargo step) : IgnoresCargo fun p => (liftM (step p) : StoreM QueryPlan) := by
  intro p c
  simp only [hstep p c]
  cases step p <;> rfl

/-- **Preparing ignores the cargo.** -/
theorem ignoresCargo_prepare (env : ExecutionEnv) : IgnoresCargo (QueryPlan.prepare env) := by
  intro p c
  rw [prepare_eq, prepare_eq, map_bind]
  refine bind_congr fun source => ?_
  change resolve (({ p with source } : QueryPlan).carrying c) (slotRuns env p.subqueries) =
    _ <$> resolve { p with source } (slotRuns env p.subqueries)
  unfold resolve
  cases p.subqueries with
  | nil => rfl
  | cons s ss =>
    refine .trans (bind_congr fun rs => ?_) (map_bind _ _ _).symm
    exact (ignoresCargo_substitute rs).lift _ c

/-- **A plan that was bound and prepared carries what it did before.** -/
lemma cargo_eq_of_prepare {b : QueryPlan} {env : ExecutionEnv} {K : Store}
    (hb : p.bind params = .ok b) (hq : (b.prepare env).Reads K (.ok q)) :
    q.columns = p.columns ∧ q.needsDigest = p.needsDigest ∧ q.wildcard = p.wildcard := by
  have hcargo : q.cargo = p.cargo := ((ignoresCargo_prepare env).of_reads hq).1.trans
    ((ignoresCargo_bind params).of_eq_ok hb).1
  exact ⟨congrArg Cargo.columns hcargo, congrArg Cargo.needsDigest hcargo,
    congrArg Cargo.wildcard hcargo⟩

/-! ## Plans that list records -/

/-- A plan returns records of a set, each as a row. -/
structure IsListing (ns set : String) (p : QueryPlan) : Prop where
  /-- The namespace. -/
  ns : p.ns = ns
  /-- The set. -/
  set : p.set = some set
  /-- It reads the store. -/
  source : p.source = none
  /-- It reduces nothing. -/
  reduction : p.reduction = none
  /-- It joins nothing. -/
  joins : p.joins = []
  /-- It has no condition on groups. -/
  having : p.having = none

/-- A plan returns its rows as they come, and all of them. -/
structure IsUnpaged (p : QueryPlan) : Prop where
  /-- They are not sorted. -/
  orderBy : p.orderBy = []
  /-- None is skipped. -/
  offset : p.offset = none
  /-- None is cut off. -/
  limit : p.limit = none

/-- What a plan decides row by row, now or if the store cannot be given a parameter, is a given
condition. -/
structure DecidesOnly (condition : Option Expr) (p : QueryPlan) : Prop where
  /-- The row filter. -/
  rowFilter : ∀ e ∈ p.rowFilter, e ∈ condition
  /-- What becomes the row filter. -/
  whereClause : ∀ e ∈ p.whereClause, e ∈ condition

/-- A choice of strategy leaves the rest of a listing as it is. -/
lemma IsListing.chooseStrategy (h : p.IsListing ns set) (hq : p.chooseStrategy = .ok q) :
    q.IsListing ns set := by
  obtain ⟨s, rfl⟩ := eq_of_chooseStrategy hq
  exact { h with }

/-- It does not sort or cut off rows either. -/
lemma IsUnpaged.chooseStrategy (h : p.IsUnpaged) (hq : p.chooseStrategy = .ok q) :
    q.IsUnpaged := by
  obtain ⟨s, rfl⟩ := eq_of_chooseStrategy hq
  exact { h with }

/-- It does not change what is decided row by row. -/
lemma DecidesOnly.chooseStrategy {condition : Option Expr} (h : p.DecidesOnly condition)
    (hq : p.chooseStrategy = .ok q) : q.DecidesOnly condition := by
  obtain ⟨s, rfl⟩ := eq_of_chooseStrategy hq
  exact { h with }

namespace IsListing

/-- What binding does to a listing: it changes conditions, bounds, the strategy and sub-queries.

**Proof sketch.** The source is none and stays none. Of the own part of the binding there are two
cases: the conditions are bound, or the whole condition becomes the row filter and the others are
dropped. Both end with the choice of a strategy, which settles the plan and changes nothing else. -/
lemma exists_of_bind (h : p.IsListing ns set) (hq : p.bind params = .ok q) :
    q.isSettled ∧ ∃ condition keyCondition rowFilter offset limit strategy subqueries,
      bindRowBound params p.offset = .ok offset ∧ bindRowBound params p.limit = .ok limit ∧
        (rowFilter = p.rowFilter ∨ rowFilter = p.whereClause) ∧
          q = { p with
            condition, keyCondition, rowFilter, offset, limit, strategy, source := none,
            subqueries } := by
  rw [bind_eq, h.source] at hq
  obtain ⟨source, hsource, hq⟩ := bind_eq_ok.mp hq
  obtain rfl := Except.ok.inj hsource
  obtain ⟨slots, -, hq⟩ := bind_eq_ok.mp hq
  obtain ⟨c, k, o, l, -, -, ho, hl, ⟨-, hq⟩ | ⟨-, -, e, he, hq⟩⟩ := exists_of_bindOwn
    (p := { p with source := none, subqueries := slots }) h.joins hq
  · refine ⟨isSettled_of_chooseStrategy hq, c, k, p.rowFilter, o, l, q.strategy, slots, ho, hl,
      .inl rfl, ?_⟩
    obtain ⟨s, rfl⟩ := eq_of_chooseStrategy hq
    rfl
  · refine ⟨isSettled_of_chooseStrategy hq, none, none, some e, o, l, q.strategy, slots, ho, hl,
      .inr he.symm, ?_⟩
    obtain ⟨s, rfl⟩ := eq_of_chooseStrategy hq
    rfl

/-- **Binding leaves a listing a listing**, and settles it. -/
theorem bind (h : p.IsListing ns set) (hq : p.bind params = .ok q) :
    q.IsListing ns set ∧ q.isSettled := by
  obtain ⟨hsettled, c, k, f, o, l, s, subqueries, -, -, -, rfl⟩ := h.exists_of_bind hq
  exact ⟨{ h with source := rfl }, hsettled⟩

/-- Binding sorts and cuts off nothing. -/
lemma isUnpaged_bind (h : p.IsListing ns set) (hunpaged : p.IsUnpaged)
    (hq : p.bind params = .ok q) : q.IsUnpaged := by
  obtain ⟨-, c, k, f, o, l, s, subqueries, ho, hl, -, rfl⟩ := h.exists_of_bind hq
  rw [hunpaged.offset] at ho
  rw [hunpaged.limit] at hl
  exact ⟨hunpaged.orderBy, (Except.ok.inj ho).symm, (Except.ok.inj hl).symm⟩

/-- Binding brings in no other condition. -/
lemma decidesOnly_bind {condition : Option Expr} (h : p.IsListing ns set)
    (hcondition : p.DecidesOnly condition) (hq : p.bind params = .ok q) :
    q.DecidesOnly condition := by
  obtain ⟨-, c, k, f, o, l, s, subqueries, -, -, hf, rfl⟩ := h.exists_of_bind hq
  refine ⟨?_, hcondition.whereClause⟩
  rcases hf with rfl | rfl
  · exact hcondition.rowFilter
  · exact hcondition.whereClause

/-- What preparing does to a settled listing: it fills in conditions and chooses a strategy. -/
lemma exists_of_prepare (h : p.IsListing ns set) (hsettled : p.isSettled) {env : ExecutionEnv}
    {K : Store} (hq : (p.prepare env).Reads K (.ok q)) :
    q.isSettled ∧ ∃ condition keyCondition strategy,
      q = { p with condition, keyCondition, strategy, source := none } := by
  have hreads : (p.prepare env).ReadsOnly K fun q =>
      q.isSettled ∧ ∃ condition keyCondition strategy,
        q = { p with condition, keyCondition, strategy, source := none } := by
    rw [prepare_eq, h.source, prepareSource, pure_bind, resolve]
    split
    · exact .pure ⟨hsettled.withSource (by rw [h.source]), _, _, _, rfl⟩
    · refine (readsOnly_slotResults (readsOnly_slotRuns _)).bind fun rs _ => .lift fun q hq => ?_
      obtain ⟨c, -, hq⟩ := bind_eq_ok.mp hq
      obtain ⟨k, -, hq⟩ := bind_eq_ok.mp hq
      refine ⟨isSettled_of_chooseStrategy hq, c, k, q.strategy, ?_⟩
      obtain ⟨s, rfl⟩ := eq_of_chooseStrategy hq
      rfl
  obtain ⟨outcome, houtcome, hkept⟩ := hreads
  exact hkept q (houtcome.unique hq)

section

variable {env : ExecutionEnv} {K : Store} (h : p.IsListing ns set) (hsettled : p.isSettled)
  (hq : (p.prepare env).Reads K (.ok q))

include h hsettled hq

/-- **Preparing leaves a listing a listing**, and settled. -/
theorem prepare : q.IsListing ns set ∧ q.isSettled := by
  obtain ⟨hready, c, k, s, rfl⟩ := h.exists_of_prepare hsettled hq
  exact ⟨{ h with source := rfl }, hready⟩

/-- Preparing sorts and cuts off nothing. -/
lemma isUnpaged_prepare (hunpaged : p.IsUnpaged) : q.IsUnpaged := by
  obtain ⟨-, c, k, s, rfl⟩ := h.exists_of_prepare hsettled hq
  exact { hunpaged with }

/-- Preparing brings in no other condition. -/
lemma decidesOnly_prepare {condition : Option Expr} (hcondition : p.DecidesOnly condition) :
    q.DecidesOnly condition := by
  obtain ⟨-, c, k, s, rfl⟩ := h.exists_of_prepare hsettled hq
  exact { hcondition with }

end

end IsListing

end QueryPlan

end RecordQuery
