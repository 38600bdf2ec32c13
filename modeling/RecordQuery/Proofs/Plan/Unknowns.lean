import RecordQuery.Proofs.Plan.Binding
import RecordQuery.Proofs.Predicate.Unknowns

set_option autoImplicit false

/-!
# Unknowns in plans

Which unknowns the conditions of a plan may hold follows the steps by which it is made ready. A
compiled plan may hold parameters and the slots of its own sub-queries, and its joined tables may
hold values of the row that they are joined to. Binding replaces the parameters, the results of
sub-queries replace the slots, and only the joined tables have to wait for their rows.

## Main definitions

* `TablePlan.isWithin` — the conditions of a table hold no unknowns but given ones.
* `QueryPlan.IsCompiled`, `QueryPlan.IsBound`, `QueryPlan.IsPrepared` — what there may be after each
  step.
* `QueryPlan.SameFrame` — what these steps leave as it is.

## Main results

* `QueryPlan.IsCompiled.bindOwn` — binding a compiled plan.
* `QueryPlan.IsBound.substitute` — putting the results of sub-queries into a bound plan.
* `TablePlan.readingStrategy_benign`, `TablePlan.reducingStrategy_benign` — choosing a
  strategy has no grave failures.
-/

namespace RecordQuery

open Outcome

/-! ## Tables -/

namespace TablePlan

variable {p q : TablePlan} {u : Unknowns}

/-- Whether the conditions of a table hold no unknowns but given ones. -/
def isWithin (u : Unknowns) (p : TablePlan) : Bool :=
  p.condition.all (Condition.isWithin u) && p.keyCondition.all (KeyCondition.isWithin u)

/-- A table with one more condition. -/
lemma isWithin_addCondition {c : Condition} (hp : p.isWithin u = true)
    (hc : c.isWithin u = true) : (p.addCondition c).isWithin u = true := by
  rw [isWithin, Bool.and_eq_true] at hp ⊢
  refine ⟨?_, hp.2⟩
  cases hcondition : p.condition with
  | none => simpa [addCondition, hcondition] using hc
  | some d =>
    have hd : d.isWithin u = true := by simpa [hcondition] using hp.1
    simp [addCondition, hcondition, Condition.isWithin, Condition.areWithin, hc, hd]

/-- A table with one more condition on the key. -/
lemma isWithin_addKeyCondition {c : KeyCondition} (hp : p.isWithin u = true)
    (hc : c.isWithin u = true) : (p.addKeyCondition c).isWithin u = true := by
  rw [isWithin, Bool.and_eq_true] at hp ⊢
  refine ⟨hp.1, ?_⟩
  cases hcondition : p.keyCondition with
  | none => simpa [addKeyCondition, hcondition] using hc
  | some d =>
    have hd : d.isWithin u = true := by simpa [hcondition] using hp.2
    simpa [addKeyCondition, hcondition] using KeyCondition.isWithin_and hd hc

/-- There may be results of more sub-queries. -/
lemma isWithin_of_le {params : Nat → Bool} {outers : Bool} {n m : Nat} (hle : n ≤ m)
    (h : p.isWithin ⟨params, outers, n⟩ = true) : p.isWithin ⟨params, outers, m⟩ = true := by
  rw [isWithin, Bool.and_eq_true, Option.all_eq_true, Option.all_eq_true] at h ⊢
  exact ⟨fun c hc => Condition.isWithin_of_le hle c (h.1 c hc),
    fun c hc => KeyCondition.isWithin_of_le hle c (h.2 c hc)⟩

/-- **Binding replaces the parameters of a table**, if it leaves no float. -/
lemma isWithin_bindConditions {params : List Value} (h : p.bindConditions params = .ok q)
    (hp : p.isWithin u = true) (hfloat : q.floatParam? = none) :
    q.isWithin u.withoutParams = true := by
  simp only [bindConditions, bind_eq_ok, pure_eq_ok] at h
  obtain ⟨c, hc, k, hk, rfl⟩ := h
  rw [isWithin, Bool.and_eq_true, Option.all_eq_true, Option.all_eq_true] at hp ⊢
  constructor
  · intro d' hd'
    rcases mapM_eq_ok hc with ⟨-, rfl⟩ | ⟨d, e, hd, rfl, hbind⟩
    · cases hd'
    · obtain rfl := Option.some.inj hd'
      refine Condition.isWithin_of_params e (Condition.isWithin_bind hbind (hp.1 d hd)) ?_
      simpa [floatParam?] using hfloat
  · intro d' hd'
    rcases mapM_eq_ok hk with ⟨-, rfl⟩ | ⟨d, e, hd, rfl, hbind⟩
    · cases hd'
    · obtain rfl := Option.some.inj hd'
      exact KeyCondition.isWithin_bind d e hbind (hp.2 d hd)

/-- Choosing a strategy changes no condition. -/
lemma isWithin_chooseStrategy (h : p.chooseStrategy = .ok q) : q.isWithin u = p.isWithin u := by
  obtain ⟨s, -, rfl⟩ := chooseStrategy_eq_ok.mp h
  rfl

/-- Binding replaces the parameters of a joined table. -/
lemma isWithin_bind {params : List Value} (h : p.bind params = .ok q)
    (hp : p.isWithin u = true) : q.isWithin u.withoutParams = true := by
  simp only [TablePlan.bind, bind_eq_ok] at h
  obtain ⟨bound, hbound, h⟩ := h
  split at h
  · simp at h
  · rename_i hfloat
    rw [isWithin_chooseStrategy h]
    exact isWithin_bindConditions hbound hp hfloat

/-- A strategy that finds no records is missing for a key of bytes. -/
lemma readingStrategy_benign (p : TablePlan) : Benign p.readingStrategy := by
  unfold readingStrategy
  simp only
  split
  · trivial
  · split
    · trivial
    · exact (KeyCondition.program_benign _).bind fun _ _ => .pure trivial
  · exact (KeyCondition.program_benign _).bind fun _ _ => .pure trivial
  · split <;> trivial

/-- A strategy for a reduction is missing for a key of bytes. -/
lemma reducingStrategy_benign (p : TablePlan) (call : ReducerCall) :
    Benign (p.reducingStrategy call) := by
  unfold reducingStrategy
  simp only
  split
  · exact (KeyCondition.program_benign _).bind fun _ _ => .pure trivial
  · trivial

/-- Choosing a strategy has no grave failure. -/
lemma chooseStrategy_benign (p : TablePlan) : Benign p.chooseStrategy :=
  p.readingStrategy_benign.bind fun _ _ => .ok trivial

end TablePlan

/-! ## Selections -/

namespace QueryPlan

variable {p q : QueryPlan} {params : List Value}

/-- Choosing a strategy has no grave failure: an earlier choice does not count. -/
lemma chooseStrategy_benign (p : QueryPlan) : Benign p.chooseStrategy := by
  unfold chooseStrategy
  split
  · trivial
  · simp only
    split
    · exact (p.reducingStrategy_benign _).bind fun s _ => .ok trivial
    · exact p.readingStrategy_benign.bind fun s _ => .ok trivial

/-- The conditions of a selection and of its joined tables hold no unknowns but given ones. -/
structure IsWithin (main joined : Unknowns) (p : QueryPlan) : Prop where
  /-- The conditions on the main table. -/
  table : p.toTablePlan.isWithin main = true
  /-- The conditions on the joined tables. -/
  joins : ∀ j ∈ p.joins, j.plan.isWithin joined = true

/-- A compiled plan may wait for given parameters and for its own sub-queries, its joined tables for
the same parameters and for the rows that they are joined to. -/
def IsCompiled (ok : Nat → Bool) (p : QueryPlan) : Prop :=
  p.IsWithin ⟨ok, false, p.subqueries.length⟩ ⟨ok, true, 0⟩

/-- A bound plan may wait for its own sub-queries, its joined tables for the rows that they are
joined to. It has the strategy for its conditions. -/
structure IsBound (p : QueryPlan) : Prop extends
    p.IsWithin ⟨fun _ => false, false, p.subqueries.length⟩ ⟨fun _ => false, true, 0⟩ where
  /-- The strategy is the one for the conditions. -/
  settled : p.isSettled

/-- A prepared plan waits for nothing, its joined tables only for the rows that they are joined to.
It has the strategy for its conditions. -/
structure IsPrepared (p : QueryPlan) : Prop extends p.IsWithin .none ⟨fun _ => false, true, 0⟩ where
  /-- The strategy is the one for the conditions. -/
  settled : p.isSettled

/-- Binding joined tables replaces their parameters. -/
lemma isWithin_bindJoins {u : Unknowns} {js ks : List JoinSpec} (h : bindJoins params js = .ok ks)
    (hjs : ∀ j ∈ js, j.plan.isWithin u = true) :
    ∀ k ∈ ks, k.plan.isWithin u.withoutParams = true := by
  induction js generalizing ks with
  | nil =>
    obtain rfl := Except.ok.inj h
    exact fun k hk => absurd hk List.not_mem_nil
  | cons j js ih =>
    simp only [bindJoins, bind_eq_ok, pure_eq_ok] at h
    obtain ⟨t, ht, rest, hrest, rfl⟩ := h
    intro k hk
    rcases List.mem_cons.mp hk with rfl | hk
    · exact TablePlan.isWithin_bind ht (hjs j (by simp))
    · exact ih hrest (fun j hj => hjs j (by simp [hj])) k hk

/-- What binding leaves of a plan as it is: the queries inside it, its reduction and the names of
its columns. -/
structure SameFrame (p q : QueryPlan) : Prop where
  /-- The source. -/
  source : q.source = p.source
  /-- The sub-queries. -/
  subqueries : q.subqueries = p.subqueries
  /-- The reduction. -/
  reduction : q.reduction = p.reduction
  /-- Whether all columns are returned. -/
  wildcard : q.wildcard = p.wildcard
  /-- The columns. -/
  columns : q.columns = p.columns

/-- A choice of strategy changes none of this. -/
lemma sameFrame_chooseStrategy (h : p.chooseStrategy = .ok q) : p.SameFrame q := by
  obtain ⟨s, rfl⟩ := eq_of_chooseStrategy h
  exact ⟨rfl, rfl, rfl, rfl, rfl⟩

/-- One change after another. -/
lemma SameFrame.trans {r : QueryPlan} (h : p.SameFrame q) (h' : q.SameFrame r) : p.SameFrame r :=
  ⟨h'.source.trans h.source, h'.subqueries.trans h.subqueries, h'.reduction.trans h.reduction,
    h'.wildcard.trans h.wildcard, h'.columns.trans h.columns⟩

/-- The labels of the columns. -/
lemma SameFrame.labels (h : p.SameFrame q) : q.labels = p.labels := by
  rw [QueryPlan.labels, QueryPlan.labels, TablePlan.labels, TablePlan.labels, h.columns]

/-- Binding changes none of this.

**Proof sketch.** The conditions of the table are bound and the columns stay. A row filter and a
strategy change nothing else. -/
lemma sameFrame_bindOwn (hq : p.bindOwn params = .ok q) : p.SameFrame q := by
  simp only [QueryPlan.bindOwn, bind_eq_ok] at hq
  obtain ⟨joins, -, table, htable, offset, -, limit, -, hq⟩ := hq
  have hcolumns : table.columns = p.columns := by
    simp only [TablePlan.bindConditions, bind_eq_ok, pure_eq_ok] at htable
    obtain ⟨c, -, k, -, rfl⟩ := htable
    rfl
  have hbound : p.SameFrame { p with toTablePlan := table, joins, offset, limit } :=
    ⟨rfl, rfl, rfl, rfl, hcolumns⟩
  split at hq
  · simp only [bind_eq_ok] at hq
    obtain ⟨filtered, hfiltered, hq⟩ := hq
    refine .trans ?_ (sameFrame_chooseStrategy hq)
    unfold QueryPlan.filterByRow at hfiltered
    split at hfiltered
    · cases hfiltered
    · split at hfiltered
      · cases hfiltered
      · obtain rfl := Except.ok.inj hfiltered
        exact ⟨rfl, rfl, rfl, rfl, hcolumns⟩
  · exact hbound.trans (sameFrame_chooseStrategy hq)

/-- **Binding a compiled plan** replaces its parameters and settles it.

**Proof sketch.** If a float parameter is left then the conditions are dropped, so nothing is
unknown in the table. Otherwise binding has replaced all parameters. The choice of a strategy
settles the plan. -/
theorem IsCompiled.bindOwn {ok : Nat → Bool} (h : p.IsCompiled ok)
    (hq : p.bindOwn params = .ok q) : q.IsBound := by
  simp only [QueryPlan.bindOwn, bind_eq_ok] at hq
  obtain ⟨joins, hjoins, table, htable, offset, -, limit, -, hq⟩ := hq
  have hbound := isWithin_bindJoins hjoins h.joins
  split at hq
  · rename_i index hfloat
    simp only [bind_eq_ok] at hq
    obtain ⟨filtered, hfiltered, hq⟩ := hq
    obtain ⟨s, rfl⟩ := eq_of_chooseStrategy hq
    have hsettled := isSettled_of_chooseStrategy hq
    unfold QueryPlan.filterByRow at hfiltered
    split at hfiltered
    · cases hfiltered
    · split at hfiltered
      · cases hfiltered
      · obtain rfl := Except.ok.inj hfiltered
        exact ⟨⟨rfl, hbound⟩, hsettled⟩
  · rename_i hfloat
    obtain ⟨s, rfl⟩ := eq_of_chooseStrategy hq
    have hsettled := isSettled_of_chooseStrategy hq
    have hwithin : table.isWithin ⟨fun _ => false, false, p.subqueries.length⟩ = true :=
      TablePlan.isWithin_bindConditions htable h.table hfloat
    exact ⟨⟨hwithin, hbound⟩, hsettled⟩

/-- A condition that may be missing, with the results of sub-queries. -/
lemma safe_mapM_substitute {rs : SlotResults} {c : Option Condition}
    (h : c.all (Condition.isWithin ⟨fun _ => false, false, rs.length⟩) = true) :
    Safe (fun d => d.all (Condition.isWithin .none) = true) (c.mapM (Condition.substitute rs)) :=
  (Avoids.mapM fun d hd => Condition.safe_substitute d ((Option.all_eq_true _ _).mp h d hd)).mono
    fun _ hd => (Option.all_eq_true _ _).mpr hd

/-- A condition on the key that may be missing, with the results of sub-queries. -/
lemma safe_mapM_substituteKey {rs : SlotResults} {c : Option KeyCondition}
    (h : c.all (KeyCondition.isWithin ⟨fun _ => false, false, rs.length⟩) = true) :
    Safe (fun d => d.all (KeyCondition.isWithin .none) = true)
      (c.mapM (KeyCondition.substitute rs)) :=
  (Avoids.mapM fun d hd => KeyCondition.safe_substitute d ((Option.all_eq_true _ _).mp h d hd)).mono
    fun _ hd => (Option.all_eq_true _ _).mpr hd

/-- **The results of its sub-queries prepare a bound plan**, and putting them in has no grave
failure: there is a result for every slot. -/
theorem IsBound.substitute (h : p.IsBound) {rs : SlotResults}
    (hlength : rs.length = p.subqueries.length) :
    Safe (fun q => q.IsPrepared ∧ p.SameFrame q) (p.substitute rs) := by
  have htable := h.table
  rw [← hlength, TablePlan.isWithin, Bool.and_eq_true] at htable
  refine (safe_mapM_substitute htable.1).bind fun c hc => ?_
  refine (safe_mapM_substituteKey htable.2).bind fun k hk => ?_
  refine Avoids.of_returned (chooseStrategy_benign _) fun q hq => ?_
  obtain ⟨s, rfl⟩ := eq_of_chooseStrategy hq
  have hwithin :
      (c.all (Condition.isWithin .none) && k.all (KeyCondition.isWithin .none)) = true := by
    rw [hc, hk]
    rfl
  exact ⟨⟨⟨hwithin, h.joins⟩, isSettled_of_chooseStrategy hq⟩, ⟨rfl, rfl, rfl, rfl, rfl⟩⟩

/-- A bound plan without sub-queries is prepared. -/
lemma IsBound.isPrepared (h : p.IsBound) (hslots : p.subqueries = []) : p.IsPrepared := by
  have htable := h.table
  rw [hslots] at htable
  exact ⟨⟨htable, h.joins⟩, h.settled⟩

end QueryPlan

end RecordQuery
