import RecordQuery.Pipeline.Access
import RecordQuery.Plan.Subquery
import RecordQuery.Proofs.Compile.Catalog

set_option autoImplicit false

/-!
# Binding and indexes

Binding gives the plans with and without indexes the same values and lets them choose their
strategies. From then on their strategies are those for their conditions.

## Main definitions

* `QueryPlan.isSettled` — the strategy of a plan is the one for its conditions.
* `QueryPlan.Ready` — settled plans with and without indexes.

## Main results

* `QueryPlan.isSettled_of_chooseStrategy` — choosing a strategy settles a plan.
* `QueryNode.Related.bind` — binding keeps queries related and settles them.
-/

namespace RecordQuery

open Outcome

variable {catalog : IndexCatalog} {params : List Value}

/-! ## Settled plans -/

namespace QueryPlan

variable {p q : QueryPlan}

/-- The strategy for what a plan does. -/
def strategyFor (p : QueryPlan) : Except QueryError AccessStrategy :=
  match p.reduction with
  | some r => p.reducingStrategy r.call
  | none => p.readingStrategy

/-- The strategy of a plan is the one for what it does; a plan that does not read the store has
none. -/
def isSettled (p : QueryPlan) : Prop :=
  if p.source.isSome then p.strategy = none else ∃ s, p.strategyFor = .ok s ∧ p.strategy = some s

/-- If a plan has a strategy, its condition on the key has a program, or it names the keys and the
records that have them are returned. -/
lemma exists_program_or_named {s : AccessStrategy} {c : KeyCondition} (hs : p.strategyFor = .ok s)
    (hc : p.keyCondition = some c) :
    (∃ program, c.program = .ok program) ∨ p.reduction = none ∧ ∃ ks, c.namedKeys? = some ks := by
  unfold strategyFor at hs
  cases hreduction : p.reduction with
  | some r =>
    rw [hreduction] at hs
    exact .inl (TablePlan.exists_program_of_reducingStrategy hs hc)
  | none =>
    rw [hreduction] at hs
    cases hks : c.namedKeys? with
    | some ks => exact .inr ⟨rfl, ks, rfl⟩
    | none => exact .inl (TablePlan.exists_program_of_readingStrategy hs hc hks)

/-- A plan that reads the store gets the strategy for what it does. -/
lemma chooseStrategy_of_strategyFor {s : AccessStrategy} (hsource : p.source = none)
    (hs : p.strategyFor = .ok s) :
    p.chooseStrategy = .ok (p.mapTable (fun t => { t with strategy := some s })) := by
  unfold strategyFor at hs
  cases hreduction : p.reduction with
  | none =>
    rw [hreduction] at hs
    exact chooseStrategy_eq hsource hreduction hs
  | some r =>
    rw [hreduction] at hs
    simp only at hs
    simp only [chooseStrategy, hsource, hreduction, hs, Option.isSome_none, Bool.false_eq_true,
      if_false, ok_bind, TablePlan.commit, mapTable, pure, Except.pure]

/-- What a plan that reads the store gets is the strategy for what it does. -/
lemma exists_of_chooseStrategy (hsource : ¬p.source.isSome = true) (h : p.chooseStrategy = .ok q) :
    ∃ s, p.strategyFor = .ok s ∧ q = p.mapTable (fun t => { t with strategy := some s }) := by
  unfold chooseStrategy at h
  rw [if_neg hsource] at h
  unfold strategyFor
  cases hreduction : p.reduction with
  | none =>
    simp only [hreduction] at h
    obtain ⟨s, hs, h⟩ := bind_eq_ok.mp h
    exact ⟨s, hs, (Except.ok.inj h).symm⟩
  | some r =>
    simp only [hreduction] at h
    obtain ⟨s, hs, h⟩ := bind_eq_ok.mp h
    exact ⟨s, hs, (Except.ok.inj h).symm⟩

/-- A plan after a choice of strategy is the same but for the strategy. -/
lemma eq_of_chooseStrategy (h : p.chooseStrategy = .ok q) :
    ∃ s, q = p.mapTable (fun t => { t with strategy := s }) := by
  by_cases hsource : p.source.isSome = true
  · unfold chooseStrategy at h
    rw [if_pos hsource] at h
    exact ⟨none, (Except.ok.inj h).symm⟩
  · obtain ⟨s, -, hq⟩ := exists_of_chooseStrategy hsource h
    exact ⟨some s, hq⟩

/-- **Choosing a strategy settles a plan**: the choice does not depend on an earlier one. -/
lemma isSettled_of_chooseStrategy (h : p.chooseStrategy = .ok q) : q.isSettled := by
  by_cases hsource : p.source.isSome = true
  · unfold chooseStrategy at h
    rw [if_pos hsource] at h
    obtain rfl := Except.ok.inj h
    exact (if_pos hsource).mpr rfl
  · obtain ⟨s, hs, rfl⟩ := exists_of_chooseStrategy hsource h
    exact (if_neg hsource).mpr ⟨s, hs, rfl⟩

/-- A settled plan stays settled if its source is another one. -/
lemma isSettled.withSource (h : p.isSettled) {source : Option QueryNode}
    (hsource : source.isSome = p.source.isSome) : ({ p with source } : QueryPlan).isSettled := by
  unfold isSettled at h ⊢
  rw [hsource]
  exact h

/-- What a settled plan that reads the store reads it by. -/
lemma isSettled.exists_strategy (h : p.isSettled) (hsource : p.source.isSome = false) :
    ∃ s, p.strategyFor = .ok s ∧ p.toTablePlan = { p.toTablePlan with strategy := some s } := by
  unfold isSettled at h
  rw [hsource] at h
  obtain ⟨s, hs, heq⟩ := h
  exact ⟨s, hs, by rw [← heq]⟩

/-- A settled plan that does not read the store has no access to it. -/
lemma isSettled.ofPlan_ne_ok (h : p.isSettled) (hsource : p.source.isSome = true)
    {a : TableAccess} : TableAccess.ofPlan p.toTablePlan ≠ .ok a := by
  unfold isSettled at h
  rw [hsource] at h
  unfold TableAccess.ofPlan
  rw [show p.strategy = none from h]
  cases p.set <;> exact nofun

end QueryPlan

/-- Plans with and without indexes that have chosen their strategies. -/
structure QueryPlan.Ready (catalog : IndexCatalog) (p p' : QueryPlan) : Prop where
  /-- The plans differ in indexes and strategies. -/
  indexed : p.Indexed catalog p'
  /-- The plan without indexes has the strategy for its conditions. -/
  settled : p.isSettled
  /-- So has the plan with indexes. -/
  settled' : p'.isSettled

/-- Plans that choose their strategies are ready. -/
lemma QueryPlan.Indexed.ready {p p' : QueryPlan} (h : p.Indexed catalog p')
    (hsource : p.source.isSome = p'.source.isSome) :
    Follows (fun q q' => q.Ready catalog q' ∧ q.rest = p.rest ∧ q'.rest = p'.rest)
      p.chooseStrategy p'.chooseStrategy :=
  (follows_chooseStrategy h hsource).returned.mono fun _ _ ⟨⟨hq, hrest⟩, hchosen, hchosen'⟩ =>
    ⟨⟨hq, isSettled_of_chooseStrategy hchosen, isSettled_of_chooseStrategy hchosen'⟩, hrest⟩

/-! ## Tables -/

namespace TablePlan

variable {t t' : TablePlan}

/-- The same parameters are replaced in both plans. -/
lemma Indexed.bindConditions (h : t.Indexed catalog t') :
    Follows (TablePlan.Indexed catalog) (t.bindConditions params) (t'.bindConditions params) := by
  obtain ⟨indexes, strategy, rfl⟩ := h.exists_eq
  unfold TablePlan.bindConditions
  refine (Follows.of_eq _).returned.bind fun c _ ⟨hc, hbound, _⟩ => ?_
  subst hc
  refine (Follows.of_eq _).map fun k _ hk => ?_
  subst hk
  refine h.withConditions k ?_
  rcases mapM_eq_ok hbound with ⟨-, rfl⟩ | ⟨d, d', hd, rfl, hbind⟩
  · rfl
  · have hkinded := h.kinded
    rw [hd] at hkinded
    exact Condition.isKinded_bind hbind hkinded

/-- The same parameters are left. -/
lemma Indexed.floatParam?_eq (h : t.Indexed catalog t') : t.floatParam? = t'.floatParam? := by
  rw [h.same]
  rfl

/-- Binding the plan of a joined table. -/
lemma Indexed.bind (h : t.Indexed catalog t') :
    Follows (TablePlan.Indexed catalog) (t.bind params) (t'.bind params) := by
  refine h.bindConditions.bind fun u u' hu => ?_
  simp only [hu.floatParam?_eq]
  split
  · exact .throw _
  · exact hu.chooseStrategy

end TablePlan

/-- Binding joined tables. -/
lemma follows_bindJoins {js js' : List JoinSpec}
    (h : ∀ i : Nat, Option.Rel (JoinSpec.Twin (TablePlan.Indexed catalog)) js[i]? js'[i]?) :
    Follows
      (fun ks ks' => ∀ i : Nat,
        Option.Rel (JoinSpec.Twin (TablePlan.Indexed catalog)) ks[i]? ks'[i]?)
      (bindJoins params js) (bindJoins params js') := by
  induction js generalizing js' with
  | nil =>
    obtain rfl := eq_nil_of_rel (R := fun _ => JoinSpec.Twin (TablePlan.Indexed catalog)) h
    exact .pure h
  | cons j js ih =>
    obtain ⟨j', js', rfl, hj, hjs⟩ :=
      exists_of_rel_cons (R := fun _ => JoinSpec.Twin (TablePlan.Indexed catalog)) h
    refine hj.plan.bind.bind fun t t' ht => (ih hjs).map fun ks ks' hks => ?_
    exact rel_cons (R := fun _ => JoinSpec.Twin (TablePlan.Indexed catalog))
      ⟨hj.kind, hj.qualifier, ht, hj.outerKey, hj.innerColumn⟩ hks

/-! ## Selections -/

namespace QueryPlan

variable {p p' : QueryPlan}

/-- Plans that decide their conditions row by row. -/
lemma Indexed.filterByRow (h : p.Indexed catalog p') (hsource : p.source.isSome = p'.source.isSome)
    (index : Nat) :
    Follows (fun q q' => q.Indexed catalog q' ∧
        (q.source = p.source ∧ q.subqueries = p.subqueries) ∧
        q'.source = p'.source ∧ q'.subqueries = p'.subqueries)
      (p.filterByRow index) (p'.filterByRow index) := by
  have hclause : p.whereClause = p'.whereClause := h.rest.whereClause
  have hreduces : (p.reduction.isSome && p.source.isNone) =
      (p'.reduction.isSome && p'.source.isNone) := by
    rw [h.reduction, ← Option.not_isSome, hsource, Option.not_isSome]
  unfold QueryPlan.filterByRow
  rw [hclause, hreduces]
  split
  · exact .error _
  · split
    · exact .error _
    · refine .ok ⟨{ h with table := ?_, rest := ⟨rfl, rfl⟩ }, ⟨rfl, rfl⟩, rfl, rfl⟩
      exact TablePlan.Indexed.withConditions h.table (c := none) none rfl

/-- **Binding a selection's own parameters** settles it and leaves the queries inside as they are.

**Proof sketch.** Joins and conditions are bound alike, limits are the same. Whether the rows have
to be filtered depends on the parameters of the condition, which is the same too. In either case the
strategies are chosen anew, which makes the plans ready and leaves the rest. -/
lemma Indexed.bindOwn (h : p.Indexed catalog p') (hsource : p.source.isSome = p'.source.isSome) :
    Follows (fun q q' => q.Ready catalog q' ∧
        (q.source = p.source ∧ q.subqueries = p.subqueries) ∧
        q'.source = p'.source ∧ q'.subqueries = p'.subqueries)
      (p.bindOwn params) (p'.bindOwn params) := by
  have hchoose : ∀ q q' : QueryPlan, q.Indexed catalog q' ∧
      (q.source = p.source ∧ q.subqueries = p.subqueries) ∧
      q'.source = p'.source ∧ q'.subqueries = p'.subqueries →
      Follows (fun q q' => q.Ready catalog q' ∧
          (q.source = p.source ∧ q.subqueries = p.subqueries) ∧
          q'.source = p'.source ∧ q'.subqueries = p'.subqueries)
        q.chooseStrategy q'.chooseStrategy := by
    rintro q q' ⟨hq, ⟨hqs, hqq⟩, hqs', hqq'⟩
    have hsame : q.source.isSome = q'.source.isSome := by rw [hqs, hqs', hsource]
    refine (hq.ready hsame).mono fun r r' ⟨hr, hrest, hrest'⟩ => ⟨hr, ⟨?_, ?_⟩, ?_, ?_⟩
    · rw [← hqs]
      exact congrArg Rest.source hrest
    · rw [← hqq]
      exact congrArg Rest.subqueries hrest
    · rw [← hqs']
      exact congrArg Rest.source hrest'
    · rw [← hqq']
      exact congrArg Rest.subqueries hrest'
  unfold QueryPlan.bindOwn
  refine (follows_bindJoins h.joins).bind fun js js' hjs => ?_
  refine (TablePlan.Indexed.bindConditions h.table).bind fun t t' ht => ?_
  rw [h.offset, h.limit]
  refine (Follows.of_eq _).bind fun offset _ hoffset => ?_
  subst hoffset
  refine (Follows.of_eq _).bind fun limit _ hlimit => ?_
  subst hlimit
  have hbound : QueryPlan.Indexed catalog
      { p with toTablePlan := t, joins := js, offset := offset, limit := limit }
      { p' with toTablePlan := t', joins := js', offset := offset, limit := limit } :=
    { h with table := ht, joins := hjs, offset := rfl, limit := rfl, rest := h.rest }
  simp only [TablePlan.Indexed.floatParam?_eq ht]
  split
  · exact (hbound.filterByRow hsource _).bind hchoose
  · exact hchoose _ _ ⟨hbound, ⟨rfl, rfl⟩, rfl, rfl⟩

/-- What binding does to a selection. -/
lemma bind_eq (params : List Value) (p : QueryPlan) :
    p.bind params = (do
      let source ← bindSource params p.source
      let subqueries ← bindSlots params p.subqueries
      QueryPlan.bindOwn params { p with source, subqueries }) := by
  cases p
  rw [QueryPlan.bind]

end QueryPlan

/-! ## Queries -/

mutual

/-- **Binding keeps selections related** and settles them. -/
theorem QueryPlan.Related.bind : {p p' : QueryPlan} → p.Related (QueryPlan.Indexed catalog) p' →
    Follows (QueryPlan.Related (QueryPlan.Ready catalog)) (p.bind params) (p'.bind params)
  | p, p', .intro h hsource hslots => by
    rw [QueryPlan.bind_eq, QueryPlan.bind_eq]
    refine hsource.bind.bind fun source source' hs => ?_
    refine hslots.bind.bind fun slots slots' hss => ?_
    have hinside : QueryPlan.Indexed catalog { p with source := source, subqueries := slots }
        { p' with source := source', subqueries := slots' } :=
      { h with rest := ⟨h.rest.rowFilter, h.rest.whereClause⟩ }
    refine (hinside.bindOwn hs.isSome_eq).mono ?_
    rintro q q' ⟨hq, ⟨hqs, hqq⟩, hqs', hqq'⟩
    exact .intro hq (by rw [hqs, hqs']; exact hs) (by rw [hqq, hqq']; exact hss)

/-- Binding keeps sources related. -/
theorem SourceRelated.bind : {s s' : Option QueryNode} →
    SourceRelated (QueryPlan.Indexed catalog) s s' →
    Follows (SourceRelated (QueryPlan.Ready catalog)) (bindSource params s) (bindSource params s')
  | _, _, .none => .pure .none
  | _, _, .some h => h.bind.map fun _ _ hn => .some hn

/-- Binding keeps sub-queries related. -/
theorem SlotsRelated.bind : {ss ss' : List SubquerySlot} →
    SlotsRelated (QueryPlan.Indexed catalog) ss ss' →
    Follows (SlotsRelated (QueryPlan.Ready catalog)) (bindSlots params ss) (bindSlots params ss')
  | _, _, .nil => .pure .nil
  | _, _, @SlotsRelated.cons _ _ _ context _ _ h hs => by
    have hslot : Follows (fun s s' => ∃ n n', s = ⟨n, context⟩ ∧ s' = ⟨n', context⟩ ∧
        n.Related (QueryPlan.Ready catalog) n')
        (SubquerySlot.bind params ⟨_, context⟩) (SubquerySlot.bind params ⟨_, context⟩) :=
      h.bind.map fun n n' hn => ⟨n, n', rfl, rfl, hn⟩
    refine hslot.bind ?_
    rintro _ _ ⟨n, n', rfl, rfl, hn⟩
    exact hs.bind.map fun _ _ hss => .cons hn hss

/-- **Binding keeps queries related** and settles their selections. -/
theorem QueryNode.Related.bind : {n n' : QueryNode} → n.Related (QueryPlan.Indexed catalog) n' →
    Follows (QueryNode.Related (QueryPlan.Ready catalog)) (n.bind params) (n'.bind params)
  | _, _, .plan h => h.bind.map fun _ _ hp => .plan hp
  | _, _, .chain h => h.bind.map fun _ _ hc => .chain hc

/-- Binding keeps set operations related. -/
theorem ChainPlan.Related.bind : {c c' : ChainPlan} → c.Related (QueryPlan.Indexed catalog) c' →
    Follows (ChainPlan.Related (QueryPlan.Ready catalog)) (c.bind params) (c'.bind params)
  | _, _, .intro orderBy offset limit h hls => by
    refine h.bind.bind fun n n' hn => ?_
    refine hls.bind.bind fun ls ls' hls => ?_
    refine (Follows.of_eq _).bind fun offset _ hoffset => ?_
    subst hoffset
    refine (Follows.of_eq _).map fun limit _ hlimit => ?_
    subst hlimit
    exact .intro orderBy offset limit hn hls

/-- Binding keeps links related. -/
theorem LinksRelated.bind : {ls ls' : List ChainLink} →
    LinksRelated (QueryPlan.Indexed catalog) ls ls' →
    Follows (LinksRelated (QueryPlan.Ready catalog)) (bindLinks params ls) (bindLinks params ls')
  | _, _, .nil => .pure .nil
  | _, _, @LinksRelated.cons _ _ _ op _ _ h hs => by
    have hlink : Follows (fun l l' => ∃ n n', l = ⟨n, op⟩ ∧ l' = ⟨n', op⟩ ∧
        n.Related (QueryPlan.Ready catalog) n')
        (ChainLink.bind params ⟨_, op⟩) (ChainLink.bind params ⟨_, op⟩) :=
      h.bind.map fun n n' hn => ⟨n, n', rfl, rfl, hn⟩
    refine hlink.bind ?_
    rintro _ _ ⟨n, n', rfl, rfl, hn⟩
    exact hs.bind.map fun _ _ hls => .cons hn hls

end

end RecordQuery
