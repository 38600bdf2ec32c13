import RecordQuery.Proofs.Pipeline.Distinct
import RecordQuery.Proofs.Predicate.Slots

set_option autoImplicit false

/-!
# Plans and the results of their sub-queries

The sub-queries of a plan run in the order of their slots, and the first result that does not fit
its place is refused. If all of them fit, their values take the places of the slots, and the plan
chooses the strategy for the conditions that come out, whatever their shape. It reads the records
that satisfy the conditions of the plan, given the values.

## Main definitions

* `SubquerySlot.Rejects`, `FirstRejected` — the results that are refused, and the first of them.
* `AccessStrategy.Fetches` — a strategy reads the records that pass a test, to return or to reduce
  them.

## Main results

* `SubquerySlot.rejects_iff`, `slotResults_of_firstRejected`, `slotResults_or_firstRejected` — what
  becomes of the results.
* `QueryPlan.exists_substitute` — a plan into which values are put.
* `QueryPlan.resolve_results` — a plan with the results of its sub-queries.
-/

namespace RecordQuery

open Outcome

/-! ## Results that do not fit -/

namespace SubquerySlot

/-- A sub-query lists one column, or all columns of what it reads. -/
def ListsOne (s : SubquerySlot) : Prop :=
  s.node.firstPlan.wildcard = true ∨ s.node.labels.length = 1

/-- Why the rows of a sub-query are refused. -/
inductive Rejects (s : SubquerySlot) (rows : List Row) : QueryError → Prop
  /-- The sub-query does not list one column. -/
  | columns : ¬s.ListsOne → Rejects s rows (.columnCount s.node.labels.length)
  /-- A row does not have one value; it is the first such. -/
  | width {before after : List Row} {r : Row} : s.ListsOne → rows = before ++ r :: after →
      (∀ b ∈ before, b.size = 1) → r.size ≠ 1 → Rejects s rows (.columnCount r.size)
  /-- There are several rows where one value is compared. -/
  | several {c : Comparison} : s.ListsOne → (∀ r ∈ rows, r.size = 1) → s.context = .scalar c →
      1 < rows.length → Rejects s rows (.tooManyRows c.symbol)

variable {s : SubquerySlot} {rows : List Row} {e : QueryError}

/-- A sub-query that lists one column passes the check. -/
lemma checkColumns_of_listsOne (h : s.ListsOne) : s.checkColumns = .ok () := by
  rcases h with h | h
  · simp [checkColumns, h]
  · simp [checkColumns, show s.node.firstPlan.labels.length = 1 from h]

/-- Any other number of columns is refused, and named. -/
lemma checkColumns_of_not_listsOne (h : ¬s.ListsOne) :
    s.checkColumns = .error (.columnCount s.node.labels.length) := by
  rw [ListsOne, not_or, Bool.not_eq_true] at h
  have hlabels : s.node.firstPlan.labels.length ≠ 1 := h.2
  simp [checkColumns, h.1, hlabels, QueryNode.labels]

/-- A row of one value. -/
lemma singleValues_cons {r : Row} (h : r.size = 1) :
    singleValues (r :: rows) = do
      let vs ← singleValues rows
      return r.values ++ vs := by
  have hvalues : r.values.length = 1 := by rw [OrderedMap.values, List.length_map]; exact h
  obtain ⟨v, hv⟩ := List.length_eq_one_iff.mp hvalues
  rw [singleValues, hv]
  rfl

/-- The values of rows of one value. -/
lemma singleValues_eq_ok (h : ∀ r ∈ rows, r.size = 1) :
    singleValues rows = .ok (rows.flatMap OrderedMap.values) := by
  induction rows with
  | nil => rfl
  | cons r rows ih =>
    rw [singleValues_cons (h r List.mem_cons_self), ih fun t ht => h t (List.mem_cons_of_mem r ht)]
    rfl

/-- The first row that does not have one value is refused. -/
lemma singleValues_eq_error {before after : List Row} {r : Row} (h : ∀ b ∈ before, b.size = 1)
    (hr : r.size ≠ 1) : singleValues (before ++ r :: after) = .error (.columnCount r.size) := by
  induction before with
  | nil =>
    have hvalues : r.values.length ≠ 1 := by rw [OrderedMap.values, List.length_map]; exact hr
    rw [List.nil_append, singleValues]
    split
    · rename_i hv
      simp [hv] at hvalues
    · rfl
  | cons b before ih =>
    rw [List.cons_append, singleValues_cons (h b List.mem_cons_self),
      ih fun t ht => h t (List.mem_cons_of_mem b ht)]
    rfl

/-- Rows of one value have as many values as there are rows. -/
lemma length_flatMap_values (h : ∀ r ∈ rows, r.size = 1) :
    (rows.flatMap OrderedMap.values).length = rows.length := by
  induction rows with
  | nil => rfl
  | cons r rows ih =>
    have hr : r.values.length = 1 := by
      rw [OrderedMap.values, List.length_map]
      exact h r List.mem_cons_self
    rw [List.flatMap_cons, List.length_append, hr, ih fun t ht => h t (List.mem_cons_of_mem r ht),
      List.length_cons, Nat.add_comm]

/-- What becomes of the rows of a sub-query. -/
def outcome (s : SubquerySlot) (rows : List Row) : Except QueryError (List Value) := do
  s.checkColumns
  s.values rows

/-- Rows that are refused are the outcome. -/
lemma outcome_of_rejects (h : s.Rejects rows e) : s.outcome rows = .error e := by
  cases h with
  | columns hlists => rw [outcome, checkColumns_of_not_listsOne hlists]; rfl
  | width hlists hrows hbefore hr =>
    rw [outcome, checkColumns_of_listsOne hlists, ok_bind, SubquerySlot.values, hrows,
      singleValues_eq_error hbefore hr]
    rfl
  | several hlists hwidths hcontext hlength =>
    have hvalues : 1 < (rows.flatMap OrderedMap.values).length := by
      rwa [length_flatMap_values hwidths]
    rw [outcome, checkColumns_of_listsOne hlists, ok_bind, SubquerySlot.values,
      singleValues_eq_ok hwidths, ok_bind, hcontext]
    simp only [if_pos hvalues]
    rfl

/-- The rows of a sub-query are refused, or their values are the outcome.

**Proof sketch.** By the three things that are checked in turn: the sub-query lists one column,
every row has one value, and there is at most one row where a single value is asked for. If all of
them hold then the values are the outcome, and the first row of another width is the one that is
refused. -/
lemma outcome_or_rejects (s : SubquerySlot) (rows : List Row) :
    s.outcome rows = .ok (rows.flatMap OrderedMap.values) ∨ ∃ e, s.Rejects rows e := by
  by_cases hlists : s.ListsOne
  · by_cases hwidths : ∀ r ∈ rows, r.size = 1
    · rw [outcome, checkColumns_of_listsOne hlists, ok_bind, SubquerySlot.values,
        singleValues_eq_ok hwidths, ok_bind]
      cases hcontext : s.context with
      | among => exact .inl rfl
      | scalar c =>
        by_cases hlength : 1 < rows.length
        · exact .inr ⟨_, .several hlists hwidths hcontext hlength⟩
        · rw [← length_flatMap_values hwidths] at hlength
          exact .inl (if_neg hlength)
    · obtain ⟨r, hr, hbad⟩ := not_forall₂.mp hwidths
      have hfound : (rows.find? fun r => decide (r.size ≠ 1)).isSome = true :=
        List.find?_isSome.mpr ⟨r, hr, decide_eq_true hbad⟩
      obtain ⟨first, hfirst⟩ := Option.isSome_iff_exists.mp hfound
      obtain ⟨hne, before, after, hrows, hbefore⟩ := List.find?_eq_some_iff_append.mp hfirst
      exact .inr ⟨_, .width hlists hrows (fun b hb => by simpa using hbefore b hb)
        (of_decide_eq_true hne)⟩
  · exact .inr ⟨_, .columns hlists⟩

/-- **The rows of a sub-query are refused** for the reason that is the outcome. -/
theorem rejects_iff : s.Rejects rows e ↔ s.outcome rows = .error e := by
  refine ⟨outcome_of_rejects, fun h => ?_⟩
  rcases outcome_or_rejects s rows with hok | ⟨e', he'⟩
  · rw [hok] at h
    cases h
  · obtain rfl := Except.error.inj ((outcome_of_rejects he').symm.trans h)
    exact he'

end SubquerySlot

/-- The first of several results, in the order of the slots, that is refused, and why. -/
inductive FirstRejected : List SubquerySlot → List (List Row) → QueryError → Prop
  /-- The first result is refused. -/
  | here {s : SubquerySlot} {ss : List SubquerySlot} {rows : List Row} {results : List (List Row)}
      {e : QueryError} : s.Rejects rows e → FirstRejected (s :: ss) (rows :: results) e
  /-- The first result fits, a later one is refused. -/
  | later {s : SubquerySlot} {ss : List SubquerySlot} {rows : List Row} {results : List (List Row)}
      {e : QueryError} : (∀ e', ¬s.Rejects rows e') → FirstRejected ss results e →
      FirstRejected (s :: ss) (rows :: results) e

/-- The values of one sub-query and of those after it. -/
lemma slotResults_cons (s : SubquerySlot) (ss : List SubquerySlot) (rows : List Row)
    (results : List (List Row)) :
    slotResults (m := Except QueryError) (s :: ss) ((rows :: results).map Except.ok) = do
      let vs ← s.outcome rows
      let rest ← slotResults ss (results.map Except.ok)
      return vs :: rest := by
  rw [List.map_cons, slotResults, SubquerySlot.outcome]
  cases s.checkColumns <;> rfl

variable {ss : List SubquerySlot} {results : List (List Row)} {e : QueryError}

/-- **The first result that is refused** is what comes of all of them. -/
lemma slotResults_of_firstRejected (h : FirstRejected ss results e) :
    slotResults (m := Except QueryError) ss (results.map Except.ok) = .error e := by
  induction h with
  | here hrejects => rw [slotResults_cons, SubquerySlot.rejects_iff.mp hrejects]; rfl
  | @later s _ rows _ _ hfits _ ih =>
    have hok := (SubquerySlot.outcome_or_rejects s rows).resolve_right (not_exists.mpr hfits)
    rw [slotResults_cons, hok, ih]
    rfl

/-- **If no result is refused** the values of all of them are known.

**Proof sketch.** By induction on the slots: either the first result is rejected, or its values are
known and the others decide. -/
lemma slotResults_or_firstRejected (h : results.length = ss.length) :
    slotResults (m := Except QueryError) ss (results.map Except.ok) =
        .ok (results.map fun rows => rows.flatMap OrderedMap.values) ∨
      ∃ e, FirstRejected ss results e := by
  induction ss generalizing results with
  | nil =>
    obtain rfl := List.length_eq_zero_iff.mp h
    exact .inl rfl
  | cons s ss ih =>
    cases results with
    | nil => cases h
    | cons rows results =>
      by_cases hrejects : ∃ e, s.Rejects rows e
      · obtain ⟨e, he⟩ := hrejects
        exact .inr ⟨e, .here he⟩
      · have hok := (SubquerySlot.outcome_or_rejects s rows).resolve_right hrejects
        rcases ih (Nat.succ.inj h) with hrest | ⟨e, he⟩
        · left
          rw [slotResults_cons, hok, hrest]
          rfl
        · exact .inr ⟨e, .later (not_exists.mp hrejects) he⟩

/-! ## Strategies for what comes out -/

/-- A strategy reads the records of a set that pass a test: it finds them, or it has the store
reduce them. -/
def AccessStrategy.Fetches (test : Record → Bool) : AccessStrategy → Prop
  | .aggregation filter program _ => ∀ (K : Store) (ns set : String),
      K.select ⟨ns, set, filter, program⟩ = .ok ((K.recordsOf ns set).filter test)
  | s => s.Finds test

/-- A strategy that finds records does not have the store reduce them. -/
lemma AccessStrategy.Finds.fetches {s : AccessStrategy} {test : Record → Bool}
    (h : s.Finds test) : s.Fetches test := by
  cases s with
  | aggregation filter program call =>
    obtain ⟨rs, hrs, -⟩ := h.2 ⟨"", "", .aggregation filter program call, false⟩ .empty rfl
    cases hrs
  | _ => exact h

variable {rs : SlotResults}

/-- A condition that may be missing, with the values of its slots, means what it meant. -/
lemma Condition.exists_mapM_substitute (hrs : rs.IsJoinable) {c : Option Condition}
    (h : c.all (isWithin ⟨fun _ => false, false, rs.length⟩) = true) :
    ∃ d, c.mapM (substitute rs) = .ok d ∧ d.all (isWithin .none) = true ∧
      ∀ (ρ : Resolution) (r : Record), d.all (holdsIn ρ r) = c.all (holdsIn (.ofSlots rs) r) := by
  cases c with
  | none => exact ⟨none, rfl, rfl, fun ρ r => rfl⟩
  | some c =>
    obtain ⟨d, hd, hholds⟩ := exists_substitute hrs c h
    have hwithin := (safe_substitute c h).of_eq_ok hd
    refine ⟨some d, by rw [Option.mapM_some, hd]; rfl, hwithin, fun ρ r => ?_⟩
    rw [Option.all_some, Option.all_some, ← hholds]
    exact holdsIn_of_unresolved? ρ r d ((isResolved_iff d).mpr hwithin)

namespace QueryPlan

variable {p : QueryPlan} {s : AccessStrategy}

/-- The store can compare with the keys of a plan, or the plan names them and returns the records
that have them. -/
def CanDecideKey (p : QueryPlan) : Prop :=
  p.keyCondition.all KeyCondition.isComparable = true ∨
    p.reduction = none ∧ ∃ c ks, p.keyCondition = some c ∧ c.namedKeys? = some ks

/-- The condition on the key of a plan that has a strategy means what it meant, with the values of
its slots, and can be decided. -/
lemma exists_substituteKey (hrs : rs.IsJoinable)
    (h : p.keyCondition.all (KeyCondition.isWithin ⟨fun _ => false, false, rs.length⟩) = true)
    (hs : p.strategyFor = .ok s) :
    ∃ k, p.keyCondition.mapM (KeyCondition.substitute rs) = .ok k ∧
      k.all (KeyCondition.isWithin .none) = true ∧
      { p with keyCondition := k }.CanDecideKey ∧
      ∀ key : UserKey, k.all (KeyCondition.holdsIn (.ofSlots rs) key) =
        p.keyCondition.all (KeyCondition.holdsIn (.ofSlots rs) key) := by
  cases hc : p.keyCondition with
  | none => exact ⟨none, rfl, rfl, .inl rfl, fun key => rfl⟩
  | some c =>
    rw [hc] at h
    rcases exists_program_or_named hs hc with ⟨program, hprogram⟩ | ⟨hreduction, ks, hks⟩
    · obtain ⟨d, hd, hcomparable, hholds⟩ := KeyCondition.exists_substitute hrs c h program hprogram
      exact ⟨some d, by rw [Option.mapM_some, hd]; rfl,
        (KeyCondition.safe_substitute c h).of_eq_ok hd, .inl hcomparable, hholds⟩
    · have hc' : c.substitute rs = .ok c := KeyCondition.substitute_of_namedKeys? hks
      exact ⟨some c, by rw [Option.mapM_some, hc']; rfl,
        (KeyCondition.safe_substitute c h).of_eq_ok hc', .inr ⟨hreduction, c, ks, rfl, hks⟩,
        fun key => rfl⟩

/-- **A plan without unknowns and indexes gets a strategy** that reads the records that satisfy its
conditions, if its condition on the key can be decided.

**Proof sketch.** Keys that are named are looked up (`TablePlan.exists_lookup`). Elsewhere the store
can run the programs of both conditions, to find records (`TablePlan.exists_readingStrategy`) or to
reduce them (`TablePlan.exists_reducingStrategy`). -/
lemma exists_strategyFor (ρ : Resolution) (hwithin : p.toTablePlan.isWithin .none = true)
    (hindexes : p.indexes = []) (hkey : p.CanDecideKey) :
    ∃ s, p.strategyFor = .ok s ∧ s.Fetches fun r => p.holdsIn ρ r := by
  have hresolved := TablePlan.isResolved_of_isWithin hwithin
  unfold strategyFor
  rcases hkey with hkey | ⟨hreduction, c, ks, hc, hks⟩
  · have hknown : p.isKnown = true := by rw [TablePlan.isKnown, hresolved, hkey]; rfl
    rw [← TablePlan.accepts_eq ρ hknown]
    cases p.reduction with
    | none =>
      obtain ⟨s, hs, hfinds⟩ := TablePlan.exists_readingStrategy hknown hindexes
      exact ⟨s, hs, hfinds.fetches⟩
    | some r =>
      obtain ⟨program, hprogram, hrun⟩ :=
        TablePlan.exists_reducingStrategy hknown hindexes r.call
      exact ⟨_, hprogram, fun K ns set => Store.select_eq_filter hrun⟩
  · rw [hreduction]
    obtain ⟨s, hs, hfinds⟩ := TablePlan.exists_lookup ρ hresolved hc hks
    exact ⟨s, hs, hfinds.fetches⟩

/-- **A plan into which the values of its sub-queries are put** holds no unknowns any more, and its
strategy reads the records that satisfy its conditions, given the values.

**Proof sketch.** Conditions and keys are filled in from the results, after which no unknowns are
left and the same records satisfy them. Such a plan gets a strategy that fetches them. -/
theorem exists_substitute (hrs : rs.IsJoinable)
    (hwithin : p.toTablePlan.isWithin ⟨fun _ => false, false, rs.length⟩ = true)
    (hsource : p.source = none) (hindexes : p.indexes = []) (hs : p.strategyFor = .ok s) :
    ∃ q t, p.substitute rs = .ok q ∧ q.toTablePlan.isWithin .none = true ∧ q.strategy = some t ∧
      t.Fetches fun r => p.holdsIn (.ofSlots rs) r := by
  rw [TablePlan.isWithin, Bool.and_eq_true] at hwithin
  obtain ⟨c, hc, hcwithin, hcholds⟩ := Condition.exists_mapM_substitute hrs hwithin.1
  obtain ⟨k, hk, hkwithin, hkey, hkholds⟩ := exists_substituteKey hrs hwithin.2 hs
  let q : QueryPlan := { p with condition := c, keyCondition := k }
  have hqwithin : q.toTablePlan.isWithin .none = true := by
    rw [TablePlan.isWithin, Bool.and_eq_true]
    exact ⟨hcwithin, hkwithin⟩
  obtain ⟨t, ht, hfetches⟩ := exists_strategyFor (p := q) (.ofSlots rs) hqwithin hindexes hkey
  have hsame : (fun r => q.holdsIn (.ofSlots rs) r) = fun r => p.holdsIn (.ofSlots rs) r := by
    funext r
    change (c.all _ && k.all _) = _
    rw [hcholds, hkholds]
    rfl
  rw [hsame] at hfetches
  refine ⟨q.mapTable fun table => { table with strategy := some t }, t, ?_, hqwithin, rfl, hfetches⟩
  simp only [substitute, hc, hk, ok_bind]
  exact chooseStrategy_of_strategyFor (p := q) hsource ht

end QueryPlan

/-! ## Results of sub-queries -/

/-- The values in rows of values with which the store can compare are such. -/
lemma SlotResults.isJoinable_of_rows {results : List (List Row)}
    (h : ∀ rows ∈ results, ∀ r ∈ rows, ∀ v ∈ r.values, v.isJoinable = true) :
    IsJoinable (results.map fun rows => rows.flatMap OrderedMap.values) := by
  intro vs hvs v hv
  obtain ⟨rows, hrows, rfl⟩ := List.mem_map.mp hvs
  obtain ⟨r, hr, hv⟩ := List.mem_flatMap.mp hv
  exact h rows hrows r hr v hv

/-- **The results of sub-queries keep the meaning of their slots.** A plan of a set without indexes,
with slots anywhere in its conditions and a strategy that they allow, is given rows of nulls, truth
values, integers and texts for each of its sub-queries. It fails for the first of them that does not
fit its place, and only then: one that lists several columns or none, one with a row that is wider
or narrower, one of several rows where one value is compared. Otherwise the conditions hold no slots
any more, and the strategy of the plan reads exactly the records that satisfy them if a slot among
whose values one is looked for stands for these values, and a slot in a comparison for the only one,
which is null if there is none.

**Proof sketch.** The results are checked one after the other (`slotResults_of_firstRejected`,
`slotResults_or_firstRejected`). Substitution keeps the meaning of both conditions, whatever becomes
of their shape (`Condition.exists_substitute`, `KeyCondition.exists_substitute`), and the strategy
for what comes out is right for it (`QueryPlan.exists_strategyFor`). -/
theorem QueryPlan.resolve_results {p : QueryPlan} {results : List (List Row)}
    (hwithin : p.toTablePlan.isWithin ⟨fun _ => false, false, p.subqueries.length⟩ = true)
    (hslots : p.subqueries ≠ []) (hsource : p.source = none) (hindexes : p.indexes = [])
    (hstrategy : ∃ s, p.strategyFor = .ok s) (hlength : results.length = p.subqueries.length)
    (hvalues : ∀ rows ∈ results, ∀ r ∈ rows, ∀ v ∈ r.values, v.isJoinable = true) :
    (∀ e, p.resolve (m := Except QueryError) (results.map Except.ok) = .error e ↔
      FirstRejected p.subqueries results e) ∧
    ((∀ e, ¬FirstRejected p.subqueries results e) →
      ∃ q s, p.resolve (m := Except QueryError) (results.map Except.ok) = .ok q ∧
        q.toTablePlan.isWithin .none = true ∧ q.strategy = some s ∧
        s.Fetches fun r =>
          p.holdsIn (.ofSlots (results.map fun rows => rows.flatMap OrderedMap.values)) r) := by
  obtain ⟨s, hs⟩ := hstrategy
  have hlength' : (results.map fun rows => rows.flatMap OrderedMap.values).length =
      p.subqueries.length := by rw [List.length_map, hlength]
  rw [← hlength'] at hwithin
  obtain ⟨q, t, hq, hqwithin, ht, hfetches⟩ :=
    exists_substitute (SlotResults.isJoinable_of_rows hvalues) hwithin hsource hindexes hs
  have hresolve : p.resolve (m := Except QueryError) (results.map Except.ok) = (do
      let rs ← slotResults (m := Except QueryError) p.subqueries (results.map Except.ok)
      p.substitute rs) := by
    rw [QueryPlan.resolve, if_neg (by simpa using hslots)]
    rfl
  rw [hresolve]
  rcases slotResults_or_firstRejected hlength with hok | ⟨e, he⟩
  · have hnone : ∀ e, ¬FirstRejected p.subqueries results e := by
      intro e he
      rw [slotResults_of_firstRejected he] at hok
      cases hok
    rw [hok, ok_bind, hq]
    exact ⟨fun e => ⟨nofun, fun he => absurd he (hnone e)⟩,
      fun _ => ⟨q, t, rfl, hqwithin, ht, hfetches⟩⟩
  · rw [slotResults_of_firstRejected he]
    refine ⟨fun e' => ⟨fun h => ?_, fun he' => ?_⟩, fun hnone => absurd he (hnone e)⟩
    · obtain rfl := Except.error.inj h
      exact he
    · have heq := (slotResults_of_firstRejected he).symm.trans (slotResults_of_firstRejected he')
      rw [Except.error.inj heq]
      rfl

/-- Records older than a value or with one of several scores, and under one of several keys but not
under another one: with the results `30`, a null and `7`, the keys `1` and `2`, and `2`, the
strategy reads the records that satisfy this, one with the key `1` and the age `31` among them and
none with the key `2`. Were there two ages, the first result would be refused.

**Proof sketch.** For the first results the values are computed, so none of them is rejected, and
the second part of `QueryPlan.resolve_results` applies. Of the others the first one has two rows for
a single value, which is what the first part asks for. -/
theorem QueryPlan.resolve_results_people :
    let query : QueryNode :=
      .plan { QueryPlan.ofTable (.ofSet "ns" (some "other") none) with wildcard := true }
    let table : TablePlan :=
      { TablePlan.ofSet "ns" (some "people") none with
        condition := some (.any [.compare "age" .unknown .gt (.slot 0), .inSlot "score" .unknown 1])
        keyCondition := some (.all [.inSlot 2, .notEqual (.slot 3)]) }
    let p : QueryPlan :=
      { QueryPlan.ofTable table with
        subqueries :=
          [⟨query, .scalar .gt⟩, ⟨query, .among⟩, ⟨query, .among⟩, ⟨query, .scalar .ne⟩] }
    let rows : List Value → List Row := List.map fun v => Row.ofValues ["v"] [v]
    let others : List (List Row) :=
      [rows [.null, .integer 7], rows [.integer 1, .integer 2], rows [.integer 2]]
    let person : Int64 → Record := fun k =>
      ⟨⟨"ns", "people", .integer k⟩, OrderedMap.empty.set "age" (.integer 31)⟩
    (∃ q s test, p.resolve (m := Except QueryError) ((rows [.integer 30] :: others).map Except.ok) =
      .ok q ∧ q.strategy = some s ∧ s.Fetches test ∧ test (person 1) = true ∧
        test (person 2) = false) ∧
    p.resolve (m := Except QueryError)
      ((rows [.integer 30, .integer 40] :: others).map Except.ok) = .error (.tooManyRows ">") := by
  intro query table p rows others person
  have hstrategy : ∃ s, p.strategyFor = .ok s := ⟨_, rfl⟩
  constructor
  · have hresults := @resolve_results p (rows [.integer 30] :: others) rfl (List.cons_ne_nil _ _)
      rfl rfl hstrategy rfl (by decide)
    have hvalues : slotResults (m := Except QueryError) p.subqueries
        ((rows [.integer 30] :: others).map Except.ok) =
          .ok [[.integer 30], [.null, .integer 7], [.integer 1, .integer 2], [.integer 2]] := rfl
    have hfits : ∀ e, ¬FirstRejected p.subqueries (rows [.integer 30] :: others) e := by
      intro e he
      rw [slotResults_of_firstRejected he] at hvalues
      cases hvalues
    obtain ⟨q, s, hq, -, hs, hfetches⟩ := hresults.2 hfits
    exact ⟨q, s, _, hq, hs, hfetches, by decide, by decide⟩
  · have hresults := @resolve_results p (rows [.integer 30, .integer 40] :: others) rfl
      (List.cons_ne_nil _ _) rfl rfl hstrategy rfl (by decide)
    have hrejects : SubquerySlot.Rejects ⟨query, .scalar .gt⟩ (rows [.integer 30, .integer 40])
        (.tooManyRows Comparison.gt.symbol) := .several (.inl rfl) (by decide) rfl (by decide)
    exact (hresults.1 _).mpr (.here hrejects)

end RecordQuery
