import RecordQuery.Proofs.Execution.Catalog
import RecordQuery.Proofs.Execution.Selection
import RecordQuery.Proofs.Execution.SetOperation
import RecordQuery.Proofs.Pipeline.Where

set_option autoImplicit false

/-!
# Selections with a condition

A selection with joins and a condition is answered with the joined records that the conjuncts of the
condition admit, each on its own table. Compared with the selection without the condition rows are
left out only, and just those on which the condition is not true, unless a conjunct is on the table
of a left join: a record whose partners are all refused there stays, without a partner.

## Main results

* `Select.shows_of_answer` — what a selection with or without a condition is answered with.
* `Statement.answer_where` — the answers with and without the condition.
-/

namespace RecordQuery

open Outcome

section

variable {config : Config} {params : List Value} {st : Store} {s : Select} {p q : QueryPlan}
  {routed : List (Nat × Expr)}

/-- A bound plan that stands for conjuncts and has no unknowns can be run.

**Proof sketch.** Each field is read off the relation. The main table keeps the indexes of the bare
plan, and its key condition is that of the conjuncts or none, which is comparable. A joined table is
found by its position in the bare plan, keeps its set and indexes, and is resolved because the bound
plan is prepared. -/
lemma QueryPlan.StandsFor.isRunnable (h : p.StandsFor p.scope params routed q) (hp : p.IsBare)
    (hq : q.IsPrepared) : q.IsRunnable where
  indexes := by
    rw [h.table_eq]
    exact hp.main.indexes
  known := by
    rw [TablePlan.isKnown, TablePlan.isResolved_of_isWithin hq.table, Bool.true_and]
    rcases h.main with ⟨htable, -⟩ | ⟨htable, -⟩
    · obtain ⟨parts, -, -, hmeans⟩ := htable.parts
      exact hmeans.comparable
    · rw [htable, hp.main.keyCondition]
      rfl
  settled := hq.settled
  joins := by
    intro k hk
    obtain ⟨i, hi⟩ := List.mem_iff_getElem?.mp hk
    have hjoin := h.joins i
    rw [hi] at hjoin
    cases hj : p.joins[i]? with
    | none =>
      rw [hj] at hjoin
      cases hjoin
    | some j =>
      rw [hj] at hjoin
      obtain ⟨hplan, -⟩ := Option.rel_some_some.mp hjoin
      have hbare := hp.joins j (List.mem_of_getElem? hj)
      obtain ⟨parts, -, -, hmeans⟩ := hplan.parts
      refine ⟨?_, ?_, ?_, hmeans.comparable⟩
      · rw [hplan.same]
        exact hbare.set
      · rw [hplan.same]
        exact hbare.indexes
      · have hwithin := hq.joins k hk
        rw [TablePlan.isWithin, Bool.and_eq_true] at hwithin
        exact hwithin.1
  unreduced := h.unreduced

/-- **What a selection is answered with**: rows that show the joined records that the conjuncts of
its condition admit. A decision stands for every conjunct; it is the truth of the conjunct, if that
has a value.

**Proof sketch.** The plan of the selection is that of its items with the conjuncts
(`compileSelect_takesConjuncts`), and still stands for them when it is bound
(`QueryPlan.TakesConjuncts.bind`). There is nothing to prepare, and the rows of such a plan show the
joined records that its conjuncts admit (`QueryPlan.StandsFor.shows`). -/
theorem Select.shows_of_answer {orderBy : List OrderItem} {labels : List String} {rows : List Row}
    (hshown : s.shown config.defaultNamespace = .ok q) (hdistinct : s.distinct = false)
    (hgrouped : s.isGrouped orderBy = false) (hnodup : (q.joins.map JoinSpec.qualifier).Nodup)
    (hst : st.IsPlain) (hw : ∀ w, s.condition = some w → q.Suits params st w)
    (h : ((Statement.query ⟨.select s, orderBy, none, none⟩).answer config [] params st).1 =
      .ok (.rows labels rows)) :
    labels = q.labels ∧ ∃ (routed : List (Nat × Expr)) (holds : JoinedRecords → Expr → Bool),
      routeCondition q.scope s.condition = .ok routed ∧
      (∀ t e, Decides (holds t e) (e.evalIn (t.env q params))) ∧
      q.Shows params (q.tuples params st fun t =>
        (conjunctsAt routed t.partners.length).all (holds t)) rows := by
  obtain ⟨p, bound, prepared, P, hp, hbound, hprepared, -, hlabels, hP, hl⟩ :=
    Statement.lists_of_select h
  have hready := Select.isPrepared hp hbound hprepared
  have hbare := Select.isBare_shown hshown
  obtain ⟨routed, hrouted, htakes⟩ := compileSelect_takesConjuncts hdistinct hgrouped hshown
    (fun w hcondition e he => ((hw w hcondition).mono (w.parts_conjuncts he)).query) hp
  have hes : ∀ i, ∀ e ∈ conjunctsAt routed i,
      q.Suits params st e ∧ lastTable q.scope e.columns = .ok i := by
    intro i e he
    cases hcondition : s.condition with
    | none =>
      rw [hcondition] at hrouted
      obtain rfl := Except.ok.inj hrouted
      cases he
    | some w =>
      rw [hcondition] at hrouted
      exact ⟨(hw w hcondition).mono (w.parts_conjuncts (mem_of_routeConjuncts hrouted he)),
        lastTable_of_mem_conjunctsAt hrouted he⟩
  have hstands := htakes.bind hbare
    (fun i e he => (hes i e he).1.isSupplied fun c hc table hi hne => rfl) hbound
  obtain rfl : bound = prepared := by
    rw [QueryPlan.prepare_eq_pure _ hstands.unreduced.source hstands.unreduced.subqueries]
      at hprepared
    exact Except.ok.inj ((StoreM.Reads.pure bound).unique hprepared)
  refine ⟨?_, routed, fun t => Expr.decided (t.env q params) (bound.admitsLast params t), hrouted,
    fun t e => Expr.decides_decided, ?_⟩
  · rw [hlabels, QueryPlan.labels, hstands.table_eq]
    rfl
  · exact hstands.shows hbare hst hes hnodup (hstands.isRunnable hbare hready) hP rfl hl

/-- **A condition leaves out just the rows on which it is not true**, unless a left join is in the
way. Let a selection of tables, neither grouped nor without duplicates, be answered with and without
its condition. The rows without the condition show all joined records, those with it the ones that
the conjuncts admit, each of them asked as soon as its table is joined. If no conjunct is on the
table of a left join, these are the joined records on which the condition is true, wherever it has a
value on all of them. (A conjunct on the table of a left join decides which records are partners; a
row all of whose partners are refused stays, without a partner.) Indexes that the store backs do not
change the answers.

**Proof sketch.** Both answers show what the conjuncts admit (`Select.shows_of_answer`), without the
condition all joined records. Where no conjunct is on the table of a left join, partners that are
refused at once may as well be left out afterwards (`QueryPlan.tuples_eq_filter`). -/
theorem Statement.answer_where {w : Expr} {orderBy : List OrderItem} {labels labels' : List String}
    {all rows : List Row} (hshown : s.shown config.defaultNamespace = .ok q)
    (hcondition : s.condition = some w) (hdistinct : s.distinct = false)
    (hgrouped : s.isGrouped orderBy = false) (hnodup : (q.joins.map JoinSpec.qualifier).Nodup)
    (hst : st.IsPlain) (hw : q.Suits params st w)
    (hall : ((Statement.query ⟨.select { s with condition := none }, orderBy, none, none⟩).answer
      config [] params st).1 = .ok (.rows labels all))
    (hrows : ((Statement.query ⟨.select s, orderBy, none, none⟩).answer config [] params st).1 =
      .ok (.rows labels' rows)) :
    labels' = labels ∧
      (∃ (routed : List (Nat × Expr)) (holds : JoinedRecords → Expr → Bool),
        routeConjuncts q.scope w.conjuncts = .ok routed ∧
        (∀ t e, Decides (holds t e) (e.evalIn (t.env q params))) ∧
        q.Shows params (q.tuples params st fun _ => true) all ∧
        q.Shows params (q.tuples params st fun t =>
          (conjunctsAt routed t.partners.length).all (holds t)) rows ∧
        ((∀ (i : Nat) (j : JoinSpec), q.joins[i]? = some j → j.kind = .left →
            conjunctsAt routed (i + 1) = []) →
          (∀ t ∈ q.tuples params st fun _ => true, ∃ v, w.evalIn (t.env q params) = .ok v) →
          (q.tuples params st fun t => (conjunctsAt routed t.partners.length).all (holds t)) =
            (q.tuples params st fun _ => true).filter fun t =>
              (w.evalIn (t.env q params)).toOption.any Value.isTruthy)) ∧
      ∀ catalog, st.Backs catalog →
        ((Statement.query ⟨.select { s with condition := none }, orderBy, none, none⟩).answer config
          catalog params st).1 = .ok (.rows labels all) ∧
        ((Statement.query ⟨.select s, orderBy, none, none⟩).answer config catalog params st).1 =
          .ok (.rows labels' rows) := by
  have hbacked : ∀ {query : Query} {answer : Answer},
      ((Statement.query query).answer config [] params st).1 = .ok answer →
        ∀ catalog, st.Backs catalog →
          ((Statement.query query).answer config catalog params st).1 = .ok answer := by
    intro query answer h catalog hbacks
    obtain ⟨last, hlast, -⟩ :=
      Statement.answer_of_backs hbacks config _ params answer _ (Prod.ext h rfl)
    rw [hlast]
  obtain ⟨hlabels, routed₀, holds₀, hrouted₀, -, hshows₀⟩ :=
    Select.shows_of_answer (s := { s with condition := none }) hshown hdistinct hgrouped hnodup hst
      (fun w h => nomatch h) hall
  obtain ⟨hlabels', routed, holds, hrouted, hholds, hshows⟩ :=
    Select.shows_of_answer hshown hdistinct hgrouped hnodup hst
      (fun w' h => Option.some.inj (hcondition.symm.trans h) ▸ hw) hrows
  obtain rfl := Except.ok.inj hrouted₀
  rw [hcondition] at hrouted
  exact ⟨hlabels'.trans hlabels.symm,
    ⟨routed, holds, hrouted, hholds, hshows₀, hshows, QueryPlan.tuples_eq_filter hrouted hholds⟩,
    fun catalog hbacks => ⟨hbacked hall catalog hbacks, hbacked hrows catalog hbacks⟩⟩

end

/-- The pets of people, and the people with the key of a pet's owner, if there are any. -/
def Select.petsOfPeople (condition : Option Expr) : Select where
  distinct := false
  items := [.expr (.column ⟨none, "name"⟩) none, .expr (.column ⟨some "t", keyColumn⟩) (some "pet"),
    .expr (.column ⟨some "n", "name"⟩) (some "other")]
  source := .named ⟨none, "people"⟩ none
  joins := [
    ⟨.inner, .named ⟨none, "pets"⟩ (some "t"),
      some (.binary (.compare .eq) (.column ⟨none, "name"⟩) (.column ⟨some "t", "owner"⟩))⟩,
    ⟨.left, .named ⟨none, "people"⟩ (some "n"),
      some (.binary (.compare .eq) (.column ⟨some "t", "owner"⟩) (.column ⟨some "n", keyColumn⟩))⟩]
  condition := condition
  groupBy := []
  having := none

/-- Of Ada's pets in a village a condition leaves out the one whose key is given.

**Proof sketch.** Both answers and the plan of the bare query are evaluated, and so are the side
conditions: distinct qualifiers, no conjunct on a left join, a condition with a value on every
tuple. `Statement.answer_where` then says which tuples the rows show, and that the filtered tuples
are those of the second answer. -/
theorem Statement.answer_where_pets :
    let w : Expr := .binary .and
      (.binary (.compare .ne) (.column ⟨some "t", keyColumn⟩) (.param 1))
      (.binary (.compare .eq) (.column ⟨none, "name"⟩) (.literal (.text "Ada")))
    let row (pet : Int64) : Row := ((OrderedMap.empty.set "name" (.text "Ada")).set "pet"
      (.integer pet)).set "other" .null
    ((Statement.query (.ofBody (.select (.petsOfPeople none)))).answer ⟨"test", 5000, none⟩ []
        [.integer 1] Store.village).1 = .ok (.rows ["name", "pet", "other"] [row 1, row 2]) ∧
      ((Statement.query (.ofBody (.select (.petsOfPeople (some w))))).answer ⟨"test", 5000, none⟩ []
        [.integer 1] Store.village).1 = .ok (.rows ["name", "pet", "other"] [row 2]) ∧
      ∃ q, (Select.petsOfPeople none).shown "test" = .ok q ∧
        q.Shows [.integer 1] (q.tuples [.integer 1] Store.village fun _ => true) [row 1, row 2] ∧
        q.Shows [.integer 1] ((q.tuples [.integer 1] Store.village fun _ => true).filter fun t =>
          (w.evalIn (t.env q [.integer 1])).toOption.any Value.isTruthy) [row 2] := by
  intro w row
  have hall : ((Statement.query (.ofBody (.select (.petsOfPeople none)))).answer
      ⟨"test", 5000, none⟩ [] [.integer 1] Store.village).1 =
        .ok (.rows ["name", "pet", "other"] [row 1, row 2]) :=
    eq_ok_of_toOption (by decide +kernel)
  have hrows : ((Statement.query (.ofBody (.select (.petsOfPeople (some w))))).answer
      ⟨"test", 5000, none⟩ [] [.integer 1] Store.village).1 =
        .ok (.rows ["name", "pet", "other"] [row 2]) :=
    eq_ok_of_toOption (by decide +kernel)
  obtain ⟨q, hq⟩ : ∃ q, (Select.petsOfPeople none).shown "test" = .ok q := by
    obtain ⟨q, hq⟩ := Option.isSome_iff_exists.mp
      (show ((Select.petsOfPeople none).shown "test").toOption.isSome from by decide +kernel)
    exact ⟨q, eq_ok_of_toOption hq⟩
  have hplan : ∀ {b : QueryPlan → Bool},
      (((Select.petsOfPeople none).shown "test").toOption.all b) = true → b q = true := by
    intro b h
    rwa [hq] at h
  have hearly : q.earlyColumns = [] :=
    List.isEmpty_iff.mp (hplan (b := fun q => q.earlyColumns.isEmpty) (by decide +kernel))
  have hnodup : (q.joins.map JoinSpec.qualifier).Nodup := of_decide_eq_true
    (hplan (b := fun q => decide (q.joins.map JoinSpec.qualifier).Nodup) (by decide +kernel))
  have hinner : ((routeConjuncts q.scope w.conjuncts).toOption.all fun routed =>
      q.joins.zipIdx.all fun k => k.1.kind != .left || (conjunctsAt routed (k.2 + 1)).isEmpty) =
        true :=
    hplan (b := fun q => (routeConjuncts q.scope w.conjuncts).toOption.all fun routed =>
      q.joins.zipIdx.all fun k => k.1.kind != .left || (conjunctsAt routed (k.2 + 1)).isEmpty)
        (by decide +kernel)
  have hvalues : ((q.tuples [.integer 1] Store.village fun _ => true).all fun t =>
      (w.evalIn (t.env q [.integer 1])).toOption.isSome) = true :=
    hplan (b := fun q => (q.tuples [.integer 1] Store.village fun _ => true).all fun t =>
      (w.evalIn (t.env q [.integer 1])).toOption.isSome) (by decide +kernel)
  have hw : q.Suits [.integer 1] Store.village w :=
    { query := rfl
      aggregate := rfl
      names := by decide +kernel
      param := by
        intro index hindex
        obtain rfl : index = 1 := by simpa [w, Expr.parts] using hindex
        exact ⟨.integer 1, rfl, rfl⟩
      items := rfl
      paramItems := by
        intro a items negated hmem
        simp [w, Expr.parts] at hmem
      overlook := fun r _ i hi => by rw [hearly] at hi; cases hi }
  have hplain : Store.village.IsPlain := by decide +kernel
  obtain ⟨-, ⟨routed, holds, hrouted, -, hshows, hshows', hfilter⟩, -⟩ :=
    @Statement.answer_where ⟨"test", 5000, none⟩ [.integer 1] Store.village
      (.petsOfPeople (some w)) q w [] _ _ _ _ hq rfl rfl rfl hnodup hplain hw hall hrows
  rw [hrouted] at hinner
  refine ⟨hall, hrows, q, hq, hshows, ?_⟩
  rwa [← hfilter]
  · intro i j hj hkind
    have hempty := List.all_eq_true.mp hinner (j, i) (List.mem_zipIdx_iff_getElem?.mpr hj)
    simpa [hkind] using hempty
  · intro t ht
    obtain ⟨v, hv⟩ := Option.isSome_iff_exists.mp (List.all_eq_true.mp hvalues t ht)
    exact ⟨v, eq_ok_of_toOption hv⟩

/-- Without the condition Ada has two pets. A conjunct on the table of the left join refuses both of
them as partners, and she stays without one. -/
example :
    let row (name : String) (pet : Value) : Row :=
      (OrderedMap.empty.set "name" (.text name)).set "pet" pet
    let answer (condition : Option Expr) : Option Answer :=
      let s : Select := Select.petsOfPeople condition
      ((Statement.query (.ofBody (.select { s with
        items := s.items.take 2
        joins := (s.joins.take 1).map fun j => { j with kind := .left } }))).answer
          ⟨"test", 5000, none⟩ [] [] Store.village).1.toOption
    answer none = some (.rows ["name", "pet"]
        [row "Ada" (.integer 1), row "Ada" (.integer 2), row "Bob" .null]) ∧
      answer (some (.binary (.compare .eq) (.column ⟨some "t", keyColumn⟩)
        (.literal (.integer 7)))) =
        some (.rows ["name", "pet"] [row "Ada" .null, row "Bob" .null]) := by
  decide +kernel

end RecordQuery
