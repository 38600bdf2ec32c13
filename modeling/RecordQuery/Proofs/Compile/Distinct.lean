import RecordQuery.Proofs.Compile.Closed
import RecordQuery.Proofs.Compile.Growth
import RecordQuery.Proofs.Plan.Distinct

set_option autoImplicit false

/-!
# Selections without duplicates

A selection of one column without duplicates compiles like the one with duplicates, and then its
plan reduces what it reads. A grouped selection compiles to the same plan with and without
duplicates.

## Main results

* `addItems_own` — the columns of a selection of one table are its own.
* `compileSelect_deduplicates` — the plans of a selection with and without duplicates.
* `compileSelect_grouped` — a grouped selection keeps its duplicates.
-/

namespace RecordQuery

open Outcome

/-! ## Columns of one table -/

section

variable {t : TableRef} {p q : QueryPlan}

/-- A column that shows an expression shows no bin. -/
lemma QueryPlan.isOwn_expressionColumn {text : String} {label : Option String} {value : ColumnValue}
    (hvalue : value ≠ .bin) : (p.expressionColumn text label value false).IsOwn :=
  ⟨nofun, fun h => absurd h hvalue, fun h => absurd h hvalue⟩

/-- A returned column. -/
lemma addColumnItem_own {c : ColumnRef} {label : Option String}
    (h : addColumnItem [t] none p c label = .ok q) : p.Grows True Column.IsOwn q := by
  obtain ⟨table, htable, h⟩ := bind_eq_ok.mp h
  obtain ⟨value, hvalue, h⟩ := bind_eq_ok.mp h
  obtain rfl := Scope.resolve_singleton htable
  obtain rfl := Except.ok.inj hvalue
  obtain rfl := Except.ok.inj h
  refine .register ?_ 0 ⟨nofun, fun _ => rfl, fun hbin _ => ?_⟩
  · split
    · exact .requireDigest .refl 0
    · exact .refl
  · change (if c.name = keyColumn then ColumnValue.key
      else if c.name = digestColumn then .digest else .bin) = .bin at hbin
    split at hbin
    · cases hbin
    · rename_i hkey
      split at hbin
      · cases hbin
      · rename_i hdigest
        exact ⟨hkey, hdigest⟩

/-- The columns that an expression needs. -/
lemma registerColumns_own {cs : List ColumnRef} (h : registerColumns [t] p cs = .ok q) :
    p.Grows True Column.IsOwn q := by
  induction cs generalizing p with
  | nil =>
    obtain rfl := Except.ok.inj h
    exact .refl
  | cons c cs ih =>
    obtain ⟨table, htable, h⟩ := bind_eq_ok.mp h
    obtain rfl := Scope.resolve_singleton htable
    refine .trans (.register ?_ 0 ⟨fun _ => rfl, fun _ => rfl, fun _ hvisible => ?_⟩) (ih h)
    · split
      · exact .requireDigest .refl 0
      · exact .refl
    · cases hvisible

/-- A selected expression. -/
lemma addExpr_own {e : Expr} {label : Option String} (h : addExpr [t] none p e label = .ok q) :
    p.Grows True Column.IsOwn q := by
  unfold addExpr at h
  split at h
  · exact addColumnItem_own h
  · split at h
    · obtain ⟨spec, -, h⟩ := bind_eq_ok.mp h
      obtain rfl := Except.ok.inj h
      exact .register .refl 0 (QueryPlan.isOwn_expressionColumn nofun)
    · split at h
      · obtain ⟨m, hm, h⟩ := bind_eq_ok.mp h
        obtain rfl := Except.ok.inj h
        exact .register (registerColumns_own hm) 0 (QueryPlan.isOwn_expressionColumn nofun)
      · cases h

/-- **The columns of a selection of one table are its own.** -/
theorem addItems_own {items : List SelectItem} (h : addItems [t] none p items = .ok q) :
    p.Grows True Column.IsOwn q := by
  induction items generalizing p with
  | nil =>
    obtain rfl := Except.ok.inj h
    exact .refl
  | cons i items ih =>
    obtain ⟨m, hm, h⟩ := bind_eq_ok.mp h
    refine .trans ?_ (ih h)
    cases i with
    | expr e label => exact addExpr_own hm
    | all =>
      obtain rfl := Except.ok.inj hm
      exact .star .refl trivial

end

/-! ## Selections -/

section

variable {env : CompileEnv} {compileSub : Query → Except QueryError QueryNode} {s : Select}
  {p q : QueryPlan}

/-- The plan of a source is plain, if no index is known. -/
lemma compileSource_isPlain {table : TableExpr} (hindexes : env.indexes = [])
    (h : compileSource env compileSub table = .ok p) : p.IsPlain := by
  cases table with
  | named name rename =>
    obtain rfl := Except.ok.inj h
    have hnone : env.indexes.forSet (env.namespaceOf name) name.name = [] := by
      rw [hindexes]
      rfl
    exact ⟨fun d hd => absurd hd List.not_mem_nil, hnone, rfl, rfl, rfl, rfl, rfl, rfl⟩
  | derived q rename =>
    obtain ⟨n, -, h⟩ := bind_eq_ok.mp h
    obtain rfl := Except.ok.inj h
    exact ⟨fun d hd => absurd hd List.not_mem_nil, rfl, rfl, rfl, rfl, rfl, rfl, rfl⟩

/-- A plan stays plain if columns of its own are added. -/
lemma QueryPlan.IsPlain.of_grows (h : p.IsPlain) (hgrows : p.Grows True Column.IsOwn q) :
    q.IsPlain := by
  obtain ⟨htable, hjoins, hrest⟩ := hgrows.sameReading
  rw [h.joins] at hjoins
  rw [hrest]
  refine { h with
    own := fun d hd => ?_, indexes := ?_, joins := List.forall₂_nil_left_iff.mp hjoins }
  · exact (hgrows.of_mem_columns hd).elim (h.own d) id
  · rw [show q.toTablePlan = _ from htable]
    exact h.indexes

/-- The condition of a selection of one table leaves its plan plain.

**Proof sketch.** The main table gets conditions or a row filter (`compileMain_cases`), and a plain
plan stays plain with either. There are no joined tables to compile conjuncts for. -/
lemma compileWhere_isPlain {scope : Scope} {condition : Expr} (hplain : p.IsPlain)
    (h : compileWhere compileSub scope p condition = .ok q) : q.IsPlain := by
  unfold compileWhere at h
  obtain ⟨routed, -, h⟩ := bind_eq_ok.mp h
  simp only at h
  have hmain : ∃ m : QueryPlan, m.IsPlain ∧
      (compileJoins compileSub scope routed 1 m.joins >>= fun joins =>
        .ok { m with joins }) = .ok q := by
    split at h
    · obtain ⟨m, hm, h⟩ := bind_eq_ok.mp h
      refine ⟨m, ?_, h⟩
      rcases compileMain_cases hm with ⟨-, parts, slots, -, -, rfl⟩ | ⟨-, rfl⟩
      · rw [TablePlan.foldl_addNative_eq]
        exact { hplain with }
      · exact { hplain with }
    · exact ⟨p, hplain, h⟩
  obtain ⟨m, hm, h⟩ := hmain
  obtain ⟨joins, hjoins, h⟩ := bind_eq_ok.mp h
  rw [hm.joins] at hjoins
  obtain rfl := Except.ok.inj hjoins
  obtain rfl := Except.ok.inj h
  exact { hm with joins := rfl }

/-- What compiling a selection comes to that is not grouped. -/
lemma compileSelect_of_ungrouped {orderBy : List OrderItem} {limit offset : Option Expr}
    (hgrouped : s.isGrouped orderBy = false) :
    compileSelect env compileSub s orderBy limit offset = (do
      let source ← compileSource env compileSub s.source
      let (joins, scope) ← compileJoinList env [⟨source.set, source.rename⟩] s.joins
      let shown ← addItems scope none { source with joins } s.items
      let filtered ← shown.withOption (compileWhere compileSub scope) s.condition
      let (order, ordered) ← planOrder scope none filtered orderBy
      let reduced ← addReduction none s.distinct { ordered with orderBy := order }
      finishSelect limit offset reduced) := by
  obtain ⟨distinct, items, source, joins, condition, groupBy, having⟩ := s
  have hparts := hgrouped
  simp only [Select.isGrouped, Bool.or_eq_false_iff, Bool.not_eq_false', List.isEmpty_iff] at hparts
  obtain ⟨⟨⟨rfl, hnone⟩, -⟩, -⟩ := hparts
  obtain rfl : having = none := Option.not_isSome_iff_eq_none.mp (by simp [hnone])
  simp only [compileSelect, hgrouped]
  rfl

/-- What this comes to for one table. -/
lemma compileSelect_ungrouped {orderBy : List OrderItem} {limit offset : Option Expr}
    (hjoins : s.joins = []) (hgrouped : s.isGrouped orderBy = false) :
    compileSelect env compileSub s orderBy limit offset = (do
      let source ← compileSource env compileSub s.source
      let scope : Scope := [⟨source.set, source.rename⟩]
      let shown ← addItems scope none { source with joins := [] } s.items
      let filtered ← shown.withOption (compileWhere compileSub scope) s.condition
      let (order, ordered) ← planOrder scope none filtered orderBy
      let reduced ← addReduction none s.distinct { ordered with orderBy := order }
      finishSelect limit offset reduced) := by
  rw [compileSelect_of_ungrouped hgrouped, hjoins]
  rfl

/-- What this comes to without order and limits. -/
lemma compileSelect_single (hjoins : s.joins = []) (hgrouped : s.isGrouped [] = false) :
    compileSelect env compileSub s [] none none = (do
      let source ← compileSource env compileSub s.source
      let scope : Scope := [⟨source.set, source.rename⟩]
      let shown ← addItems scope none { source with joins := [] } s.items
      let filtered ← shown.withOption (compileWhere compileSub scope) s.condition
      let reduced ← addReduction none s.distinct { filtered with orderBy := [] }
      finishSelect none none reduced) := by
  rw [compileSelect_ungrouped hjoins hgrouped]
  rfl

/-- The column that is reduced to its different values. -/
lemma exists_of_distinctReduction {r : Reduction} (h : p.distinctReduction = .ok r) :
    ∃ c, Column.visible p.columns = [c] ∧ c.value = .bin ∧ p.wildcard = false ∧
      r = ⟨.distinct c.name, p.outputMapping⟩ := by
  unfold QueryPlan.distinctReduction at h
  split at h
  · rename_i c hvisible
    split at h
    · rename_i hvalue
      split at h
      · rename_i hnamed
        obtain rfl := Except.ok.inj h
        simp only [Bool.and_eq_true, Bool.not_eq_true'] at hnamed
        exact ⟨c, hvisible, hvalue, hnamed.1, rfl⟩
      · cases h
    · cases h
  · cases h

/-- The last step for a plan without joins. -/
lemma finishSelect_single (hjoins : p.joins = []) {limit offset : Option Expr}
    (h : finishSelect limit offset p = .ok q) :
    (p.reduction.isSome = true → p.source = none → p.rowFilter = none) ∧
      ∃ o l, optionalRowBound offset = .ok o ∧ optionalRowBound limit = .ok l ∧
        { p with joins := [], offset := o, limit := l }.chooseStrategy = .ok q := by
  unfold finishSelect at h
  split at h
  · cases h
  · rename_i hguard
    obtain ⟨o, ho, h⟩ := bind_eq_ok.mp h
    obtain ⟨l, hl, h⟩ := bind_eq_ok.mp h
    rw [hjoins] at h
    refine ⟨fun hreduction hsource => ?_, o, l, ho, hl, h⟩
    cases hfilter : p.rowFilter with
    | none => rfl
    | some e => simp [hreduction, hsource, hfilter] at hguard

/-- The last step for a plan without joins and limits. -/
lemma finishSelect_plain (hjoins : p.joins = []) (h : finishSelect none none p = .ok q) :
    (p.reduction.isSome = true → p.source = none → p.rowFilter = none) ∧
      { p with joins := [], offset := none, limit := none }.chooseStrategy = .ok q := by
  obtain ⟨hguard, o, l, ho, hl, h⟩ := finishSelect_single hjoins h
  obtain rfl := Except.ok.inj ho
  obtain rfl := Except.ok.inj hl
  exact ⟨hguard, h⟩

/-- **The plans of a selection with and without duplicates.**

**Proof sketch.** Both selections are compiled alike up to the reduction (`compileSelect_single`):
the same source, the same columns and the same condition, all of them plain. The distinct one then
gets a reduction by the single column that it returns (`exists_of_distinctReduction`), and what
remains is to choose strategies (`QueryPlan.Deduplicates.of_chooseStrategy`). -/
theorem compileSelect_deduplicates (hindexes : env.indexes = []) (hjoins : s.joins = [])
    (hgrouped : s.isGrouped [] = false)
    (hp : compileSelect env compileSub { s with distinct := false } [] none none = .ok p)
    (hq : compileSelect env compileSub { s with distinct := true } [] none none = .ok q) :
    ∃ c, QueryPlan.Deduplicates c p q := by
  rw [compileSelect_single (s := { s with distinct := false }) hjoins hgrouped] at hp
  rw [compileSelect_single (s := { s with distinct := true }) hjoins hgrouped] at hq
  obtain ⟨source, hsource, hp⟩ := bind_eq_ok.mp hp
  obtain ⟨source', hsource', hq⟩ := bind_eq_ok.mp hq
  obtain rfl := Except.ok.inj (hsource.symm.trans hsource')
  obtain ⟨shown, hshown, hp⟩ := bind_eq_ok.mp hp
  obtain ⟨shown', hshown', hq⟩ := bind_eq_ok.mp hq
  obtain rfl := Except.ok.inj (hshown.symm.trans hshown')
  obtain ⟨filtered, hfiltered, hp⟩ := bind_eq_ok.mp hp
  obtain ⟨filtered', hfiltered', hq⟩ := bind_eq_ok.mp hq
  obtain rfl := Except.ok.inj (hfiltered.symm.trans hfiltered')
  have hplain : filtered.IsPlain := by
    have hread : ({ source with joins := [] } : QueryPlan).IsPlain :=
      { compileSource_isPlain hindexes hsource with joins := rfl }
    have hshown : shown.IsPlain := hread.of_grows (addItems_own hshown)
    cases hcondition : s.condition with
    | none =>
      simp only [hcondition] at hfiltered
      obtain rfl := Except.ok.inj hfiltered
      exact hshown
    | some e =>
      simp only [hcondition] at hfiltered
      exact compileWhere_isPlain hshown hfiltered
  change finishSelect none none { filtered with orderBy := [] } = .ok p at hp
  obtain ⟨reduced, hreduced, hq⟩ := bind_eq_ok.mp hq
  obtain ⟨r, hr, hreduced⟩ := bind_eq_ok.mp hreduced
  obtain rfl := Except.ok.inj hreduced
  obtain ⟨c, hvisible, hvalue, hwildcard, rfl⟩ := exists_of_distinctReduction hr
  refine ⟨c, ?_⟩
  obtain ⟨-, hp⟩ := finishSelect_plain (p := { filtered with orderBy := [] }) hplain.joins hp
  obtain ⟨hguard, hq⟩ := finishSelect_plain
    (p := { ({ filtered with orderBy := [] } : QueryPlan) with
      distinct := true, reduction := some ⟨.distinct c.name, filtered.outputMapping⟩ })
    hplain.joins hq
  have hreturns : QueryPlan.Returns c
      { filtered with joins := [], orderBy := [], offset := none, limit := none } :=
    { hplain with
      visible := hvisible, value := hvalue, wildcard := hwildcard, joins := rfl, orderBy := rfl
      offset := rfl, limit := rfl }
  exact .of_chooseStrategy hreturns (hguard rfl) hp hq

/-- **A grouped selection keeps its duplicates.** -/
theorem compileSelect_grouped (hgrouped : s.isGrouped [] = true) :
    compileSelect env compileSub { s with distinct := true } [] none none =
      compileSelect env compileSub { s with distinct := false } [] none none := by
  have hgrouped' : ∀ b, Select.isGrouped { s with distinct := b } [] = true := fun _ => hgrouped
  simp only [compileSelect, hgrouped', if_true]
  rfl

end

end RecordQuery
