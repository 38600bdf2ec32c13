import RecordQuery.Proofs.Compile.Agreement

set_option autoImplicit false

/-!
# Plans with conditions

The condition of a selection is taken apart into its conjuncts. Those that the store can decide are
added to the plan one after the other, each to the condition on the bins or to the one on the key.
Both conditions together stand for all conjuncts.

## Main definitions

* `TablePlan.holdsIn` — whether a record satisfies both conditions of a plan.
* `TablePlan.verdict` — the decision of the programs of both conditions.
* `TablePlan.isKnown` — the store can run both programs.

## Main results

* `Decides.conjuncts` — a condition is true if all of its conjuncts are.
* `TablePlan.holdsIn_foldl_addNative` — a plan with several more conditions.
* `TablePlan.verdict_eq` — the programs of a plan decide its conditions.
* `compileMain_cases` — what becomes of the condition on the main table.
-/

namespace RecordQuery

/-! ## Conjuncts -/

/-- **Induction along the conjuncts of a condition**: the sides of a conjunction, what stands in
parentheses, and a condition that is its only conjunct. -/
@[elab_as_elim]
theorem Expr.conjuncts_induction {motive : Expr → Prop}
    (and : ∀ l r, motive l → motive r → motive (.binary .and l r))
    (paren : ∀ e, motive e → motive (.paren e))
    (single : ∀ e : Expr, (∀ l r, e ≠ .binary .and l r) → (∀ d, e ≠ .paren d) →
      e.conjuncts = [e] → motive e)
    (e : Expr) : motive e := by
  induction e using Expr.conjuncts.induct with
  | case1 l r ihl ihr => exact and l r ihl ihr
  | case2 e ih => exact paren e ih
  | case3 e hand hparen =>
    exact single e hand hparen (by rw [Expr.conjuncts] <;> assumption)

/-- **A condition is true if all of its conjuncts are.** The conjuncts are given together with what
decides them.

**Proof sketch.** Induction along the conjuncts (`Expr.conjuncts_induction`). A conjunction splits
what decides it into what decides its two sides. -/
lemma Decides.conjuncts {α : Type} {env : EvalEnv} {expr : α → Expr} {holds : α → Bool}
    (e : Expr) (parts : List α) (hparts : parts.map expr = e.conjuncts)
    (h : ∀ a ∈ parts, Decides (holds a) ((expr a).evalIn env)) :
    Decides (parts.all holds) (e.evalIn env) := by
  induction e using Expr.conjuncts_induction generalizing parts with
  | and l r ihl ihr =>
    rw [Expr.conjuncts] at hparts
    obtain ⟨left, right, rfl, hleft, hright⟩ := List.map_eq_append_iff.mp hparts
    rw [List.all_append]
    exact (ihl left hleft fun a ha => h a (by simp [ha])).and
      (ihr right hright fun a ha => h a (by simp [ha]))
  | paren e ih =>
    rw [Expr.conjuncts] at hparts
    rw [Expr.evalIn]
    exact ih parts hparts h
  | single e _ _ he =>
    rw [he] at hparts
    obtain ⟨a, rfl, rfl⟩ : ∃ a, parts = [a] ∧ expr a = e := by
      match parts, hparts with
      | [a], hparts => exact ⟨a, rfl, by simpa using hparts⟩
    simpa using h a (by simp)

/-- The parts of a conjunct are parts of the condition. -/
lemma Expr.parts_conjuncts (e : Expr) {c : Expr} (hc : c ∈ e.conjuncts) : c.parts ⊆ e.parts := by
  induction e using Expr.conjuncts_induction with
  | and l r ihl ihr =>
    rw [conjuncts] at hc
    intro s hs
    rw [parts, List.mem_cons, List.mem_append]
    rcases List.mem_append.mp hc with hc | hc
    · exact .inr (.inl (ihl hc hs))
    · exact .inr (.inr (ihr hc hs))
  | paren e ih =>
    rw [conjuncts] at hc
    rw [parts]
    exact List.subset_cons_of_subset _ (ih hc)
  | single e _ _ he =>
    rw [he, List.mem_singleton] at hc
    rw [hc]
    exact List.Subset.refl _

/-! ## Plans with more conditions -/

namespace TablePlan

variable {ρ : Resolution} {r : Record}

/-- Whether a record satisfies both conditions of a plan, given the values of the unknowns. A
condition that is missing is satisfied. -/
def holdsIn (ρ : Resolution) (r : Record) (p : TablePlan) : Bool :=
  p.condition.all (Condition.holdsIn ρ r) && p.keyCondition.all (KeyCondition.holdsIn ρ r.key.user)

/-- A plan with one more condition. -/
lemma holdsIn_addNative (p : TablePlan) (n : NativeCondition) :
    (p.addNative n).holdsIn ρ r = (p.holdsIn ρ r && n.holdsIn ρ r) := by
  cases n with
  | bins c =>
    cases hp : p.condition with
    | none => simp [addNative, addCondition, holdsIn, NativeCondition.holdsIn, hp, Bool.and_comm]
    | some d =>
      simp only [addNative, addCondition, holdsIn, NativeCondition.holdsIn, hp, Option.all_some,
        Condition.holdsIn, Condition.holdsAllIn, Bool.and_true]
      ac_rfl
  | key c =>
    cases hp : p.keyCondition with
    | none => simp [addNative, addKeyCondition, holdsIn, NativeCondition.holdsIn, hp]
    | some d =>
      simp only [addNative, addKeyCondition, holdsIn, NativeCondition.holdsIn, hp, Option.all_some,
        KeyCondition.holdsIn_and, Bool.and_assoc]

/-- **A plan with several more conditions** reads the records that satisfy all of them. -/
lemma holdsIn_foldl_addNative (p : TablePlan) (ns : List NativeCondition) :
    (ns.foldl addNative p).holdsIn ρ r =
      (p.holdsIn ρ r && ns.all (NativeCondition.holdsIn ρ r)) := by
  induction ns generalizing p with
  | nil => simp
  | cons n ns ih => rw [List.foldl_cons, ih, holdsIn_addNative, List.all_cons, Bool.and_assoc]

/-- The decision of the programs of both conditions on a record. -/
def verdict (p : TablePlan) (r : Record) : Except QueryError Bool := do
  let bins ← (Condition.programOf p.condition).run r
  match p.keyCondition with
  | none => return bins
  | some c => do
    let key ← (← c.program).run r
    return bins && key

end TablePlan

/-- Whether the store can run the program of a compiled condition. -/
def NativeCondition.isKnown : NativeCondition → Bool
  | bins c => c.isResolved
  | key c => c.isComparable

/-- Whether the store can run the programs of both conditions of a plan. -/
def TablePlan.isKnown (p : TablePlan) : Bool :=
  p.condition.all Condition.isResolved && p.keyCondition.all KeyCondition.isComparable

namespace TablePlan

/-- A plan with one more condition.

**Proof sketch.** A condition on bins stands beside those that were there, and none of them has an
unknown. Conditions on the key are joined, and their keys can still be compared
(`KeyCondition.isComparable_and`). -/
lemma isKnown_addNative {p : TablePlan} {n : NativeCondition} (hp : p.isKnown = true)
    (hn : n.isKnown = true) : (p.addNative n).isKnown = true := by
  simp only [isKnown, Bool.and_eq_true] at hp ⊢
  cases n with
  | bins c =>
    refine ⟨?_, hp.2⟩
    have hc : c.unresolved? = none := by
      simpa [NativeCondition.isKnown, Condition.isResolved] using hn
    cases hcond : p.condition with
    | none => simpa [addNative, addCondition, hcond, NativeCondition.isKnown] using hn
    | some d =>
      have hd : d.unresolved? = none := by simpa [hcond, Condition.isResolved] using hp.1
      simp [addNative, addCondition, hcond, Condition.isResolved, Condition.unresolved?,
        Condition.unresolvedIn?, hc, hd]
  | key c =>
    refine ⟨hp.1, ?_⟩
    cases hcond : p.keyCondition with
    | none => simpa [addNative, addKeyCondition, hcond, NativeCondition.isKnown] using hn
    | some d =>
      have hd : d.isComparable = true := by simpa [hcond] using hp.2
      simpa [addNative, addKeyCondition, hcond] using KeyCondition.isComparable_and hd hn

/-- A plan with several more conditions. -/
lemma isKnown_foldl_addNative {p : TablePlan} {ns : List NativeCondition} (hp : p.isKnown = true)
    (hns : ∀ n ∈ ns, n.isKnown = true) : (ns.foldl addNative p).isKnown = true := by
  induction ns generalizing p with
  | nil => exact hp
  | cons n ns ih =>
    exact ih (isKnown_addNative hp (hns n (by simp))) fun m hm => hns m (by simp [hm])

/-- The program of the condition on the bins decides it. -/
lemma run_programOf_condition (ρ : Resolution) {c : Option Condition}
    (h : c.all Condition.isResolved = true) (r : Record) :
    (Condition.programOf c).run r = .ok (c.all (Condition.holdsIn ρ r)) := by
  cases c with
  | none => rfl
  | some c =>
    rw [Option.all_some, Condition.holdsIn_eq_holds h]
    exact Condition.run_program r h

/-- The programs of a plan decide its conditions. -/
lemma verdict_eq (ρ : Resolution) {p : TablePlan} (h : p.isKnown = true) (r : Record) :
    p.verdict r = .ok (p.holdsIn ρ r) := by
  simp only [isKnown, Bool.and_eq_true] at h
  have hrun := run_programOf_condition ρ h.1 r
  cases hk : p.keyCondition with
  | none => simp [verdict, hrun, hk, holdsIn, pure, Except.pure]
  | some c =>
    have hcmp : c.isComparable = true := by simpa [hk] using h.2
    obtain ⟨q, hq, -, hqrun⟩ := KeyCondition.program_run ρ hcmp
    simp [verdict, hrun, hk, holdsIn, hq, hqrun, pure, Except.pure]

end TablePlan

/-- Putting conditions to a table changes nothing but its conditions. -/
lemma TablePlan.foldl_addNative_eq (ns : List NativeCondition) (t : TablePlan) :
    ns.foldl addNative t = { t with
      condition := (ns.foldl addNative t).condition
      keyCondition := (ns.foldl addNative t).keyCondition } := by
  induction ns generalizing t with
  | nil => rfl
  | cons n ns ih =>
    rw [List.foldl_cons, ih]
    cases n <;> rfl

/-! ## What becomes of a condition -/

section

variable {compileSub : Query → Except QueryError QueryNode} {scope : Scope} {target : Nat}

/-- The conditions that become of conjuncts, if the store can decide all of them.

**Proof sketch.** Induction on the conjuncts. Each of them was found, and what was found has one of
the known shapes (`compileConjunct_of`). -/
lemma compileConjuncts_of {es : List Expr} {ns : List (Option NativeCondition)}
    {slots last : List SubquerySlot}
    (h : (compileConjuncts compileSub scope target es).run slots = .ok (ns, last))
    (hns : ns.all Option.isSome = true) :
    ∃ parts : List (Expr × NativeCondition), parts.map Prod.fst = es ∧
      ns.filterMap id = parts.map Prod.snd ∧
      ∀ a ∈ parts, NativeCondition.Of scope target a.1 a.2 := by
  induction es generalizing ns slots with
  | nil =>
    simp only [compileConjuncts, SlotM.run_pure_eq_ok] at h
    exact ⟨[], rfl, by rw [← h.1]; rfl, by simp⟩
  | cons e es ih =>
    simp only [compileConjuncts, SlotM.run_bind_eq_ok, SlotM.run_pure_eq_ok] at h
    obtain ⟨n?, mid, he, ns', mid', hes, rfl, rfl⟩ := h
    rw [List.all_cons, Bool.and_eq_true] at hns
    obtain ⟨n, rfl⟩ := Option.isSome_iff_exists.mp hns.1
    obtain ⟨parts, hfst, hsnd, hof⟩ := ih hes hns.2
    refine ⟨(e, n) :: parts, by rw [List.map_cons, hfst], ?_, fun a ha => ?_⟩
    · change n :: ns'.filterMap id = n :: parts.map Prod.snd
      rw [hsnd]
    · rcases List.mem_cons.mp ha with rfl | ha
      · exact compileConjunct_of e true he
      · exact hof a ha

/-- Only conjuncts go to tables. -/
lemma mem_of_routeConjuncts {es : List Expr} {routed : List (Nat × Expr)}
    (h : routeConjuncts scope es = .ok routed) {e : Expr} {table : Nat}
    (he : e ∈ (routed.filter (fun r => r.1 == table)).map Prod.snd) : e ∈ es := by
  induction es generalizing routed with
  | nil =>
    obtain rfl := Outcome.pure_eq_ok.mp h
    cases he
  | cons d es ih =>
    simp only [routeConjuncts, Outcome.bind_eq_ok, Outcome.pure_eq_ok] at h
    obtain ⟨other, -, rest, hrest, rfl⟩ := h
    rw [List.filter_cons] at he
    split at he
    · rcases List.mem_cons.mp he with rfl | he
      · exact List.mem_cons_self
      · exact List.mem_cons_of_mem d (ih hrest he)
    · exact List.mem_cons_of_mem d (ih hrest he)

/-- **What becomes of the condition on the main table**: the store decides each of its conjuncts, or
the whole of it is decided row by row.

**Proof sketch.** The definition is read off: where every conjunct was found the conditions are
added (`compileConjuncts_of`), which needs a plan that reads a set, since over a query nothing is
found. Otherwise a condition with a query is refused, and any other becomes the row filter. -/
theorem compileMain_cases {p p' : QueryPlan} {conjuncts : List Expr} {whole : Expr}
    (h : compileMain compileSub scope p conjuncts whole = .ok p') :
    (p.source = none ∧ ∃ (parts : List (Expr × NativeCondition)) (slots : List SubquerySlot),
      parts.map Prod.fst = conjuncts ∧ (∀ a ∈ parts, NativeCondition.Of scope 0 a.1 a.2) ∧
      p' = { p with
        toTablePlan := (parts.map Prod.snd).foldl TablePlan.addNative p.toTablePlan
        subqueries := slots
        whereClause := if conjuncts.any Expr.hasQuery then p.whereClause else some whole }) ∨
    (conjuncts.any Expr.hasQuery = false ∧ p' = { p with rowFilter := some whole }) := by
  simp only [compileMain, Outcome.bind_eq_ok] at h
  obtain ⟨⟨natives, slots⟩, hnatives, h⟩ := h
  unfold mainConditions at hnatives
  split at h
  · rename_i hall
    left
    rw [Outcome.pure_eq_ok] at h
    split at hnatives
    · obtain ⟨rfl, rfl⟩ := Prod.mk.inj (Except.ok.inj hnatives)
      cases hall
    · rename_i hsource
      obtain ⟨parts, hfst, hsnd, hof⟩ := compileConjuncts_of hnatives hall
      exact ⟨by simpa using hsource, parts, slots, hfst, hof, by rw [← h, hsnd]⟩
  · right
    split at h
    · simp at h
    · rename_i hquery
      rw [Outcome.pure_eq_ok] at h
      exact ⟨by simpa using hquery, h.symm⟩

end

end RecordQuery
