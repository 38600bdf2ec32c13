import RecordQuery.Proofs.Compile.Catalog

set_option autoImplicit false

/-!
# How deeply queries are nested

The compilation of a query goes along how deeply queries are nested in it. A greater bound than
needed changes nothing: whatever compiles within a bound compiles to the same plan within a greater
one.

## Main results

* `follows_compileSelect_eq` — if the queries inside a selection compile to the same plans, so does
  the selection.
* `compileBelow_mono` — a query compiles to the same plan within a greater bound.
-/

namespace RecordQuery

open Outcome

/-! ## Equal plans -/

/-- Steps that return the same as others do. -/
lemma Outcome.Follows.bind_eq {ε α β : Type} {x y : Except ε α} {f g : α → Except ε β}
    (h : Follows Eq x y) (hf : ∀ a, Follows Eq (f a) (g a)) : Follows Eq (x >>= f) (y >>= g) :=
  h.bind fun a _ hab => hab ▸ hf a

mutual

/-- Queries with the same selections are the same. -/
theorem QueryNode.Related.eq : {n n' : QueryNode} → n.Related Eq n' → n = n'
  | _, _, .plan h => congrArg QueryNode.plan h.self
  | _, _, .chain h => congrArg QueryNode.chain h.eq

/-- Set operations with the same selections are the same. -/
theorem ChainPlan.Related.eq : {c c' : ChainPlan} → c.Related Eq c' → c = c'
  | _, _, .intro _ _ _ h hls => by rw [h.eq, hls.eq]

/-- Links with the same selections are the same. -/
theorem LinksRelated.eq : {ls ls' : List ChainLink} → LinksRelated Eq ls ls' → ls = ls'
  | _, _, .nil => rfl
  | _, _, .cons h hls => by rw [h.eq, hls.eq]

end

/-- Sub-queries with the same selections are the same. -/
lemma SlotsRelated.eq {ss ss' : List SubquerySlot} (h : SlotsRelated Eq ss ss') : ss = ss' := by
  induction ss generalizing ss' with
  | nil =>
    cases h
    rfl
  | cons s ss ih =>
    cases h with
    | cons hn hs => rw [hn.eq, ih hs]

mutual

/-- A query is related to itself by its selections. -/
theorem QueryNode.related_eq : (n : QueryNode) → n.Related Eq n
  | .plan p => .plan (QueryPlan.related_eq p)
  | .chain c => .chain (ChainPlan.related_eq c)

/-- A selection is related to itself. -/
theorem QueryPlan.related_eq : (p : QueryPlan) → p.Related Eq p
  | ⟨_, _, _, _, _, _, _, _, _, _, _, source, subqueries⟩ =>
    .intro rfl (sourceRelated_eq source) (slotsRelated_eq subqueries)

/-- A source is related to itself. -/
theorem sourceRelated_eq : (s : Option QueryNode) → SourceRelated Eq s s
  | none => .none
  | some n => .some (QueryNode.related_eq n)

/-- Sub-queries are related to themselves. -/
theorem slotsRelated_eq : (ss : List SubquerySlot) → SlotsRelated Eq ss ss
  | [] => .nil
  | ⟨n, _⟩ :: ss => .cons (QueryNode.related_eq n) (slotsRelated_eq ss)

/-- A set operation is related to itself. -/
theorem ChainPlan.related_eq : (c : ChainPlan) → c.Related Eq c
  | ⟨head, links, orderBy, offset, limit⟩ =>
    .intro orderBy offset limit (QueryNode.related_eq head) (linksRelated_eq links)

/-- Links are related to themselves. -/
theorem linksRelated_eq : (ls : List ChainLink) → LinksRelated Eq ls ls
  | [] => .nil
  | ⟨n, _⟩ :: ls => .cons (QueryNode.related_eq n) (linksRelated_eq ls)

end

/-! ## Selections -/

section

variable {env : CompileEnv} {compileSub compileSub' : Query → Except QueryError QueryNode}
  {scope : Scope} (hsub : ∀ q, Follows Eq (compileSub q) (compileSub' q))

include hsub

/-- Equal plans of the queries inside are related. -/
lemma follows_related (q : Query) :
    Follows (QueryNode.Related Eq) (compileSub q) (compileSub' q) :=
  (hsub q).mono fun n _ h => h ▸ n.related_eq

/-- What the store can decide of the conjuncts on the main table. -/
lemma follows_mainConditions_eq (p : QueryPlan) (conjuncts : List Expr) :
    Follows Eq (mainConditions compileSub scope p conjuncts)
      (mainConditions compileSub' scope p conjuncts) := by
  unfold mainConditions
  split
  · exact .ok rfl
  · exact (SlotM.follows_compileConjuncts (follows_related hsub) conjuncts [] [] .nil).mono
      fun a b ⟨hnatives, hslots⟩ => Prod.ext hnatives hslots.eq

/-- The plan of a joined table with a conjunct. -/
lemma follows_compileJoined_eq (table : Nat) (qualifier : String) (p : TablePlan) (e : Expr) :
    Follows Eq (compileJoined compileSub scope table qualifier p e)
      (compileJoined compileSub' scope table qualifier p e) := by
  have hconjunct : SlotM.Follows Eq (compileConjunct compileSub scope table true e)
      (compileConjunct compileSub' scope table true e) :=
    SlotM.follows_compileConjunct (follows_related hsub) true e
  unfold compileJoined
  split
  · exact .throw _
  · exact ((hconjunct [] [] .nil).map (f := Prod.fst) (g := Prod.fst) fun a b h => h.1).bind_eq
      fun n => .of_eq _

/-- The plan of a joined table with several conjuncts. -/
lemma follows_compileJoinedAll_eq (table : Nat) (qualifier : String) (p : TablePlan)
    (es : List Expr) :
    Follows Eq (compileJoinedAll compileSub scope table qualifier p es)
      (compileJoinedAll compileSub' scope table qualifier p es) := by
  induction es generalizing p with
  | nil => exact .pure rfl
  | cons e es ih => exact (follows_compileJoined_eq hsub table qualifier p e).bind_eq ih

/-- The joined tables with the conjuncts that go to them. -/
lemma follows_compileJoins_eq (routed : List (Nat × Expr)) (table : Nat) (js : List JoinSpec) :
    Follows Eq (compileJoins compileSub scope routed table js)
      (compileJoins compileSub' scope routed table js) := by
  induction js generalizing table with
  | nil => exact .pure rfl
  | cons j js ih =>
    exact (follows_compileJoinedAll_eq hsub table j.qualifier j.plan _).bind_eq fun plan =>
      (ih (table + 1)).bind_eq fun rest => .pure rfl

/-- The plan with a condition.

**Proof sketch.** The conjuncts are routed without compiling any query. The conditions of the main
table and of the joined ones are the same by `follows_mainConditions_eq` and
`follows_compileJoins_eq`. -/
lemma follows_compileWhere_eq (p : QueryPlan) (condition : Expr) :
    Follows Eq (compileWhere compileSub scope p condition)
      (compileWhere compileSub' scope p condition) := by
  have hjoined : ∀ (routed : List (Nat × Expr)) (q : QueryPlan), Follows Eq
      (do
        let joins ← compileJoins compileSub scope routed 1 q.joins
        return { q with joins })
      (do
        let joins ← compileJoins compileSub' scope routed 1 q.joins
        return { q with joins }) := fun routed q =>
    (follows_compileJoins_eq hsub routed 1 q.joins).bind_eq fun joins => .pure rfl
  have hmain : ∀ (conjuncts : List Expr) (whole : Expr), Follows Eq
      (compileMain compileSub scope p conjuncts whole)
      (compileMain compileSub' scope p conjuncts whole) := fun conjuncts whole =>
    (follows_mainConditions_eq hsub p conjuncts).bind_eq fun a => .of_eq _
  unfold compileWhere
  refine (Follows.of_eq _).bind_eq fun routed => ?_
  simp only
  split
  · exact (hmain _ _).bind_eq (hjoined routed)
  · exact hjoined routed p

/-- **The plan of a selection** is the same if those of the queries inside it are.

**Proof sketch.** Queries occur in the source and in the condition only, and for both the plans are
the same (`hsource`, `hwhere`); every other step of the compilation does not know how queries are
compiled. -/
theorem follows_compileSelect_eq (s : Select) (orderBy : List OrderItem)
    (limit offset : Option Expr) :
    Follows Eq (compileSelect env compileSub s orderBy limit offset)
      (compileSelect env compileSub' s orderBy limit offset) := by
  have hsource : Follows Eq (compileSource env compileSub s.source)
      (compileSource env compileSub' s.source) := by
    cases s.source with
    | named name rename => exact .pure rfl
    | derived q rename => exact (hsub q).bind_eq fun n => .pure rfl
  have hwhere : ∀ (scope : Scope) (p : QueryPlan),
      Follows Eq (p.withOption (compileWhere compileSub scope) s.condition)
        (p.withOption (compileWhere compileSub' scope) s.condition) := by
    intro scope p
    cases s.condition with
    | none => exact .ok rfl
    | some e => exact follows_compileWhere_eq hsub p e
  unfold compileSelect
  refine hsource.bind_eq fun p => (Follows.of_eq _).bind_eq fun joined => ?_
  simp only
  split
  · exact .error _
  refine (Follows.of_eq _).bind_eq fun groups => ?_
  split
  · exact .error _
  refine (Follows.of_eq _).bind_eq fun q => (hwhere joined.2 q).bind_eq fun filtered => ?_
  exact .of_eq _

/-- The plan of a body without order and limits, and its parts. -/
theorem follows_compileBody_eq (b : QueryBody) :
    Follows Eq (compileBody env compileSub b) (compileBody env compileSub' b) ∧
      Follows Eq (compileParts env compileSub b) (compileParts env compileSub' b) := by
  cases b with
  | select s =>
    simp only [compileBody, compileParts]
    have hselect : Follows Eq (compileSelect env compileSub s [] none none)
        (compileSelect env compileSub' s [] none none) :=
      follows_compileSelect_eq hsub s [] none none
    exact ⟨hselect.bind_eq fun p => .pure rfl, hselect.bind_eq fun p => .pure rfl⟩
  | combine op l r =>
    simp only [compileBody, compileParts]
    have hleft := (follows_compileBody_eq l).2
    have hright := (follows_compileBody_eq r).1
    exact ⟨hleft.bind_eq fun parts => hright.bind_eq fun last => .of_eq _,
      hleft.bind_eq fun parts => hright.bind_eq fun node => .pure rfl⟩

end

/-! ## Queries -/

/-- **A query compiles to the same plan within a greater bound.** -/
theorem compileBelow_mono (env : CompileEnv) {m n : Nat} (h : m ≤ n) (q : Query) :
    Follows Eq (compileBelow env m q) (compileBelow env n q) := by
  induction m generalizing n q with
  | zero => exact .error _
  | succ m ih =>
    obtain ⟨k, rfl⟩ : ∃ k, n = k + 1 := ⟨n - 1, by omega⟩
    have hsub : ∀ q, Follows Eq (compileBelow env m q) (compileBelow env k q) :=
      fun q => ih (by omega) q
    simp only [compileBelow, compileWith]
    split
    · exact (follows_compileSelect_eq hsub _ _ _ _).bind_eq fun p => .pure rfl
    · refine (follows_compileBody_eq hsub _).2.bind_eq fun parts => ?_
      exact (follows_compileBody_eq hsub _).1.bind_eq fun last => .of_eq _

end RecordQuery
