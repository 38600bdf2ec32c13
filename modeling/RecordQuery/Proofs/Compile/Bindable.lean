import RecordQuery.Compile.Statement
import RecordQuery.Proofs.Compile.Parameters
import RecordQuery.Proofs.Compile.Unknowns

set_option autoImplicit false

/-!
# Compiled queries

Every selection of a compiled query waits for parameters, for its own sub-queries and, in its joined
tables, for the rows that these are joined to, however deeply it is nested; the parameters are those
that were written. What is done after the conditions are compiled, such as adding columns, an order
or a grouping, changes none of that.

## Main results

* `compileSelect_areBindable`, `compileBelow_isBindable`, `compileSelection_areBindable` — what
  compiled selections, queries, and the selections of updates and deletions wait for. -/

namespace RecordQuery

open Outcome

variable {env : CompileEnv} {compileSub : Query → Except QueryError QueryNode} {ok : Nat → Bool}
  {N : QueryNode → Prop}

/-! ## Steps that leave conditions alone -/

namespace QueryPlan

variable {p q : QueryPlan}

/-- **A plan that reads the same** waits for the same. -/
lemma IsCompiled.of_sameReading (hp : p.IsCompiled ok) (h : p.SameReading q) : q.IsCompiled ok := by
  have hslots : q.subqueries = p.subqueries := by rw [h.rest]
  refine ⟨?_, fun k hk => ?_⟩
  · have htable : TablePlan.SameReading _ _ := h.table
    unfold TablePlan.SameReading at htable
    rw [hslots, htable]
    exact hp.table
  · have hjoins := h.joins
    obtain ⟨i, hi, rfl⟩ := List.mem_iff_getElem.mp hk
    have hlength := hjoins.length_eq
    have hjoin := hjoins.get (by omega) hi
    have hplan := hjoin.plan
    unfold TablePlan.SameReading at hplan
    change TablePlan.isWithin _ (q.joins.get ⟨i, hi⟩).plan = true
    rw [hplan]
    exact hp.joins _ (List.get_mem ..)

/-- What is true of the queries inside a plan is true of them. -/
lemma Inside.of_sameReading (hp : p.Inside N) (h : p.SameReading q) : q.Inside N := by
  have hsource : q.source = p.source := by rw [h.rest]
  have hslots : q.subqueries = p.subqueries := by rw [h.rest]
  exact ⟨hsource ▸ hp.source, hslots ▸ hp.subqueries⟩

end QueryPlan

/-! ## Selections -/

/-- The plan that returns nothing of its source yet has no conditions and no sub-queries. -/
lemma compileSource_isCompiled {table : TableExpr} {p : QueryPlan}
    (hsub : CompilesTo compileSub ok N) (htable : ∀ i ∈ table.paramNumbers, ok i = true)
    (h : compileSource env compileSub table = .ok p) :
    p.IsCompiled ok ∧ p.Inside N ∧ p.subqueries = [] := by
  cases table with
  | named name rename =>
    obtain rfl := pure_eq_ok.mp h
    exact ⟨⟨rfl, fun j hj => absurd hj List.not_mem_nil⟩,
      ⟨fun n hn => (by cases hn), fun s hs => absurd hs List.not_mem_nil⟩, rfl⟩
  | derived q rename =>
    simp only [compileSource, bind_eq_ok, pure_eq_ok] at h
    obtain ⟨n, hn, rfl⟩ := h
    refine ⟨⟨rfl, fun j hj => absurd hj List.not_mem_nil⟩,
      ⟨fun m hm => ?_, fun s hs => absurd hs List.not_mem_nil⟩, rfl⟩
    obtain rfl := Option.some.inj hm
    exact hsub q n htable hn

/-- The plans of joined tables have no conditions at first.

**Proof sketch.** Induction on the joins. The compilation of one join fails in all cases but one,
and there the plan of the table is the one without conditions. -/
lemma compileJoinList_isWithin {scope : Scope} {js : List Join} {found : List JoinSpec × Scope}
    {u : Unknowns} (h : compileJoinList env scope js = .ok found) :
    ∀ j ∈ found.1, j.plan.isWithin u = true := by
  induction js generalizing scope found with
  | nil =>
    obtain rfl := pure_eq_ok.mp h
    exact fun j hj => absurd hj List.not_mem_nil
  | cons j js ih =>
    simp only [compileJoinList, bind_eq_ok] at h
    obtain ⟨⟨spec, next⟩, hspec, rest, hrest, h⟩ := h
    obtain rfl := pure_eq_ok.mp h
    intro k hk
    rcases List.mem_cons.mp hk with rfl | hk
    · unfold compileJoin at hspec
      split at hspec
      · cases hspec
      · simp only at hspec
        split at hspec
        · simp at hspec
        · simp only [bind_eq_ok, pure_eq_ok] at hspec
          obtain ⟨_, -, heq⟩ := hspec
          obtain ⟨rfl, -⟩ := Prod.mk.inj heq
          rfl
    · exact ih hrest k hk

/-- Strategies for joined tables change no conditions. -/
lemma chooseJoinStrategies_isWithin {js ks : List JoinSpec} {u : Unknowns}
    (hjs : ∀ j ∈ js, j.plan.isWithin u = true) (h : chooseJoinStrategies js = .ok ks) :
    ∀ k ∈ ks, k.plan.isWithin u = true := by
  induction js generalizing ks with
  | nil =>
    obtain rfl := pure_eq_ok.mp h
    exact fun k hk => absurd hk List.not_mem_nil
  | cons j js ih =>
    simp only [chooseJoinStrategies, bind_eq_ok, pure_eq_ok] at h
    obtain ⟨plan, hplan, rest, hrest, rfl⟩ := h
    intro k hk
    rcases List.mem_cons.mp hk with rfl | hk
    · rw [TablePlan.isWithin_chooseStrategy hplan]
      exact hjs j (by simp)
    · exact ih (fun i hi => hjs i (by simp [hi])) hrest k hk

/-- The reduction and the limits of a plan, and its strategies, change no conditions.

**Proof sketch.** Neither the reduction nor the limits touch the plans of the tables, and of the
strategies only those of joined tables do (`chooseJoinStrategies_isWithin`). -/
lemma finishSelect_isCompiled {grouping : Option (List String)} {distinct : Bool}
    {limit offset : Option Expr} {p m q : QueryPlan} (hp : p.IsCompiled ok) (hinside : p.Inside N)
    (hm : addReduction grouping distinct p = .ok m) (hq : finishSelect limit offset m = .ok q) :
    q.IsCompiled ok ∧ q.Inside N := by
  have hreduced : m.IsCompiled ok ∧ m.Inside N := by
    unfold addReduction at hm
    split at hm
    · obtain rfl := Except.ok.inj hm
      exact ⟨⟨hp.table, hp.joins⟩, ⟨hinside.source, hinside.subqueries⟩⟩
    · split at hm
      · obtain ⟨r, -, hm⟩ := bind_eq_ok.mp hm
        obtain rfl := Except.ok.inj hm
        exact ⟨⟨hp.table, hp.joins⟩, ⟨hinside.source, hinside.subqueries⟩⟩
      · obtain rfl := Except.ok.inj hm
        exact ⟨hp, hinside⟩
  obtain ⟨hcompiled, hinside⟩ := hreduced
  unfold finishSelect at hq
  split at hq
  · simp at hq
  obtain ⟨o, -, hq⟩ := bind_eq_ok.mp hq
  obtain ⟨l, -, hq⟩ := bind_eq_ok.mp hq
  obtain ⟨joins, hjoins, hq⟩ := bind_eq_ok.mp hq
  obtain ⟨s, rfl⟩ := QueryPlan.eq_of_chooseStrategy hq
  exact ⟨⟨hcompiled.table, chooseJoinStrategies_isWithin hcompiled.joins hjoins⟩,
    ⟨hinside.source, hinside.subqueries⟩⟩

/-- **What the conditions of a compiled selection wait for**, and what is true of the queries inside
it.

**Proof sketch.** The conditions and the sub-queries come in with `compileWhere`; the steps before
and after it keep what conditions there are. -/
theorem compileSelect_isCompiled {s : Select} {orderBy : List OrderItem}
    {limit offset : Option Expr} {p : QueryPlan} (hsub : CompilesTo compileSub ok N)
    (hs : ∀ i ∈ s.paramNumbers, ok i = true)
    (h : compileSelect env compileSub s orderBy limit offset = .ok p) :
    p.IsCompiled ok ∧ p.Inside N := by
  unfold compileSelect at h
  obtain ⟨source, hsource, h⟩ := bind_eq_ok.mp h
  obtain ⟨⟨joins, scope⟩, hjoins, h⟩ := bind_eq_ok.mp h
  simp only at h
  split at h
  · simp at h
  obtain ⟨groups, -, h⟩ := bind_eq_ok.mp h
  split at h
  · simp at h
  obtain ⟨carried, hcarried, h⟩ := bind_eq_ok.mp h
  obtain ⟨filtered, hfiltered, h⟩ := bind_eq_ok.mp h
  obtain ⟨grouped, hgrouped, h⟩ := bind_eq_ok.mp h
  obtain ⟨⟨order, ordered⟩, hordered, h⟩ := bind_eq_ok.mp h
  obtain ⟨reduced, hreduced, h⟩ := bind_eq_ok.mp h
  -- up to the condition there are neither conditions nor sub-queries
  obtain ⟨hcompiled, hinside, hslots⟩ :=
    compileSource_isCompiled hsub (fun i hi => hs i (by simp [Select.paramNumbers_eq, hi])) hsource
  have hjoined : QueryPlan.IsCompiled ok { source with joins } :=
    ⟨hcompiled.table, compileJoinList_isWithin hjoins⟩
  have hjoinedInside : QueryPlan.Inside N { source with joins } :=
    ⟨hinside.source, hinside.subqueries⟩
  have hshown := (addItems_grows (A := True) (E := fun _ => True) (fun _ => trivial)
    (fun _ _ _ => trivial) hcarried).sameReading
  -- the condition brings in all that there is to wait for
  have hfilteredBoth : filtered.IsCompiled ok ∧ filtered.Inside N := by
    have hcarriedCompiled := hjoined.of_sameReading hshown
    have hcarriedInside := hjoinedInside.of_sameReading hshown
    cases hcondition : s.condition with
    | none =>
      rw [hcondition] at hfiltered
      obtain rfl := Except.ok.inj hfiltered
      exact ⟨hcarriedCompiled, hcarriedInside⟩
    | some e =>
      rw [hcondition] at hfiltered
      have hcarriedSlots : carried.subqueries = [] := by
        rw [hshown.rest]
        exact hslots
      refine compileWhere_isCompiled hsub (fun i hi => hs i ?_) hcarriedCompiled hcarriedInside
        hcarriedSlots hfiltered
      simp [Select.paramNumbers_eq, hcondition, paramNumbersOption, hi]
  -- the rest leaves it as it is
  have hgroupedBoth : grouped.IsCompiled ok ∧ grouped.Inside N := by
    obtain ⟨hfilteredCompiled, hfilteredInside⟩ := hfilteredBoth
    cases hhaving : s.having with
    | none =>
      rw [hhaving] at hgrouped
      obtain rfl := Except.ok.inj hgrouped
      exact ⟨hfilteredCompiled, hfilteredInside⟩
    | some e =>
      rw [hhaving] at hgrouped
      obtain ⟨m, hm, rfl⟩ := addHaving_grows (A := True) (E := fun _ => True) hgrouped
      have hm' := hfilteredCompiled.of_sameReading hm.sameReading
      have hmInside := hfilteredInside.of_sameReading hm.sameReading
      exact ⟨⟨hm'.table, hm'.joins⟩, ⟨hmInside.source, hmInside.subqueries⟩⟩
  have horderedSame := (planOrder_grows (A := True) (E := fun _ => True) hordered).sameReading
  have horderedCompiled := hgroupedBoth.1.of_sameReading horderedSame
  have horderedInside := hgroupedBoth.2.of_sameReading horderedSame
  exact finishSelect_isCompiled (p := { ordered with orderBy := order })
    ⟨horderedCompiled.table, horderedCompiled.joins⟩
    ⟨horderedInside.source, horderedInside.subqueries⟩ hreduced h

/-- **What a compiled selection waits for**, and all queries inside it. -/
theorem compileSelect_areBindable {s : Select} {orderBy : List OrderItem}
    {limit offset : Option Expr} {p : QueryPlan}
    (hsub : CompilesTo compileSub ok (QueryNode.IsBindable ok))
    (hs : ∀ i ∈ s.paramNumbers, ok i = true)
    (horderBy : ∀ i ∈ paramNumbersOrder orderBy, ok i = true)
    (hlimit : ∀ i ∈ paramNumbersOption limit, ok i = true)
    (hoffset : ∀ i ∈ paramNumbersOption offset, ok i = true)
    (h : compileSelect env compileSub s orderBy limit offset = .ok p) : p.AreBindable ok := by
  obtain ⟨hcompiled, hinside⟩ := compileSelect_isCompiled hsub hs h
  refine .intro ⟨hcompiled, compileSelect_isNumbered hs horderBy hlimit hoffset h⟩ ?_
    (.of_forall hinside.subqueries)
  cases hsource : p.source with
  | none => exact .none
  | some n => exact .some (hinside.source n hsource)

/-- The same without order and limits. -/
lemma compileSelect_plain {s : Select} {p : QueryPlan}
    (hsub : CompilesTo compileSub ok (QueryNode.IsBindable ok))
    (hs : ∀ i ∈ s.paramNumbers, ok i = true)
    (h : compileSelect env compileSub s [] none none = .ok p) : p.AreBindable ok :=
  compileSelect_areBindable hsub hs (fun _ hi => absurd hi List.not_mem_nil)
    (fun _ hi => absurd hi List.not_mem_nil) (fun _ hi => absurd hi List.not_mem_nil) h

/-! ## Queries -/

/-- The chain of compiled queries. -/
lemma makeChain_isBindable {parts : QueryNode × List ChainLink} {op : SetOperator}
    {last : QueryNode} {c : ChainPlan} (hhead : parts.1.IsBindable ok)
    (hlinks : LinksAll (QueryPlan.IsBindable ok) (ChainPlan.IsNumbered ok) parts.2)
    (hlast : last.IsBindable ok) (h : makeChain parts op last = .ok c) :
    c.head.IsBindable ok ∧
      LinksAll (QueryPlan.IsBindable ok) (ChainPlan.IsNumbered ok) c.links := by
  simp only [makeChain, bind_eq_ok, pure_eq_ok] at h
  obtain ⟨_, -, rfl⟩ := h
  exact ⟨hhead, hlinks.append (.cons hlast .nil)⟩

mutual

/-- The plan of a body without order and limits. -/
theorem compileBody_isBindable (hsub : CompilesTo compileSub ok (QueryNode.IsBindable ok)) :
    (b : QueryBody) → (∀ i ∈ b.paramNumbers, ok i = true) → (n : QueryNode) →
      compileBody env compileSub b = .ok n → n.IsBindable ok
  | .select s, hs, n, h => by
    simp only [compileBody, bind_eq_ok, pure_eq_ok] at h
    obtain ⟨p, hp, rfl⟩ := h
    exact .plan (compileSelect_plain hsub hs hp)
  | .combine op l r, hs, n, h => by
    rw [QueryBody.paramNumbers, List.forall_mem_append] at hs
    simp only [compileBody, bind_eq_ok, pure_eq_ok] at h
    obtain ⟨parts, hparts, last, hlast, ⟨head, links, orderBy, offset, limit⟩, hc, rfl⟩ := h
    obtain ⟨hhead, hlinks⟩ := compileParts_isBindable hsub l hs.1 parts hparts
    have hlastBindable := compileBody_isBindable hsub r hs.2 last hlast
    obtain ⟨hhead', hlinks'⟩ := makeChain_isBindable hhead hlinks hlastBindable hc
    simp only [makeChain, bind_eq_ok, pure_eq_ok] at hc
    obtain ⟨_, -, hc⟩ := hc
    cases hc
    exact .chain (.intro ⟨fun o ho => absurd ho List.not_mem_nil, .none, .none⟩ hhead' hlinks')

/-- The first selection of a body and what is put to it. -/
theorem compileParts_isBindable (hsub : CompilesTo compileSub ok (QueryNode.IsBindable ok)) :
    (b : QueryBody) → (∀ i ∈ b.paramNumbers, ok i = true) →
      (parts : QueryNode × List ChainLink) → compileParts env compileSub b = .ok parts →
      parts.1.IsBindable ok ∧
        LinksAll (QueryPlan.IsBindable ok) (ChainPlan.IsNumbered ok) parts.2
  | .select s, hs, parts, h => by
    simp only [compileParts, bind_eq_ok, pure_eq_ok] at h
    obtain ⟨p, hp, rfl⟩ := h
    exact ⟨.plan (compileSelect_plain hsub hs hp), .nil⟩
  | .combine op l r, hs, parts, h => by
    rw [QueryBody.paramNumbers, List.forall_mem_append] at hs
    simp only [compileParts, bind_eq_ok, pure_eq_ok] at h
    obtain ⟨⟨head, links⟩, hparts, node, hnode, rfl⟩ := h
    obtain ⟨hhead, hlinks⟩ := compileParts_isBindable hsub l hs.1 _ hparts
    exact ⟨hhead, hlinks.append (.cons (compileBody_isBindable hsub r hs.2 node hnode) .nil)⟩

end

/-- The plan of a query, if those of the queries inside it are as they should.

**Proof sketch.** A selection is a plan by itself (`compileSelect_areBindable`). A combination is a
chain: its left part is a chain already (`compileParts_isBindable`), and its right part becomes one
more link (`makeChain_isBindable`). -/
lemma compileWith_isBindable {q : Query} {n : QueryNode}
    (hsub : CompilesTo compileSub ok (QueryNode.IsBindable ok))
    (hq : ∀ i ∈ q.paramNumbers, ok i = true) (h : compileWith env compileSub q = .ok n) :
    n.IsBindable ok := by
  obtain ⟨body, orderBy, limit, offset⟩ := q
  simp only [Query.paramNumbers, List.forall_mem_append] at hq
  obtain ⟨hbody, horderBy, hlimit, hoffset⟩ := hq
  unfold compileWith at h
  cases body with
  | select s =>
    simp only [bind_eq_ok, pure_eq_ok] at h
    obtain ⟨p, hp, rfl⟩ := h
    exact .plan (compileSelect_areBindable hsub hbody horderBy hlimit hoffset hp)
  | combine op l r =>
    rw [QueryBody.paramNumbers, List.forall_mem_append] at hbody
    simp only [bind_eq_ok, pure_eq_ok] at h
    obtain ⟨parts, hparts, last, hlast, c, hc, order, ho, o, hoffset', l', hlimit', rfl⟩ := h
    obtain ⟨hhead, hlinks⟩ := compileParts_isBindable hsub l hbody.1 parts hparts
    have hlastBindable := compileBody_isBindable hsub r hbody.2 last hlast
    obtain ⟨hhead', hlinks'⟩ := makeChain_isBindable hhead hlinks hlastBindable hc
    exact .chain (.intro ⟨chainOrder_areNumbered horderBy ho,
      optionalRowBound_isNumbered hoffset hoffset', optionalRowBound_isNumbered hlimit hlimit'⟩
      hhead' hlinks')

/-- **What a compiled query waits for**: every selection in it waits for parameters of the query,
for its own sub-queries and, in its joined tables, for their rows. By induction on how deeply
queries are nested. -/
theorem compileBelow_isBindable {bound : Nat} {q : Query} {n : QueryNode}
    (hq : ∀ i ∈ q.paramNumbers, ok i = true) (h : compileBelow env bound q = .ok n) :
    n.IsBindable ok := by
  induction bound generalizing q n with
  | zero => cases h
  | succ bound ih => exact compileWith_isBindable (fun _ _ hq hn => ih hq hn) hq h

/-- **What the selection of an update or a deletion waits for.**

**Proof sketch.** The plan of the table waits for nothing, and the compilation of the condition adds
what the condition mentions (`compileWhere_isCompiled`, `compileWhere_isNumbered`). The strategy
that is chosen at the end changes neither (`QueryPlan.eq_of_chooseStrategy`). -/
theorem compileSelection_areBindable {table : TableName} {condition : Option Expr} {p : QueryPlan}
    (hcondition : ∀ i ∈ paramNumbersOption condition, ok i = true)
    (h : compileSelection env table condition = .ok p) : p.AreBindable ok := by
  have hnone : ∀ {α : Type} {P : α → Prop}, ∀ a ∈ (none : Option α), P a :=
    fun a ha => by cases ha
  have htable : QueryPlan.IsCompiled ok (.ofTable (env.tablePlan table none)) :=
    ⟨rfl, fun j hj => absurd hj List.not_mem_nil⟩
  have hinside : QueryPlan.Inside (QueryNode.IsBindable ok) (.ofTable (env.tablePlan table none)) :=
    ⟨hnone, fun s hs => absurd hs List.not_mem_nil⟩
  have hnumbered : QueryPlan.IsNumbered ok (.ofTable (env.tablePlan table none)) :=
    ⟨hnone, hnone, hnone, fun c hc => absurd hc List.not_mem_nil,
      fun o ho => absurd ho List.not_mem_nil, .none, .none⟩
  have hall : ∀ q : QueryPlan, q.IsCompiled ok → q.Inside (QueryNode.IsBindable ok) →
      q.IsNumbered ok → q.chooseStrategy = .ok p → p.AreBindable ok := by
    intro q hq hqInside hqNumbered hp
    obtain ⟨s, rfl⟩ := QueryPlan.eq_of_chooseStrategy hp
    refine .intro ⟨⟨hq.table, hq.joins⟩, ⟨hqNumbered.rowFilter, hqNumbered.whereClause,
      hqNumbered.having, hqNumbered.columns, hqNumbered.orderBy, hqNumbered.offset,
      hqNumbered.limit⟩⟩ ?_ (.of_forall hqInside.subqueries)
    change SourceAll _ _ q.source
    cases hsource : q.source with
    | none => exact .none
    | some n => exact .some (hqInside.source n hsource)
  unfold compileSelection at h
  cases condition with
  | none => exact hall _ htable hinside hnumbered h
  | some e =>
    simp only [bind_eq_ok] at h
    obtain ⟨q, hq, h⟩ := h
    obtain ⟨hcompiled, hqInside⟩ := compileWhere_isCompiled
      (fun _ _ hq hn => compileBelow_isBindable hq hn) hcondition htable hinside rfl hq
    exact hall q hcompiled hqInside (compileWhere_isNumbered hnumbered hcondition hq) h

end RecordQuery
