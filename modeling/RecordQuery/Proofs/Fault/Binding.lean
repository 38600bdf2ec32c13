import RecordQuery.Proofs.Fault.Pipeline
import RecordQuery.Proofs.Plan.Parameters

set_option autoImplicit false

/-!
# Binding has no grave failures of its own

Where the parameters of a compiled query do not fail in a given way, such as for want of a value,
binding does not either, and the bound query is ready to be carried out without such a failure.

## Main definitions

* `SuppliesParams` — given parameters do not fail in a given way.

## Main results

* `Condition.avoids_bind`, `KeyCondition.avoids_bind`, `RowBound.avoids_bind` — the parts of a plan.
* `QueryPlan.avoids_bindOwn` — a selection.
* `QueryNode.avoids_bind` — a query with all queries inside it.
-/

namespace RecordQuery

open Outcome

/-- Given parameters do not fail in a given way. -/
def SuppliesParams (bad : QueryError → Bool) (ok : Nat → Bool) (params : List Value) : Prop :=
  ∀ i, ok i = true → Avoids bad (fun _ => True) (param? params i)

section

variable {bad : QueryError → Bool} {ok : Nat → Bool} {params : List Value}

/-- An expression with such parameters. -/
lemma SuppliesParams.avoidsParams (hok : SuppliesParams bad ok params) {e : Expr}
    (he : ∀ i ∈ e.paramNumbers, ok i = true) : e.AvoidsParams bad params :=
  fun i hi => hok i (he i (Expr.mem_paramNumbers hi))

/-- Sort keys with such parameters. -/
lemma SuppliesParams.orderKeys (hok : SuppliesParams bad ok params) {os : List OrderSpec}
    (hos : OrderSpec.AreNumbered ok os) : ∀ o ∈ os, o.key.AvoidsParams bad params := by
  rintro ⟨key, descending⟩ ho
  cases key with
  | expr e => exact hok.avoidsParams (hos _ ho e rfl)
  | column _ | position _ => trivial

/-! ## Parts of plans -/

/-- The operand of a value. -/
lemma Value.operand?_benign (v : Value) : Benign v.operand? := by
  cases v <;> trivial

/-- Binding an operand. -/
lemma Operand.avoids_bind [QueryError.Grave bad] (hok : SuppliesParams bad ok params) {o : Operand}
    {outers : Bool}
    {n : Nat} (ho : (⟨ok, outers, n⟩ : Unknowns).allows o = true) (kind : BinKind) :
    Avoids bad (fun _ => True) (o.bind params kind) := by
  cases o with
  | param index =>
    refine (hok index ho).bind fun v _ => ?_
    split
    · exact .of_safe (.throw rfl)
    · refine (Avoids.of_safe v.operand?_benign).bind fun bound _ => ?_
      split <;> trivial
  | integer _ | text _ | null | outer _ | slot _ => trivial

/-- **Binding a condition.** -/
lemma Condition.avoids_bind [QueryError.Grave bad] (hok : SuppliesParams bad ok params)
    {c : Condition} {outers : Bool}
    {n : Nat} (hc : c.isWithin ⟨ok, outers, n⟩ = true) :
    Avoids bad (fun _ => True) (c.bind params) :=
  mapOperands_avoids (fun _ kind ho => Operand.avoids_bind hok ho kind) c hc

/-- Binding a key. -/
lemma KeyOperand.avoids_bind [QueryError.Grave bad] (hok : SuppliesParams bad ok params)
    {k : KeyOperand}
    {outers : Bool} {n : Nat} (hk : (⟨ok, outers, n⟩ : Unknowns).allowsKey k = true) :
    Avoids bad (fun _ => True) (k.bind params) := by
  cases k with
  | param index =>
    refine (hok index hk).bind fun v _ => ?_
    split
    · trivial
    · exact (Avoids.of_safe (UserKey.ofValue?_benign v)).bind fun _ _ => .pure trivial
  | key _ | slot _ => trivial

namespace KeyCondition

/-- Binding keys. -/
lemma avoids_bindKeys [QueryError.Grave bad] (hok : SuppliesParams bad ok params)
    {ks : List KeyOperand} {outers : Bool}
    {n : Nat} (hks : ks.all (⟨ok, outers, n⟩ : Unknowns).allowsKey = true) :
    Avoids bad (fun _ => True) (bindKeys params ks) := by
  induction ks with
  | nil => trivial
  | cons k ks ih =>
    rw [List.all_cons, Bool.and_eq_true] at hks
    exact (KeyOperand.avoids_bind hok hks.1).bind fun _ _ =>
      (ih hks.2).bind fun _ _ => .pure trivial

mutual

/-- **Binding a condition on the key.** -/
theorem avoids_bind [QueryError.Grave bad] (hok : SuppliesParams bad ok params) {outers : Bool}
    {n : Nat} :
    (c : KeyCondition) → c.isWithin ⟨ok, outers, n⟩ = true →
      Avoids bad (fun _ => True) (c.bind params)
  | equal _, h | notEqual _, h => (KeyOperand.avoids_bind hok h).bind fun _ _ => .pure trivial
  | range low high, h => by
    rw [isWithin, Bool.and_eq_true] at h
    refine (KeyOperand.avoids_bind hok h.1).bind fun l _ => ?_
    refine (KeyOperand.avoids_bind hok h.2).bind fun u _ => ?_
    split <;> trivial
  | among ks, h => (avoids_bindKeys hok h).bind fun _ _ => .pure trivial
  | all cs, h => (avoids_bindList hok cs h).bind fun _ _ => .pure trivial
  | inSlot _, _ => trivial

/-- Binding several conditions on the key. -/
theorem avoids_bindList [QueryError.Grave bad] (hok : SuppliesParams bad ok params) {outers : Bool}
    {n : Nat} :
    (cs : List KeyCondition) → areWithin ⟨ok, outers, n⟩ cs = true →
      Avoids bad (fun _ => True) (bindList params cs)
  | [], _ => trivial
  | c :: cs, h => by
    rw [areWithin, Bool.and_eq_true] at h
    exact (avoids_bind hok c h.1).bind fun _ _ =>
      (avoids_bindList hok cs h.2).bind fun _ _ => .pure trivial

end

end KeyCondition

/-- **Binding a limit**, which is known afterwards.

**Proof sketch.** A limit given as a number stays. A parameter is supplied, and its value either is
a number of rows or is refused with a failure that is not grave. -/
lemma RowBound.avoids_bind [QueryError.Grave bad] (hok : SuppliesParams bad ok params)
    {b : Option RowBound}
    (hb : IsNumbered ok b) : Avoids bad (IsSupplied bad) (bindRowBound params b) := by
  cases b with
  | none => exact .ok fun c hc => by cases hc
  | some b =>
    have hknown : ∀ n : UInt64, IsSupplied bad (some (.rows n)) := by
      rintro n c ⟨⟩
      trivial
    cases b with
    | rows n => exact .ok (hknown n)
    | param index =>
      refine Avoids.bind (P := fun c => ∃ n, c = .rows n) ?_ fun c hc => ?_
      · refine (hok index (hb index rfl)).bind fun v _ => ?_
        split
        · split
          · exact .pure ⟨_, rfl⟩
          · exact .of_safe (.throw rfl)
        · exact .of_safe (.throw rfl)
      · obtain ⟨n, rfl⟩ := hc
        exact .pure (hknown n)

namespace TablePlan

variable {p : TablePlan} {outers : Bool} {n : Nat}

/-- Binding the conditions of a table. -/
lemma avoids_bindConditions [QueryError.Grave bad] (hok : SuppliesParams bad ok params)
    (hp : p.isWithin ⟨ok, outers, n⟩ = true) :
    Avoids bad (fun _ => True) (p.bindConditions params) := by
  rw [isWithin, Bool.and_eq_true, Option.all_eq_true, Option.all_eq_true] at hp
  refine (Avoids.mapM fun c hc => Condition.avoids_bind hok (hp.1 c hc)).bind fun _ _ => ?_
  refine (Avoids.mapM fun c hc => KeyCondition.avoids_bind hok c (hp.2 c hc)).bind fun _ _ => ?_
  exact .pure trivial

/-- Binding a joined table. -/
lemma avoids_bind [QueryError.Grave bad] (hok : SuppliesParams bad ok params)
    (hp : p.isWithin ⟨ok, outers, n⟩ = true) :
    Avoids bad (fun _ => True) (p.bind params) := by
  refine (avoids_bindConditions hok hp).bind fun q _ => ?_
  split
  · exact .of_safe (.throw rfl)
  · exact .of_safe q.chooseStrategy_benign

end TablePlan

/-- Binding joined tables. -/
lemma avoids_bindJoins [QueryError.Grave bad] (hok : SuppliesParams bad ok params)
    {js : List JoinSpec} {outers : Bool}
    {n : Nat} (hjs : ∀ j ∈ js, j.plan.isWithin ⟨ok, outers, n⟩ = true) :
    Avoids bad (fun _ => True) (bindJoins params js) := by
  induction js with
  | nil => trivial
  | cons j js ih =>
    refine (TablePlan.avoids_bind hok (hjs j (by simp))).bind fun _ _ => ?_
    exact (ih fun k hk => hjs k (by simp [hk])).bind fun _ _ => .pure trivial

/-! ## Selections -/

namespace QueryPlan

variable {p q : QueryPlan}

/-- Deciding a condition row by row may be impossible. -/
lemma filterByRow_benign (p : QueryPlan) (index : Nat) : Benign (p.filterByRow index) := by
  unfold filterByRow
  split
  · rfl
  · split
    · rfl
    · trivial

/-- What a bound selection does with rows has the parameters of the compiled one, and its limits are
known.

**Proof sketch.** The steps of the binding are read off. Whichever table is chosen in the end, its
columns, order, limits and the condition on groups are those of the compiled selection, whose
parameters are supplied. Its row filter is either the compiled one or the whole condition, and the
parameters of both are supplied. -/
lemma IsNumbered.bindOwn [QueryError.Grave bad] (hok : SuppliesParams bad ok params)
    (hp : p.IsNumbered ok)
    (hq : p.bindOwn params = .ok q) : q.IsSupplied bad params := by
  simp only [QueryPlan.bindOwn, bind_eq_ok] at hq
  obtain ⟨joins, -, table, htable, offset, hoffset, limit, hlimit, hq⟩ := hq
  have hcolumns : table.columns = p.columns := by
    simp only [TablePlan.bindConditions, bind_eq_ok, pure_eq_ok] at htable
    obtain ⟨c, -, k, -, rfl⟩ := htable
    rfl
  have hoffset := (RowBound.avoids_bind hok hp.offset).of_eq_ok hoffset
  have hlimit := (RowBound.avoids_bind hok hp.limit).of_eq_ok hlimit
  have hsupplied : ∀ m : QueryPlan, m.chooseStrategy = .ok q →
      (∀ e ∈ m.rowFilter, ∀ i ∈ e.paramNumbers, ok i = true) → m.columns = p.columns →
      m.having = p.having → m.orderBy = p.orderBy → m.offset = offset → m.limit = limit →
      q.IsSupplied bad params := by
    intro m hq hfilter hcolumns hhaving horderBy hmoffset hmlimit
    obtain ⟨s, rfl⟩ := eq_of_chooseStrategy hq
    refine ⟨fun e he => ?_, fun e he => ?_, fun c hc e he => ?_, ?_, ?_, ?_⟩
    · exact hok.avoidsParams (hfilter e he)
    · exact hok.avoidsParams (hp.having e (hhaving ▸ he))
    · exact hok.avoidsParams (hp.columns c (hcolumns ▸ hc) e he)
    · exact hok.orderKeys (horderBy ▸ hp.orderBy)
    · exact hmoffset ▸ hoffset
    · exact hmlimit ▸ hlimit
  split at hq
  · obtain ⟨filtered, hfiltered, hq⟩ := bind_eq_ok.mp hq
    unfold QueryPlan.filterByRow at hfiltered
    split at hfiltered
    · cases hfiltered
    · rename_i e he
      split at hfiltered
      · cases hfiltered
      · obtain rfl := Except.ok.inj hfiltered
        exact hsupplied _ hq (fun d hd => hp.whereClause d (he ▸ hd)) hcolumns rfl rfl rfl rfl
  · exact hsupplied _ hq hp.rowFilter hcolumns rfl rfl rfl rfl

/-- **Binding a selection** whose sub-queries are bound. -/
theorem avoids_bindOwn [QueryError.Grave bad] (hok : SuppliesParams bad ok params)
    (hcompiled : p.IsCompiled ok)
    (hnumbered : p.IsNumbered ok) :
    Avoids bad (fun q => q.IsReadyFor bad params ∧ p.SameFrame q) (p.bindOwn params) := by
  refine .of_returned ?_ fun q hq =>
    ⟨⟨hcompiled.bindOwn hq, hnumbered.bindOwn hok hq⟩, sameFrame_bindOwn hq⟩
  refine (avoids_bindJoins hok hcompiled.joins).bind fun joins _ => ?_
  refine (TablePlan.avoids_bindConditions hok hcompiled.table).bind fun table _ => ?_
  refine (RowBound.avoids_bind hok hnumbered.offset).bind fun offset _ => ?_
  refine (RowBound.avoids_bind hok hnumbered.limit).bind fun limit _ => ?_
  simp only
  split
  · exact (Avoids.of_safe (filterByRow_benign _ _)).bind fun m _ =>
      .of_safe m.chooseStrategy_benign
  · exact .of_safe (chooseStrategy_benign _)

end QueryPlan

/-! ## Queries -/

mutual

/-- **Binding a compiled selection** and the queries inside it.

**Proof sketch.** By induction on the derivation that the plan and those inside it can be bound.
Source and slots are bound first, by the hypotheses for them. With as many slots as before the plan
is still compiled and numbered, so binding its own part makes it ready and leaves source and slots
in place. -/
theorem QueryPlan.avoids_bind [QueryError.Grave bad] (hok : SuppliesParams bad ok params) :
    {p : QueryPlan} →
    p.AreBindable ok → Avoids bad (QueryPlan.All (QueryPlan.IsReadyFor bad params)
      (ChainPlan.IsSupplied bad params)) (p.bind params)
  | p, .intro h hsource hslots => by
    rw [QueryPlan.bind_eq]
    refine (avoids_bindSource hok hsource).bind fun source hs => ?_
    refine (avoids_bindSlots hok hslots).bind fun slots ⟨hss, hlength⟩ => ?_
    have htable := h.compiled.table
    rw [← hlength] at htable
    have hcompiled : QueryPlan.IsCompiled ok { p with source := source, subqueries := slots } :=
      ⟨htable, h.compiled.joins⟩
    have hnumbered : QueryPlan.IsNumbered ok { p with source := source, subqueries := slots } :=
      ⟨h.numbered.rowFilter, h.numbered.whereClause, h.numbered.having, h.numbered.columns,
        h.numbered.orderBy, h.numbered.offset, h.numbered.limit⟩
    refine (QueryPlan.avoids_bindOwn hok hcompiled hnumbered).mono fun q ⟨hready, hsame⟩ =>
      .intro hready ?_ ?_
    · rw [hsame.source]
      exact hs
    · rw [hsame.subqueries]
      exact hss

/-- Binding a compiled source. -/
theorem avoids_bindSource [QueryError.Grave bad] (hok : SuppliesParams bad ok params) :
    {s : Option QueryNode} →
    SourceAll (QueryPlan.IsBindable ok) (ChainPlan.IsNumbered ok) s →
    Avoids bad (SourceAll (QueryPlan.IsReadyFor bad params) (ChainPlan.IsSupplied bad params))
      (bindSource params s)
  | _, .none => .ok .none
  | _, .some h => (QueryNode.avoids_bind hok h).bind fun _ hm => .pure (.some hm)

/-- Binding compiled sub-queries. -/
theorem avoids_bindSlots [QueryError.Grave bad] (hok : SuppliesParams bad ok params) :
    {ss : List SubquerySlot} →
    SlotsAll (QueryPlan.IsBindable ok) (ChainPlan.IsNumbered ok) ss →
    Avoids bad (fun ts => SlotsAll (QueryPlan.IsReadyFor bad params)
      (ChainPlan.IsSupplied bad params) ts ∧ ts.length = ss.length) (bindSlots params ss)
  | _, .nil => .ok ⟨.nil, rfl⟩
  | _, .cons h hs => by
    refine Avoids.bind (P := fun t => t.node.All (QueryPlan.IsReadyFor bad params)
      (ChainPlan.IsSupplied bad params)) ?_ fun t ht => ?_
    · exact (QueryNode.avoids_bind hok h).bind fun _ hm => .pure hm
    · refine (avoids_bindSlots hok hs).bind fun ts ⟨hts, hlength⟩ => .pure ⟨?_, ?_⟩
      · obtain ⟨node, context⟩ := t
        exact .cons ht hts
      · rw [List.length_cons, hlength, List.length_cons]

/-- **Binding a compiled query.** -/
theorem QueryNode.avoids_bind [QueryError.Grave bad] (hok : SuppliesParams bad ok params) :
    {n : QueryNode} →
    n.IsBindable ok → Avoids bad (QueryNode.All (QueryPlan.IsReadyFor bad params)
      (ChainPlan.IsSupplied bad params)) (n.bind params)
  | _, .plan h => (QueryPlan.avoids_bind hok h).bind fun _ hq => .pure (.plan hq)
  | _, .chain h => (ChainPlan.avoids_bind hok h).bind fun _ hd => .pure (.chain hd)

/-- Binding a compiled set operation. -/
theorem ChainPlan.avoids_bind [QueryError.Grave bad] (hok : SuppliesParams bad ok params) :
    {c : ChainPlan} →
    c.All (QueryPlan.IsBindable ok) (ChainPlan.IsNumbered ok) →
    Avoids bad (ChainPlan.All (QueryPlan.IsReadyFor bad params) (ChainPlan.IsSupplied bad params))
      (c.bind params)
  | ⟨_, _, _, _, _⟩, .intro hc h hls => by
    refine (QueryNode.avoids_bind hok h).bind fun head hhead => ?_
    refine (avoids_bindLinks hok hls).bind fun links hlinks => ?_
    refine (RowBound.avoids_bind hok hc.offset).bind fun offset hoffset => ?_
    refine (RowBound.avoids_bind hok hc.limit).bind fun limit hlimit => ?_
    exact .pure (.intro ⟨hok.orderKeys hc.orderBy, hoffset, hlimit⟩ hhead hlinks)

/-- Binding compiled links. -/
theorem avoids_bindLinks [QueryError.Grave bad] (hok : SuppliesParams bad ok params) :
    {ls : List ChainLink} →
    LinksAll (QueryPlan.IsBindable ok) (ChainPlan.IsNumbered ok) ls →
    Avoids bad (LinksAll (QueryPlan.IsReadyFor bad params) (ChainPlan.IsSupplied bad params))
      (bindLinks params ls)
  | _, .nil => .ok .nil
  | _, .cons h hls => by
    refine Avoids.bind (P := fun l => l.node.All (QueryPlan.IsReadyFor bad params)
      (ChainPlan.IsSupplied bad params)) ?_ fun l hl => ?_
    · exact (QueryNode.avoids_bind hok h).bind fun _ hm => .pure hm
    · refine (avoids_bindLinks hok hls).bind fun ms hms => .pure ?_
      obtain ⟨node, op⟩ := l
      exact .cons hl hms

end

end

end RecordQuery
