import RecordQuery.Proofs.Compile.Catalog
import RecordQuery.Proofs.Compile.Closed
import RecordQuery.Proofs.Plan.Unknowns

set_option autoImplicit false

/-!
# Unknowns in compiled conditions

The compilation of a condition brings in parameters, the slots of the sub-queries that it collects,
and, where the condition refers to another table than the one it is put to, values of an enclosing
row. Nothing else is left unknown, and no slot is used that was not collected.

## Main definitions

* `ReadsOnly` — a condition has given parameters only and refers to other tables only where that is
  allowed.
* `CompilesTo` — what queries inside a condition are compiled to.
* `Collects` — what a compilation that collects sub-queries finds.
* `QueryPlan.Inside` — the queries inside a selection have a property.

## Main results

* `compileConjunct_collects` — the unknowns in a compiled conjunct.
* `compileWhere_isCompiled` — the unknowns in a plan with a condition.
-/

namespace RecordQuery

open Outcome

variable {compileSub : Query → Except QueryError QueryNode} {scope : Scope} {target : Nat}
  {ok : Nat → Bool} {outers : Bool}

/-- A condition has given parameters only, queries included, and refers to other tables than a given
one only if that is allowed. -/
structure ReadsOnly (ok : Nat → Bool) (scope : Scope) (target : Nat) (outers : Bool) (e : Expr) :
    Prop where
  /-- The columns. -/
  columns : ∀ c table, Expr.column c ∈ e.parts → scope.resolve c = .ok table → table ≠ target →
    outers = true
  /-- The parameters. -/
  params : ∀ i ∈ e.paramNumbers, ok i = true

/-- What is said of a condition is said of its parts. -/
lemma ReadsOnly.mono {e a : Expr} (h : ReadsOnly ok scope target outers e)
    (ha : a.parts ⊆ e.parts) : ReadsOnly ok scope target outers a :=
  ⟨fun c table hc => h.columns c table (ha hc), fun i hi =>
    h.params i (Expr.paramNumbers_subset e (ha (Expr.self_mem_parts a)) hi)⟩

/-! ## Sides -/

/-- What a side brings into a condition. -/
def Side.isWithin (ok : Nat → Bool) (outers : Bool) : Side → Bool
  | value o => (⟨ok, false, 0⟩ : Unknowns).allows o
  | outer _ => outers
  | query q => q.paramNumbers.all ok
  | _ => true

/-- Constants bring nothing unknown into a condition. -/
lemma Side.isWithin_ofLiteral (l : Literal) : (Side.ofLiteral l).isWithin ok outers = true := by
  cases l <;> rfl

/-- Computed constants bring nothing unknown into a condition. -/
lemma Side.isWithin_ofValue (v : Value) : (Side.ofValue v).isWithin ok outers = true := by
  cases v <;> rfl

/-- Negatives of constants bring nothing unknown into a condition. -/
lemma Side.isWithin_ofNegative {a : Expr} {s : Side} (h : Side.ofNegative a = .ok s) :
    s.isWithin ok outers = true := by
  unfold Side.ofNegative at h
  split at h
  · split at h
    · cases h
    · obtain rfl := Except.ok.inj h
      rfl
  · obtain rfl := Except.ok.inj h
    rfl
  · obtain rfl := Except.ok.inj h
    rfl

/-- **What a side brings into a condition**: a parameter, a query, or a value of another table.

**Proof sketch.** By the forms that the compiler distinguishes. Only a column of another table, a
parameter and a sub-query bring anything in, and what the expression reads says that it is allowed;
literals and constant calls bring in nothing. -/
lemma side_isWithin {e : Expr} {s : Side} (h : side scope target e = .ok s)
    (he : ReadsOnly ok scope target outers e) : s.isWithin ok outers = true := by
  have hself := Expr.parts_unwrap e (Expr.self_mem_parts e.unwrap)
  have hparams := he.mono (Expr.parts_unwrap e)
  unfold side at h
  generalize e.unwrap = a at h hself hparams
  split at h
  · rename_i c
    simp only [bind_eq_ok] at h
    obtain ⟨table, htable, h⟩ := h
    split at h
    · rename_i hne
      obtain rfl := Except.ok.inj h
      exact he.columns c table hself htable hne
    · split at h
      · obtain rfl := Except.ok.inj h
        rfl
      · split at h
        · obtain rfl := Except.ok.inj h
          rfl
        · obtain rfl := Except.ok.inj h
          rfl
  · obtain rfl := Except.ok.inj h
    exact Side.isWithin_ofLiteral _
  · obtain rfl := Except.ok.inj h
    exact hparams.params _ (List.mem_singleton_self _)
  · exact Side.isWithin_ofNegative h
  · obtain rfl := Except.ok.inj h
    exact List.all_eq_true.mpr hparams.params
  · simp only at h
    split at h
    · simp only [bind_eq_ok, pure_eq_ok] at h
      obtain ⟨v, -, rfl⟩ := h
      exact Side.isWithin_ofValue v
    · obtain rfl := Except.ok.inj h
      rfl
  · obtain rfl := Except.ok.inj h
    rfl

/-- A side that asks a query stands in a condition with a query. -/
lemma hasQuery_of_side {e : Expr} {q : Query} (h : side scope target e = .ok (.query q)) :
    e.hasQuery = true := by
  rcases side_supplies h (.query q 0) with hres | ⟨index, heq, -⟩ | ⟨c, table, heq, -⟩ |
    ⟨q, slot, -, hq⟩
  · cases hres
  · cases heq
  · cases heq
  · by_contra hnot
    have hpart := Expr.any_eq_false.mp (Bool.eq_false_iff.mpr hnot) _ hq
    cases hpart

/-- An operand of a value is a parameter or known. -/
lemma allows_of_value {o : Operand} {n : Nat} (h : (Side.value o).isWithin ok outers = true) :
    (⟨ok, outers, n⟩ : Unknowns).allows o = true := by
  cases o <;> simp_all [Side.isWithin, Unknowns.allows]

/-- A key of an operand is, if it is unknown, the same parameter. -/
lemma allowsKey_of_keyOperand? {o : Operand} {k : KeyOperand} {n m : Nat}
    (h : o.keyOperand? = some k) (ho : (⟨ok, outers, n⟩ : Unknowns).allows o = true) :
    (⟨ok, outers, m⟩ : Unknowns).allowsKey k = true := by
  cases o <;> simp only [Operand.keyOperand?, Option.some.injEq, reduceCtorEq] at h <;>
    subst h
  · rfl
  · rfl
  · exact ho

/-! ## Conjuncts -/

/-- Whether a compiled condition holds no unknowns but given ones. -/
def NativeCondition.isWithin (u : Unknowns) : NativeCondition → Bool
  | bins c => c.isWithin u
  | key c => c.isWithin u

/-- There may be results of more sub-queries. -/
lemma NativeCondition.isWithin_of_le {params : Nat → Bool} {n m : Nat} (hle : n ≤ m)
    {c : NativeCondition} (h : c.isWithin ⟨params, outers, n⟩ = true) :
    c.isWithin ⟨params, outers, m⟩ = true := by
  cases c with
  | bins c => exact Condition.isWithin_of_le hle c h
  | key c => exact KeyCondition.isWithin_of_le hle c h

/-- A table with one more condition that was found. -/
lemma TablePlan.isWithin_addNative {u : Unknowns} {n : NativeCondition} {p : TablePlan}
    (hp : p.isWithin u = true) (hn : n.isWithin u = true) : (p.addNative n).isWithin u = true := by
  cases n with
  | bins c => exact TablePlan.isWithin_addCondition hp hn
  | key c => exact TablePlan.isWithin_addKeyCondition hp hn

/-- A table with several more conditions. -/
lemma TablePlan.isWithin_foldl_addNative {u : Unknowns} {ns : List NativeCondition}
    {p : TablePlan} (hp : p.isWithin u = true) (hns : ∀ n ∈ ns, n.isWithin u = true) :
    (ns.foldl TablePlan.addNative p).isWithin u = true := by
  induction ns generalizing p with
  | nil => exact hp
  | cons n ns ih =>
    exact ih (isWithin_addNative hp (hns n (by simp))) fun m hm => hns m (by simp [hm])

/-- Queries with given parameters only are compiled to plans with a property. -/
def CompilesTo (compileSub : Query → Except QueryError QueryNode) (ok : Nat → Bool)
    (N : QueryNode → Prop) : Prop :=
  ∀ q n, (∀ i ∈ q.paramNumbers, ok i = true) → compileSub q = .ok n → N n

/-- What is known of a condition that was found while sub-queries were collected: it holds no slots
but theirs, their plans have a property, and none were collected if no query was met. -/
structure Collects (ok : Nat → Bool) (outers met : Bool) (N : QueryNode → Prop)
    (slots last : List SubquerySlot) (n : Option NativeCondition) : Prop where
  /-- Sub-queries were added to those before. -/
  le : slots.length ≤ last.length
  /-- What was found holds no slots but theirs. -/
  within : ∀ c ∈ n, c.isWithin ⟨ok, outers, last.length⟩ = true
  /-- The plans of the sub-queries that were added have the property. -/
  nodes : (∀ s ∈ slots, N s.node) → ∀ s ∈ last, N s.node
  /-- If no query was met, no sub-query was added. -/
  same : met = false → last = slots

variable {N : QueryNode → Prop}

namespace Collects

variable {met : Bool} {slots last mid : List SubquerySlot} {n : Option NativeCondition}

/-- Something that is found at once. -/
lemma pure (h : ∀ c ∈ n, c.isWithin ⟨ok, outers, slots.length⟩ = true) :
    Collects ok outers met N slots slots n := ⟨Nat.le_refl _, h, id, fun _ => rfl⟩

/-- Nothing is found. -/
lemma none : Collects ok outers met N slots slots none :=
  pure fun c hc => by cases hc

/-- Whether a query was met is known from more than the condition. -/
lemma of_met {met' : Bool} (h : Collects ok outers met N slots last n)
    (hmet : met' = false → met = false) : Collects ok outers met' N slots last n :=
  ⟨h.le, h.within, h.nodes, fun hm => h.same (hmet hm)⟩

/-- Two conditions that are put together. -/
lemma join {a b : Option NativeCondition} {f : List Condition → Condition}
    (hf : ∀ x y u, Condition.isWithin u x = true → Condition.isWithin u y = true →
      (f [x, y]).isWithin u = true)
    (ha : Collects ok outers met N slots mid a) (hb : Collects ok outers met N mid last b) :
    Collects ok outers met N slots last (joinNative f a b) := by
  refine ⟨Nat.le_trans ha.le hb.le, fun c hc => ?_, fun h => hb.nodes (ha.nodes h),
    fun hmet => ?_⟩
  · obtain ⟨x, y, rfl, rfl, rfl⟩ := joinNative_eq_some hc
    have hx := NativeCondition.isWithin_of_le hb.le (ha.within _ rfl)
    exact hf x y _ hx (hb.within _ rfl)
  · rw [hb.same hmet, ha.same hmet]

end Collects

/-- **A sub-query gets the next slot.** -/
lemma newSlot_eq_ok {q : Query} {context : SubqueryContext} {slots last : List SubquerySlot}
    {slot : Nat} (h : (newSlot compileSub q context).run slots = .ok (slot, last)) :
    slot = slots.length ∧ ∃ node, compileSub q = .ok node ∧ last = slots ++ [⟨node, context⟩] := by
  simp only [newSlot, StateT.run_bind, StateT.run_monadLift, bind_assoc] at h
  obtain ⟨node, hnode, h⟩ := bind_eq_ok.mp h
  obtain ⟨rfl, rfl⟩ := Prod.mk.inj (Except.ok.inj h)
  exact ⟨rfl, node, hnode, rfl⟩

/-- A condition with a new slot. -/
lemma collects_newSlot {q : Query} {context : SubqueryContext} {slots last : List SubquerySlot}
    {f : Nat → NativeCondition} {n : Option NativeCondition}
    (hq : ∀ node, compileSub q = .ok node → N node)
    (h : ((do return some (f (← newSlot compileSub q context))) :
      SlotM (Option NativeCondition)).run slots = .ok (n, last))
    (hc : ∀ slot, (f slot).isWithin ⟨ok, outers, slot + 1⟩ = true) :
    Collects ok outers true N slots last n := by
  simp only [SlotM.run_bind_eq_ok, SlotM.run_pure_eq_ok] at h
  obtain ⟨slot, mid, hslot, rfl, rfl⟩ := h
  obtain ⟨rfl, node, hnode, rfl⟩ := newSlot_eq_ok hslot
  refine ⟨by simp, fun c hn => ?_, fun hslots s hs => ?_, fun hmet => by cases hmet⟩
  · obtain rfl := Option.some.inj hn
    rw [List.length_append]
    exact hc _
  · rcases List.mem_append.mp hs with hs | hs
    · exact hslots s hs
    · rw [List.mem_singleton.mp hs]
      exact hq node hnode

/-- The comparison of the key with a side.

**Proof sketch.** Other comparisons than equality and difference find nothing. A null brings nothing
in, a value what it names, and a sub-query gets a new slot (`collects_newSlot`). -/
lemma keyComparison_collects {c : Comparison} {s : Side} {slots last : List SubquerySlot}
    {n : Option NativeCondition} {met : Bool}
    (hsub : CompilesTo compileSub ok N)
    (hs : s.isWithin ok outers = true) (hmet : ∀ q, s = .query q → met = true)
    (h : (keyComparison compileSub c s).run slots = .ok (n, last)) :
    Collects ok outers met N slots last n := by
  have hkey : ∀ (k : KeyOperand) (u : Unknowns), u.allowsKey k = true →
      (NativeCondition.key (if c = .eq then .equal k else .notEqual k)).isWithin u = true := by
    intro k u hk
    split <;> exact hk
  by_cases hc : c ≠ .eq ∧ c ≠ .ne
  · simp only [keyComparison, if_pos hc, SlotM.run_pure_eq_ok] at h
    obtain ⟨rfl, rfl⟩ := h
    exact .none
  simp only [keyComparison, if_neg hc] at h
  split at h
  · simp only [SlotM.run_pure_eq_ok] at h
    obtain ⟨rfl, rfl⟩ := h
    refine .pure fun c hn => ?_
    obtain rfl := Option.some.inj hn
    rfl
  · simp only [SlotM.run_pure_eq_ok] at h
    obtain ⟨rfl, rfl⟩ := h
    refine .pure fun c hn => ?_
    obtain ⟨k, hk, rfl⟩ := Option.map_eq_some_iff.mp hn
    exact hkey k _ (allowsKey_of_keyOperand? (n := 0) hk (allows_of_value hs))
  · rename_i q
    obtain rfl := hmet q rfl
    refine collects_newSlot (hsub q · (List.all_eq_true.mp hs)) h fun slot => hkey _ _ ?_
    simp [Unknowns.allowsKey]
  · simp only [SlotM.run_pure_eq_ok] at h
    obtain ⟨rfl, rfl⟩ := h
    exact .none

/-- The comparison of two sides.

**Proof sketch.** One case for each row of the table of sides: a bin and a value or a column of
another table (`hpure`), a bin and a sub-query, which gets a new slot, and the key, which is
`keyComparison_collects`. -/
lemma nativeComparison_collects {topLevel : Bool} {left right : Side} {c : Comparison}
    {slots last : List SubquerySlot} {n : Option NativeCondition} {met : Bool}
    (hsub : CompilesTo compileSub ok N)
    (hleft : left.isWithin ok outers = true) (hright : right.isWithin ok outers = true)
    (hmet : ∀ q, left = .query q ∨ right = .query q → met = true)
    (h : (nativeComparison compileSub topLevel left c right).run slots = .ok (n, last)) :
    Collects ok outers met N slots last n := by
  have hbin : ∀ (bin : String) (c : Comparison) (o : Operand) (u : Unknowns),
      u.allows o = true → (NativeCondition.bins (.ofOperand bin c o)).isWithin u = true :=
    fun bin c o u ho => ho
  have hpure : ∀ (bin : String) (c : Comparison) (o : Operand),
      (⟨ok, outers, slots.length⟩ : Unknowns).allows o = true →
      Collects ok outers met N slots slots (some (.bins (.ofOperand bin c o))) := by
    refine fun bin c o ho => .pure fun d hd => ?_
    obtain rfl := Option.some.inj hd
    exact ho
  have hslot : ∀ slot : Nat, (⟨ok, outers, slot + 1⟩ : Unknowns).allows (.slot slot) = true := by
    simp [Unknowns.allows]
  unfold nativeComparison at h
  split at h
  · obtain ⟨rfl, rfl⟩ := SlotM.run_pure_eq_ok.mp h
    exact hpure _ _ _ (allows_of_value hright)
  · obtain ⟨rfl, rfl⟩ := SlotM.run_pure_eq_ok.mp h
    exact hpure _ _ _ (allows_of_value hleft)
  · obtain ⟨rfl, rfl⟩ := SlotM.run_pure_eq_ok.mp h
    exact hpure _ _ _ hright
  · obtain ⟨rfl, rfl⟩ := SlotM.run_pure_eq_ok.mp h
    exact hpure _ _ _ hleft
  · rename_i b q
    obtain rfl := hmet q (.inr rfl)
    exact collects_newSlot (f := fun slot => .bins (.ofOperand b c (.slot slot)))
      (hsub q · (List.all_eq_true.mp hright)) h fun slot => hbin _ _ _ _ (hslot slot)
  · rename_i q b
    obtain rfl := hmet q (.inl rfl)
    exact collects_newSlot (f := fun slot => .bins (.ofOperand b c.mirrored (.slot slot)))
      (hsub q · (List.all_eq_true.mp hleft)) h fun slot => hbin _ _ _ _ (hslot slot)
  · split at h
    · exact keyComparison_collects hsub hright (fun q hq => hmet q (.inr hq)) h
    · obtain ⟨rfl, rfl⟩ := SlotM.run_pure_eq_ok.mp h
      exact .none
  · split at h
    · exact keyComparison_collects hsub hleft (fun q hq => hmet q (.inl hq)) h
    · obtain ⟨rfl, rfl⟩ := SlotM.run_pure_eq_ok.mp h
      exact .none
  · obtain ⟨rfl, rfl⟩ := SlotM.run_pure_eq_ok.mp h
    exact .none

/-- A range. -/
lemma NativeCondition.OfRange.isWithin {s : Side} {low high : Operand} {m : Nat}
    {c : NativeCondition} (h : OfRange s low high c)
    (hlow : (⟨ok, outers, m⟩ : Unknowns).allows low = true)
    (hhigh : (⟨ok, outers, m⟩ : Unknowns).allows high = true) :
    c.isWithin ⟨ok, outers, m⟩ = true := by
  cases h with
  | bin bin =>
    simp only [NativeCondition.isWithin, Condition.isWithin, Condition.areWithin, hlow, hhigh,
      Bool.and_self]
  | key hl hh =>
    simp only [NativeCondition.isWithin, KeyCondition.isWithin, Unknowns.withoutSlots,
      allowsKey_of_keyOperand? hl hlow, allowsKey_of_keyOperand? hh hhigh, Bool.and_self]

/-- A list. -/
lemma NativeCondition.OfMember.isWithin {s : Side} {os : List Operand} {m : Nat}
    {c : NativeCondition} (h : OfMember s os c)
    (hos : ∀ o ∈ os, (⟨ok, outers, m⟩ : Unknowns).allows o = true) :
    c.isWithin ⟨ok, outers, m⟩ = true := by
  cases h with
  | bin bin =>
    rw [NativeCondition.isWithin, Condition.isWithin, Condition.areWithin_eq, List.all_map]
    exact List.all_eq_true.mpr hos
  | key hks =>
    refine List.all_eq_true.mpr fun k hk => ?_
    obtain ⟨o, hmem, ho⟩ := exists_operand_of_mem_keyOperands? hks hk
    exact allowsKey_of_keyOperand? ho (hos o hmem)

/-- **The unknowns in a compiled conjunct**: parameters, the slots of the sub-queries that were
collected, and values of an enclosing row where the conjunct refers to another table.

**Proof sketch.** Induction on the expression, along the cases of the compilation. What the sides of
a comparison bring in is known; slots only become more. -/
theorem compileConjunct_collects (e : Expr) (topLevel : Bool) {slots last : List SubquerySlot}
    {n : Option NativeCondition}
    (hsub : CompilesTo compileSub ok N)
    (he : ReadsOnly ok scope target outers e)
    (h : (compileConjunct compileSub scope target topLevel e).run slots = .ok (n, last)) :
    Collects ok outers e.hasQuery N slots last n := by
  have hparts : ∀ {a e : Expr}, a.parts ⊆ e.parts → e.hasQuery = false → a.hasQuery = false := by
    intro a e ha hquery
    exact Expr.any_eq_false.mpr fun s hs => Expr.any_eq_false.mp hquery s (ha hs)
  induction topLevel, e using compileConjunct_induction generalizing n slots last with
  | paren topLevel e ih =>
    rw [compileConjunct] at h
    have hsub : e.parts ⊆ (Expr.paren e).parts := by simp [Expr.parts]
    exact (ih (he.mono hsub) h).of_met (hparts hsub)
  | connective topLevel op f l r hop ihl ihr =>
    simp only [compileConjunct_connective hop, SlotM.run_bind_eq_ok, SlotM.run_pure_eq_ok] at h
    obtain ⟨a, mid, hl, b, mid', hr, rfl, rfl⟩ := h
    have hsubl : l.parts ⊆ (Expr.binary op l r).parts := by intro s hs; simp [Expr.parts, hs]
    have hsubr : r.parts ⊆ (Expr.binary op l r).parts := by intro s hs; simp [Expr.parts, hs]
    refine Collects.join (fun x y u hx hy => ?_) ((ihl (he.mono hsubl) hl).of_met (hparts hsubl))
      ((ihr (he.mono hsubr) hr).of_met (hparts hsubr))
    cases hop <;> simp [Condition.isWithin, Condition.areWithin, hx, hy]
  | compare topLevel c l r =>
    simp only [compileConjunct, SlotM.run_bind_eq_ok, SlotM.run_liftM_eq_ok] at h
    obtain ⟨s, mid, ⟨hs, rfl⟩, t, mid', ⟨ht, rfl⟩, h⟩ := h
    have hsubl : l.parts ⊆ (Expr.binary (.compare c) l r).parts := by
      intro s hs; simp [Expr.parts, hs]
    have hsubr : r.parts ⊆ (Expr.binary (.compare c) l r).parts := by
      intro s hs; simp [Expr.parts, hs]
    refine nativeComparison_collects hsub (side_isWithin hs (he.mono hsubl))
      (side_isWithin ht (he.mono hsubr)) (fun q hq => ?_) h
    by_contra hnot
    have hquery := Bool.eq_false_iff.mpr hnot
    rcases hq with rfl | rfl
    · exact absurd (hasQuery_of_side hs) (Bool.eq_false_iff.mp (hparts hsubl hquery))
    · exact absurd (hasQuery_of_side ht) (Bool.eq_false_iff.mp (hparts hsubr hquery))
  | between topLevel e low high =>
    simp only [compileConjunct, SlotM.run_bind_eq_ok, SlotM.run_liftM_eq_ok] at h
    obtain ⟨s, mid, ⟨hs, rfl⟩, l, mid', ⟨hl, rfl⟩, u, mid'', ⟨hu, rfl⟩, h⟩ := h
    split at h
    · rename_i low' high'
      obtain ⟨rfl, rfl⟩ := SlotM.run_pure_eq_ok.mp h
      have hsubl : low.parts ⊆ (Expr.between e low high false).parts := by
        intro s hs; simp [Expr.parts, hs]
      have hsubr : high.parts ⊆ (Expr.between e low high false).parts := by
        intro s hs; simp [Expr.parts, hs]
      exact .pure fun c hc => (nativeRange_of hc).isWithin
        (allows_of_value (side_isWithin (rangeBound_spec hl).1 (he.mono hsubl)))
        (allows_of_value (side_isWithin (rangeBound_spec hu).1 (he.mono hsubr)))
    · obtain ⟨rfl, rfl⟩ := SlotM.run_pure_eq_ok.mp h
      exact .none
  | inList topLevel e items =>
    simp only [compileConjunct, SlotM.run_bind_eq_ok, SlotM.run_liftM_eq_ok] at h
    obtain ⟨s, mid, ⟨hs, rfl⟩, os, mid', ⟨hos, rfl⟩, h⟩ := h
    split at h
    · obtain ⟨rfl, rfl⟩ := SlotM.run_pure_eq_ok.mp h
      refine .pure fun c hc => (nativeMember_of hc).isWithin fun o ho => ?_
      obtain ⟨item, hitem, hside⟩ := exists_item_of_mem_listOperands hos ho
      exact allows_of_value (side_isWithin hside
        (he.mono fun s hs => Expr.mem_parts_inList hitem hs))
    · obtain ⟨rfl, rfl⟩ := SlotM.run_pure_eq_ok.mp h
      exact .none
  | inQuery topLevel e q =>
    have hquery : (Expr.inQuery e q false).hasQuery = true := by
      simp [Expr.hasQuery, Expr.any, Expr.isQuery]
    rw [hquery]
    simp only [compileConjunct, SlotM.run_bind_eq_ok, SlotM.run_liftM_eq_ok] at h
    obtain ⟨s, mid, ⟨hs, rfl⟩, h⟩ := h
    have hq : ∀ node, compileSub q = .ok node → N node := fun node => hsub q node fun i hi =>
      he.params i (List.mem_append_right _ hi)
    split at h
    · refine collects_newSlot (f := fun slot => .bins (.inSlot _ .unknown slot)) hq h
        fun slot => ?_
      simp [NativeCondition.isWithin, Condition.isWithin, Unknowns.allows]
    · split at h
      · refine collects_newSlot (f := fun slot => .key (.inSlot slot)) hq h fun slot => ?_
        simp [NativeCondition.isWithin, KeyCondition.isWithin, Unknowns.allowsKey]
      · obtain ⟨rfl, rfl⟩ := SlotM.run_pure_eq_ok.mp h
        exact .none
    · obtain ⟨rfl, rfl⟩ := SlotM.run_pure_eq_ok.mp h
      exact .none
  | undecided topLevel e hnone =>
    rw [hnone] at h
    obtain ⟨rfl, rfl⟩ := SlotM.run_pure_eq_ok.mp h
    exact .none

/-- The unknowns in several compiled conjuncts.

**Proof sketch.** Induction on the conjuncts (`compileConjunct_collects`). Slots only become more,
so what an earlier condition waits for is still there at the end (`NativeCondition.isWithin_of_le`).
-/
lemma compileConjuncts_collects {es : List Expr} {slots last : List SubquerySlot}
    {ns : List (Option NativeCondition)}
    (hsub : CompilesTo compileSub ok N)
    (hes : ∀ e ∈ es, ReadsOnly ok scope target outers e)
    (h : (compileConjuncts compileSub scope target es).run slots = .ok (ns, last)) :
    slots.length ≤ last.length ∧
      (∀ n ∈ ns.filterMap id, n.isWithin ⟨ok, outers, last.length⟩ = true) ∧
      ((∀ s ∈ slots, N s.node) → ∀ s ∈ last, N s.node) := by
  induction es generalizing ns slots with
  | nil =>
    obtain ⟨rfl, rfl⟩ := SlotM.run_pure_eq_ok.mp h
    exact ⟨Nat.le_refl _, fun n hn => absurd hn List.not_mem_nil, id⟩
  | cons e es ih =>
    simp only [compileConjuncts, SlotM.run_bind_eq_ok, SlotM.run_pure_eq_ok] at h
    obtain ⟨n, mid, he, ns', mid', hrest, rfl, rfl⟩ := h
    have hfirst := compileConjunct_collects e true hsub (hes e (by simp)) he
    obtain ⟨hle, hns, hnodes⟩ := ih (fun d hd => hes d (by simp [hd])) hrest
    refine ⟨Nat.le_trans hfirst.le hle, fun m hm => ?_, fun h => hnodes (hfirst.nodes h)⟩
    rw [List.mem_filterMap] at hm
    obtain ⟨a, ha, rfl⟩ := hm
    rcases List.mem_cons.mp ha with heq | ha
    · exact NativeCondition.isWithin_of_le hle (hfirst.within m heq.symm)
    · exact hns m (List.mem_filterMap.mpr ⟨_, ha, rfl⟩)

/-! ## Plans with a condition -/

/-- Conjuncts that go to the main table refer to no other.

**Proof sketch.** A conjunct goes to the last of the tables that it refers to, so every table of it
comes no later (`hlast`); for the first table this leaves that one alone. Then induction on the
routed conjuncts. -/
lemma readsOnly_of_routeConjuncts {es : List Expr} {routed : List (Nat × Expr)}
    (h : routeConjuncts scope es = .ok routed) (hes : ∀ e ∈ es, ∀ i ∈ e.paramNumbers, ok i = true)
    {e : Expr} (he : e ∈ (routed.filter (fun r => r.1 == 0)).map Prod.snd) :
    ReadsOnly ok scope 0 false e := by
  refine ⟨?_, hes e (mem_of_routeConjuncts h he)⟩
  clear hes
  have hlast : ∀ (cs : List ColumnRef) (last : Nat), lastTable scope cs = .ok last →
      ∀ c ∈ cs, ∀ table, scope.resolve c = .ok table → table ≤ last := by
    intro cs
    induction cs with
    | nil => exact fun last _ c hc => absurd hc List.not_mem_nil
    | cons d cs ih =>
      intro last hl c hc table htable
      simp only [lastTable, bind_eq_ok, pure_eq_ok] at hl
      obtain ⟨first, hfirst, rest, hrest, rfl⟩ := hl
      rcases List.mem_cons.mp hc with rfl | hc
      · obtain rfl := Except.ok.inj (htable.symm.trans hfirst)
        exact Nat.le_max_left _ _
      · exact Nat.le_trans (ih rest hrest c hc table htable) (Nat.le_max_right _ _)
  induction es generalizing routed with
  | nil =>
    obtain rfl := pure_eq_ok.mp h
    cases he
  | cons d es ih =>
    simp only [routeConjuncts, bind_eq_ok, pure_eq_ok] at h
    obtain ⟨table, htable, rest, hrest, rfl⟩ := h
    by_cases hzero : table = 0
    · subst hzero
      simp only [List.filter_cons, beq_self_eq_true, if_true, List.map_cons, List.mem_cons] at he
      rcases he with rfl | he
      · intro c other hc hother hne
        have hle := hlast _ _ htable c (Expr.mem_columns.mpr hc) other hother
        omega
      · exact ih hrest he
    · simp only [List.filter_cons, beq_iff_eq, hzero, if_false] at he
      exact ih hrest he

section Plans

variable {p q : QueryPlan}

/-- The queries inside a selection have a property. -/
structure QueryPlan.Inside (N : QueryNode → Prop) (p : QueryPlan) : Prop where
  /-- The source. -/
  source : ∀ n ∈ p.source, N n
  /-- The sub-queries. -/
  subqueries : ∀ s ∈ p.subqueries, N s.node

/-- **The plan with a condition on the main table** waits for its own sub-queries only.

**Proof sketch.** If the store decides all conjuncts, the plan waits for what these collect
(`compileConjuncts_collects`), and its sub-queries are the ones that were collected. If the
condition is decided row by row, neither changes. -/
lemma compileMain_isCompiled {conjuncts : List Expr} {whole : Expr}
    (hsub : CompilesTo compileSub ok N) (hp : p.IsCompiled ok) (hinside : p.Inside N)
    (hslots : p.subqueries = []) (hes : ∀ e ∈ conjuncts, ReadsOnly ok scope 0 false e)
    (h : compileMain compileSub scope p conjuncts whole = .ok q) :
    q.IsCompiled ok ∧ q.Inside N := by
  have htable := hp.table
  rw [hslots] at htable
  simp only [compileMain, bind_eq_ok] at h
  obtain ⟨⟨natives, slots⟩, hnatives, h⟩ := h
  unfold mainConditions at hnatives
  split at h
  · rename_i hall
    obtain rfl := pure_eq_ok.mp h
    split at hnatives
    · obtain ⟨rfl, rfl⟩ := Prod.mk.inj (Except.ok.inj hnatives)
      cases hall
    · obtain ⟨-, hwithin, hnodes⟩ := compileConjuncts_collects hsub hes hnatives
      refine ⟨⟨?_, hp.joins⟩, ⟨hinside.source, hnodes fun s hs => absurd hs List.not_mem_nil⟩⟩
      exact TablePlan.isWithin_foldl_addNative
        (TablePlan.isWithin_of_le (Nat.zero_le _) htable) hwithin
  · split at h
    · simp at h
    · obtain rfl := pure_eq_ok.mp h
      exact ⟨⟨hp.table, hp.joins⟩, ⟨hinside.source, hinside.subqueries⟩⟩

/-- The plan of a joined table with a conjunct holds no slots. -/
lemma compileJoined_isWithin {table : Nat} {qualifier : String} {t t' : TablePlan} {e : Expr}
    (ht : t.isWithin ⟨ok, true, 0⟩ = true) (he : ∀ i ∈ e.paramNumbers, ok i = true)
    (h : compileJoined compileSub scope table qualifier t e = .ok t') :
    t'.isWithin ⟨ok, true, 0⟩ = true := by
  unfold compileJoined at h
  split at h
  · simp at h
  · rename_i hquery
    simp only [bind_eq_ok, StateT.run', map_eq_ok] at h
    obtain ⟨n, ⟨⟨n', last⟩, hrun, rfl⟩, h⟩ := h
    have hfound : Collects ok true e.hasQuery (fun _ => True) [] last n' :=
      compileConjunct_collects e true (fun _ _ _ _ => trivial) ⟨fun _ _ _ _ _ => rfl, he⟩ hrun
    obtain rfl := hfound.same (by simpa using hquery)
    split at h
    · rename_i n hn
      obtain rfl := pure_eq_ok.mp h
      exact TablePlan.isWithin_addNative ht (hfound.within n hn)
    · simp at h

/-- The plan of a joined table with several conjuncts holds no slots. -/
lemma compileJoinedAll_isWithin {table : Nat} {qualifier : String} {t t' : TablePlan}
    {es : List Expr} (ht : t.isWithin ⟨ok, true, 0⟩ = true)
    (hes : ∀ e ∈ es, ∀ i ∈ e.paramNumbers, ok i = true)
    (h : compileJoinedAll compileSub scope table qualifier t es = .ok t') :
    t'.isWithin ⟨ok, true, 0⟩ = true := by
  induction es generalizing t with
  | nil =>
    obtain rfl := pure_eq_ok.mp h
    exact ht
  | cons e es ih =>
    simp only [compileJoinedAll, bind_eq_ok] at h
    obtain ⟨next, hnext, h⟩ := h
    exact ih (compileJoined_isWithin ht (hes e (by simp)) hnext)
      (fun d hd => hes d (by simp [hd])) h

/-- The plans of joined tables with the conjuncts that go to them hold no slots. -/
lemma compileJoins_isWithin {routed : List (Nat × Expr)} {table : Nat} {js ks : List JoinSpec}
    (hjs : ∀ j ∈ js, j.plan.isWithin ⟨ok, true, 0⟩ = true)
    (hrouted : ∀ table, ∀ e ∈ (routed.filter (fun r => r.1 == table)).map Prod.snd,
      ∀ i ∈ e.paramNumbers, ok i = true)
    (h : compileJoins compileSub scope routed table js = .ok ks) :
    ∀ k ∈ ks, k.plan.isWithin ⟨ok, true, 0⟩ = true := by
  induction js generalizing ks table with
  | nil =>
    obtain rfl := pure_eq_ok.mp h
    exact fun k hk => absurd hk List.not_mem_nil
  | cons j js ih =>
    simp only [compileJoins, bind_eq_ok, pure_eq_ok] at h
    obtain ⟨plan, hplan, rest, hrest, rfl⟩ := h
    intro k hk
    rcases List.mem_cons.mp hk with rfl | hk
    · exact compileJoinedAll_isWithin (hjs j (by simp)) (hrouted table) hplan
    · exact ih (fun j hj => hjs j (by simp [hj])) hrest k hk

/-- **The plan with a condition** waits for parameters, for its own sub-queries and, in its joined
tables, for the rows that these are joined to.

**Proof sketch.** The conjuncts of the main table refer to no other table
(`readsOnly_of_routeConjuncts`), so `compileMain_isCompiled` applies to them; those of the joined
tables may refer to rows (`compileJoins_isWithin`). -/
theorem compileWhere_isCompiled {condition : Expr} (hsub : CompilesTo compileSub ok N)
    (hcondition : ∀ i ∈ condition.paramNumbers, ok i = true) (hp : p.IsCompiled ok)
    (hinside : p.Inside N) (hslots : p.subqueries = [])
    (h : compileWhere compileSub scope p condition = .ok q) : q.IsCompiled ok ∧ q.Inside N := by
  unfold compileWhere at h
  obtain ⟨routed, hrouted, h⟩ := bind_eq_ok.mp h
  simp only at h
  have hparams : ∀ e ∈ condition.conjuncts, ∀ i ∈ e.paramNumbers, ok i = true :=
    fun e he i hi => hcondition i (Expr.paramNumbers_subset condition
      (Expr.parts_conjuncts condition he (Expr.self_mem_parts e)) hi)
  have hjoined : ∀ m : QueryPlan, m.IsCompiled ok ∧ m.Inside N →
      (do
        let joins ← compileJoins compileSub scope routed 1 m.joins
        return { m with joins } : Except QueryError QueryPlan) = .ok q →
      q.IsCompiled ok ∧ q.Inside N := by
    rintro m ⟨hm, hinside⟩ h
    simp only [bind_eq_ok, pure_eq_ok] at h
    obtain ⟨joins, hjoins, rfl⟩ := h
    have hwithin := compileJoins_isWithin hm.joins
      (fun _ e he => hparams e (mem_of_routeConjuncts hrouted he)) hjoins
    exact ⟨⟨hm.table, hwithin⟩, ⟨hinside.source, hinside.subqueries⟩⟩
  split at h
  · obtain ⟨m, hm, h⟩ := bind_eq_ok.mp h
    exact hjoined m (compileMain_isCompiled hsub hp hinside hslots
      (fun e he => readsOnly_of_routeConjuncts hrouted hparams he) hm) h
  · exact hjoined p ⟨hp, hinside⟩ h

end Plans

end RecordQuery
