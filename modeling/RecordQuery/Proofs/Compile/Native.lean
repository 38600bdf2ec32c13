import RecordQuery.Compile.Where
import RecordQuery.Proofs.Outcome

set_option autoImplicit false

/-!
# What the store can decide

The compilation of a conjunct collects sub-queries and can fail. Whenever it finds a condition that
the store can decide, that condition has one of a few shapes, which are set apart here from how
they are found. All that is known about compiled conditions is derived from these shapes.

## Main definitions

* `Side.Supplies`, `Side.SuppliesKey` — the operands that a side of a comparison may become.
* `NativeCondition.OfComparison`, `NativeCondition.OfRange`, `NativeCondition.OfMember` — the
  conditions that a comparison, a range and a list may become.
* `NativeCondition.Of` — the conditions that an expression may become.
* `BinaryOp.Joins` — how AND and OR put conditions together.
* `Operand.IsBound` — what may bound a range.

## Main results

* `compileConjunct_induction` — induction along the compilation of a conjunct.
* `compileConjunct_of` — what the compilation of a conjunct finds has one of these shapes.
-/

namespace RecordQuery

/-! ## Shapes of compiled conditions -/

/-- The operand that a side of a comparison with a bin becomes. -/
inductive Side.Supplies : Side → Operand → Prop
  /-- A value is its operand. -/
  | value (o : Operand) : Supplies (.value o) o
  /-- A value of another table is looked up in the row. -/
  | outer (source : String) : Supplies (.outer source) (.outer source)
  /-- A sub-query has a slot. -/
  | query (q : Query) (slot : Nat) : Supplies (.query q) (.slot slot)

/-- The key that a side of a comparison with the key becomes. -/
inductive Side.SuppliesKey : Side → KeyOperand → Prop
  /-- A value names a key. -/
  | value {o : Operand} {k : KeyOperand} : o.keyOperand? = some k → SuppliesKey (.value o) k
  /-- A sub-query has a slot. -/
  | query (q : Query) (slot : Nat) : SuppliesKey (.query q) (.slot slot)

/-- The conditions on bins that AND and OR put together become several conditions. -/
inductive BinaryOp.Joins : BinaryOp → (List Condition → Condition) → Prop
  /-- AND asks for all of them. -/
  | and : Joins .and .all
  /-- OR asks for one of them. -/
  | or : Joins .or .any

/-- Conditions are put together by asking for all of them or for one of them. -/
lemma BinaryOp.Joins.eq_all_or_any {op : BinaryOp} {f : List Condition → Condition}
    (h : op.Joins f) : f = .all ∨ f = .any := by
  cases h with
  | and => exact .inl rfl
  | or => exact .inr rfl

namespace NativeCondition

/-- The condition that a comparison of the key with a side becomes. -/
inductive OfKeyComparison : Comparison → Side → NativeCondition → Prop
  /-- Nothing equals null, and nothing differs from it. -/
  | null (c : Comparison) : OfKeyComparison c (.value .null) (.key .none)
  /-- Equality with a key. -/
  | eq {s : Side} {k : KeyOperand} : s.SuppliesKey k → OfKeyComparison .eq s (.key (.equal k))
  /-- Difference from a key. -/
  | ne {s : Side} {k : KeyOperand} : s.SuppliesKey k → OfKeyComparison .ne s (.key (.notEqual k))

/-- The condition that a comparison of two sides becomes. -/
inductive OfComparison : Side → Comparison → Side → NativeCondition → Prop
  /-- A bin on the left. -/
  | binLeft {bin : String} {c : Comparison} {s : Side} {o : Operand} :
      s.Supplies o → OfComparison (.bin bin) c s (.bins (.ofOperand bin c o))
  /-- A bin on the right. -/
  | binRight {bin : String} {c : Comparison} {s : Side} {o : Operand} :
      s.Supplies o → OfComparison s c (.bin bin) (.bins (.ofOperand bin c.mirrored o))
  /-- The key on the left. -/
  | keyLeft {c : Comparison} {s : Side} {n : NativeCondition} :
      OfKeyComparison c s n → OfComparison .key c s n
  /-- The key on the right. -/
  | keyRight {c : Comparison} {s : Side} {n : NativeCondition} :
      OfKeyComparison c.mirrored s n → OfComparison s c .key n

/-- The condition that a range becomes. -/
inductive OfRange : Side → Operand → Operand → NativeCondition → Prop
  /-- A bin between both bounds. -/
  | bin (bin : String) (low high : Operand) : OfRange (.bin bin) low high
      (.bins (.all [.compare bin .integer .ge low, .compare bin .integer .le high]))
  /-- The key between both bounds. -/
  | key {low high : Operand} {l h : KeyOperand} : low.keyOperand? = some l →
      high.keyOperand? = some h → OfRange .key low high (.key (.range l h))

/-- The condition that a list becomes. -/
inductive OfMember : Side → List Operand → NativeCondition → Prop
  /-- A bin that equals one of the items. -/
  | bin (bin : String) (os : List Operand) :
      OfMember (.bin bin) os (.bins (.any (os.map (Condition.ofOperand bin .eq))))
  /-- The key among the items. -/
  | key {os : List Operand} {ks : List KeyOperand} : keyOperands? os = some ks →
      OfMember .key os (.key (.among ks))

/-- The condition on a table that an expression becomes. -/
inductive Of (scope : Scope) (target : Nat) : Expr → NativeCondition → Prop
  /-- Parentheses are dropped. -/
  | paren {e : Expr} {n : NativeCondition} : Of scope target e n → Of scope target (.paren e) n
  /-- A conjunction or a disjunction of conditions on bins. -/
  | connective {op : BinaryOp} {f : List Condition → Condition} {l r : Expr} {a b : Condition} :
      op.Joins f → Of scope target l (.bins a) → Of scope target r (.bins b) →
      Of scope target (.binary op l r) (.bins (f [a, b]))
  /-- A comparison. -/
  | compare {c : Comparison} {l r : Expr} {s t : Side} {n : NativeCondition} :
      side scope target l = .ok s → side scope target r = .ok t → OfComparison s c t n →
      Of scope target (.binary (.compare c) l r) n
  /-- A range. -/
  | between {e low high : Expr} {s : Side} {l h : Operand} {n : NativeCondition} :
      side scope target e = .ok s → rangeBound scope target low = .ok (some l) →
      rangeBound scope target high = .ok (some h) → OfRange s l h n →
      Of scope target (.between e low high false) n
  /-- A list. -/
  | member {e : Expr} {items : List Expr} {s : Side} {os : List Operand} {n : NativeCondition} :
      side scope target e = .ok s → listOperands scope target items = .ok (some os) →
      OfMember s os n → Of scope target (.inList e items false) n
  /-- A bin among the values of a sub-query. -/
  | binQuery {e : Expr} {bin : String} (q : Query) (slot : Nat) :
      side scope target e = .ok (.bin bin) →
      Of scope target (.inQuery e q false) (.bins (.inSlot bin .unknown slot))
  /-- The key among the values of a sub-query. -/
  | keyQuery {e : Expr} (q : Query) (slot : Nat) : side scope target e = .ok .key →
      Of scope target (.inQuery e q false) (.key (.inSlot slot))

end NativeCondition

/-! ## Forms of conjuncts -/

/-- **AND and OR are compiled alike**, both sides below the top level. -/
lemma compileConjunct_connective {op : BinaryOp} {f : List Condition → Condition}
    (hop : op.Joins f) (compileSub : Query → Except QueryError QueryNode) (scope : Scope)
    (target : Nat) (topLevel : Bool) (l r : Expr) :
    compileConjunct compileSub scope target topLevel (.binary op l r) = do
      let a ← compileConjunct compileSub scope target false l
      let b ← compileConjunct compileSub scope target false r
      return joinNative f a b := by
  cases hop with
  | and => rw [compileConjunct]
  | or => rw [compileConjunct]

/-- **Induction along the compilation of a conjunct**, with one case for each form that the store
may decide and one for all others, of which nothing is found.

**Proof sketch.** The cases of the definition, those of AND and OR as one. -/
@[elab_as_elim]
theorem compileConjunct_induction {motive : Bool → Expr → Prop}
    (paren : ∀ topLevel e, motive topLevel e → motive topLevel (.paren e))
    (connective : ∀ topLevel op f l r, BinaryOp.Joins op f → motive false l → motive false r →
      motive topLevel (.binary op l r))
    (compare : ∀ topLevel c l r, motive topLevel (.binary (.compare c) l r))
    (between : ∀ topLevel e low high, motive topLevel (.between e low high false))
    (inList : ∀ topLevel e items, motive topLevel (.inList e items false))
    (inQuery : ∀ topLevel e q, motive topLevel (.inQuery e q false))
    (undecided : ∀ topLevel e, (∀ compileSub scope target,
      compileConjunct compileSub scope target topLevel e = pure none) → motive topLevel e)
    (topLevel : Bool) (e : Expr) : motive topLevel e := by
  induction topLevel, e using compileConjunct.induct with
  | case1 topLevel e ih => exact paren topLevel e ih
  | case2 topLevel l r ihl ihr => exact connective topLevel _ _ l r .and ihl ihr
  | case3 topLevel l r ihl ihr => exact connective topLevel _ _ l r .or ihl ihr
  | case4 topLevel c l r => exact compare topLevel c l r
  | case5 topLevel e low high => exact between topLevel e low high
  | case6 topLevel e items => exact inList topLevel e items
  | case7 topLevel e q => exact inQuery topLevel e q
  | case8 e topLevel hparen hand hor hcompare hbetween hlist hquery =>
    exact undecided topLevel e fun compileSub scope target => by
      rw [compileConjunct] <;> assumption

/-! ## Bounds of ranges -/

/-- What may bound a range: an integer or a parameter. -/
inductive Operand.IsBound : Operand → Prop
  /-- An integer. -/
  | integer (i : Int64) : IsBound (.integer i)
  /-- A parameter. -/
  | param (index : Nat) : IsBound (.param index)

/-- **A bound of a range** is the value on that side, an integer or a parameter. -/
theorem rangeBound_spec {scope : Scope} {target : Nat} {e : Expr} {o : Operand}
    (h : rangeBound scope target e = .ok (some o)) :
    side scope target e = .ok (.value o) ∧ o.IsBound := by
  obtain ⟨s, hs, h⟩ := Outcome.bind_eq_ok.mp h
  rw [hs]
  split at h
  · obtain rfl := Option.some.inj (Except.ok.inj h)
    exact ⟨rfl, .integer _⟩
  · obtain rfl := Option.some.inj (Except.ok.inj h)
    exact ⟨rfl, .param _⟩
  · cases h
  · cases h
  · cases h

/-! ## Computations that collect sub-queries -/

namespace SlotM

variable {α β : Type} {slots last : List SubquerySlot}

/-- A sequence of two steps returns if both do. -/
lemma run_bind_eq_ok {x : SlotM α} {f : α → SlotM β} {b : β} :
    (x >>= f).run slots = .ok (b, last) ↔
      ∃ a mid, x.run slots = .ok (a, mid) ∧ (f a).run mid = .ok (b, last) := by
  simp [StateT.run_bind]

/-- A step that only returns. -/
lemma run_pure_eq_ok {a b : α} :
    (pure a : SlotM α).run slots = .ok (b, last) ↔ a = b ∧ slots = last := by
  simp [StateT.run_pure]

/-- A step without sub-queries. -/
lemma run_liftM_eq_ok {x : Except QueryError α} {a : α} :
    (liftM x : SlotM α).run slots = .ok (a, last) ↔ x = .ok a ∧ slots = last := by
  cases x with
  | error e => simp [liftM, monadLift, MonadLift.monadLift, StateT.lift, StateT.run]
  | ok b => simp [liftM, monadLift, MonadLift.monadLift, StateT.lift, StateT.run]

end SlotM

/-! ## What the compilation finds -/

variable {compileSub : Query → Except QueryError QueryNode} {scope : Scope} {target : Nat}
  {slots last : List SubquerySlot}

/-- A comparison of the key becomes a condition on the key.

**Proof sketch.** Only equality and difference are compiled. Of the sides, null gives the condition
that finds nothing, any other value the key that it names, and a sub-query its slot. -/
lemma keyComparison_of {c : Comparison} {s : Side} {n : NativeCondition}
    (h : (keyComparison compileSub c s).run slots = .ok (some n, last)) :
    NativeCondition.OfKeyComparison c s n := by
  have hshape : ∀ k : KeyOperand, (c = .eq ∨ c = .ne) → s.SuppliesKey k →
      NativeCondition.OfKeyComparison c s (.key (if c = .eq then .equal k else .notEqual k)) := by
    rintro k (rfl | rfl) hk
    · exact .eq hk
    · exact .ne hk
  by_cases hc : c ≠ .eq ∧ c ≠ .ne
  · simp [keyComparison, hc] at h
  have hc' : c = .eq ∨ c = .ne := by
    by_contra hne
    exact hc (not_or.mp hne)
  simp only [keyComparison, if_neg hc] at h
  match s with
  | .value .null =>
    simp only [SlotM.run_pure_eq_ok, Option.some.injEq] at h
    obtain ⟨rfl, -⟩ := h
    exact .null c
  | .value (.integer _) | .value (.text _) | .value (.param _) | .value (.outer _)
  | .value (.slot _) =>
    simp only [SlotM.run_pure_eq_ok, Option.map_eq_some_iff] at h
    obtain ⟨⟨k, hk, rfl⟩, -⟩ := h
    exact hshape k hc' (.value hk)
  | .query q =>
    simp only [SlotM.run_bind_eq_ok, SlotM.run_pure_eq_ok, Option.some.injEq] at h
    obtain ⟨slot, -, -, rfl, -⟩ := h
    exact hshape _ hc' (.query q slot)
  | .bin _ | .key | .outer _ | .float | .other => simp at h

/-- A comparison of two sides becomes a condition on a bin or on the key.

**Proof sketch.** One case for each row of the table of sides. A bin is compared with whatever
operand the other side supplies; the key is left to `keyComparison_of`. -/
lemma nativeComparison_of {topLevel : Bool} {left right : Side} {c : Comparison}
    {n : NativeCondition}
    (h : (nativeComparison compileSub topLevel left c right).run slots = .ok (some n, last)) :
    NativeCondition.OfComparison left c right n := by
  unfold nativeComparison at h
  split at h
  case h_1 b o =>
    simp only [SlotM.run_pure_eq_ok, Option.some.injEq] at h
    obtain ⟨rfl, -⟩ := h
    exact .binLeft (.value o)
  case h_2 o b =>
    simp only [SlotM.run_pure_eq_ok, Option.some.injEq] at h
    obtain ⟨rfl, -⟩ := h
    exact .binRight (.value o)
  case h_3 b source =>
    simp only [SlotM.run_pure_eq_ok, Option.some.injEq] at h
    obtain ⟨rfl, -⟩ := h
    exact .binLeft (.outer source)
  case h_4 source b =>
    simp only [SlotM.run_pure_eq_ok, Option.some.injEq] at h
    obtain ⟨rfl, -⟩ := h
    exact .binRight (.outer source)
  case h_5 b q =>
    simp only [SlotM.run_bind_eq_ok, SlotM.run_pure_eq_ok, Option.some.injEq] at h
    obtain ⟨slot, -, -, rfl, -⟩ := h
    exact .binLeft (.query q slot)
  case h_6 q b =>
    simp only [SlotM.run_bind_eq_ok, SlotM.run_pure_eq_ok, Option.some.injEq] at h
    obtain ⟨slot, -, -, rfl, -⟩ := h
    exact .binRight (.query q slot)
  case h_7 s =>
    split at h
    · exact .keyLeft (keyComparison_of h)
    · simp at h
  case h_8 s hs =>
    split at h
    · exact .keyRight (keyComparison_of h)
    · simp at h
  case h_9 => simp at h

/-- A range becomes a condition on a bin or on the key. -/
lemma nativeRange_of {topLevel : Bool} {s : Side} {low high : Operand} {n : NativeCondition}
    (h : nativeRange topLevel s low high = some n) : NativeCondition.OfRange s low high n := by
  unfold nativeRange at h
  split at h
  case h_1 bin =>
    obtain rfl := Option.some.inj h
    exact .bin bin low high
  case h_2 =>
    split at h
    · obtain ⟨l, hl, h⟩ := Option.bind_eq_some_iff.mp h
      obtain ⟨u, hu, h⟩ := Option.bind_eq_some_iff.mp h
      obtain rfl := Option.some.inj h
      exact .key hl hu
    · cases h
  case h_3 => cases h

/-- A list becomes a condition on a bin or on the key. -/
lemma nativeMember_of {topLevel : Bool} {s : Side} {os : List Operand} {n : NativeCondition}
    (h : nativeMember topLevel s os = some n) : NativeCondition.OfMember s os n := by
  unfold nativeMember at h
  split at h
  case h_1 bin =>
    obtain rfl := Option.some.inj h
    exact .bin bin os
  case h_2 =>
    split at h
    · obtain ⟨ks, hks, rfl⟩ := Option.map_eq_some_iff.mp h
      exact .key hks
    · cases h
  case h_3 => cases h

/-- Two conditions that are put together are both on bins. -/
lemma joinNative_eq_some {f : List Condition → Condition} {a b : Option NativeCondition}
    {n : NativeCondition} (h : joinNative f a b = some n) :
    ∃ x y, a = some (.bins x) ∧ b = some (.bins y) ∧ n = .bins (f [x, y]) := by
  unfold joinNative at h
  split at h
  · rename_i x y
    exact ⟨x, y, rfl, rfl, (Option.some.inj h).symm⟩
  · cases h

/-- **What the compilation of a conjunct finds has one of the shapes of compiled conditions.**

**Proof sketch.** Induction on the expression, along the cases of the compilation. Those that find
nothing are excluded; of the others every step is known to have returned. -/
theorem compileConjunct_of (e : Expr) (topLevel : Bool) {n : NativeCondition}
    {slots last : List SubquerySlot}
    (h : (compileConjunct compileSub scope target topLevel e).run slots = .ok (some n, last)) :
    NativeCondition.Of scope target e n := by
  induction topLevel, e using compileConjunct_induction generalizing n slots last with
  | paren topLevel e ih =>
    rw [compileConjunct] at h
    exact .paren (ih h)
  | connective topLevel op f l r hop ihl ihr =>
    simp only [compileConjunct_connective hop, SlotM.run_bind_eq_ok, SlotM.run_pure_eq_ok] at h
    obtain ⟨a, mid, hl, b, mid', hr, hjoin, -⟩ := h
    obtain ⟨x, y, rfl, rfl, rfl⟩ := joinNative_eq_some hjoin
    exact .connective hop (ihl hl) (ihr hr)
  | compare topLevel c l r =>
    simp only [compileConjunct, SlotM.run_bind_eq_ok, SlotM.run_liftM_eq_ok] at h
    obtain ⟨s, mid, ⟨hs, rfl⟩, t, mid', ⟨ht, rfl⟩, h⟩ := h
    exact .compare hs ht (nativeComparison_of h)
  | between topLevel e low high =>
    simp only [compileConjunct, SlotM.run_bind_eq_ok, SlotM.run_liftM_eq_ok] at h
    obtain ⟨s, mid, ⟨hs, rfl⟩, l, mid', ⟨hl, rfl⟩, u, mid'', ⟨hu, rfl⟩, h⟩ := h
    split at h
    · simp only [SlotM.run_pure_eq_ok] at h
      exact .between hs hl hu (nativeRange_of h.1)
    · simp at h
  | inList topLevel e items =>
    simp only [compileConjunct, SlotM.run_bind_eq_ok, SlotM.run_liftM_eq_ok] at h
    obtain ⟨s, mid, ⟨hs, rfl⟩, os, mid', ⟨hos, rfl⟩, h⟩ := h
    split at h
    · simp only [SlotM.run_pure_eq_ok] at h
      exact .member hs hos (nativeMember_of h.1)
    · simp at h
  | inQuery topLevel e q =>
    simp only [compileConjunct, SlotM.run_bind_eq_ok, SlotM.run_liftM_eq_ok] at h
    obtain ⟨s, mid, ⟨hs, rfl⟩, h⟩ := h
    split at h
    · simp only [SlotM.run_bind_eq_ok, SlotM.run_pure_eq_ok, Option.some.injEq] at h
      obtain ⟨slot, -, -, rfl, -⟩ := h
      exact .binQuery q slot hs
    · split at h
      · simp only [SlotM.run_bind_eq_ok, SlotM.run_pure_eq_ok, Option.some.injEq] at h
        obtain ⟨slot, -, -, rfl, -⟩ := h
        exact .keyQuery q slot hs
      · simp at h
    · simp at h
  | undecided topLevel e hnone => simp [hnone] at h

end RecordQuery
