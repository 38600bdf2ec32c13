import RecordQuery.Proofs.Compile.Where
import RecordQuery.Proofs.Row

set_option autoImplicit false

/-!
# Conditions on one table

If a condition refers to one table only and holds neither parameters nor sub-queries, the store can
run what becomes of it at once. The store then decides a record just as the evaluator decides its
row, provided that the evaluator does.

## Main definitions

* `Expr.IsClosed` — an expression over one table without parameters and sub-queries.
* `Expr.hasTruthItem` — some list has a truth value among its items.

## Main results

* `side_supplies` — what an operand that is not known comes from.
* `NativeCondition.Of.isKnown` — what becomes of such an expression has no unknowns.
* `compileWhere_verdict` — a condition that the store decides is decided as the evaluator does.
-/

namespace RecordQuery

/-! ## Conditions without unknowns -/

section

variable {scope : Scope} {target : Nat}

/-- A constant is a known operand. -/
lemma Side.isResolved_ofLiteral {l : Literal} {o : Operand} (h : (Side.ofLiteral l).Supplies o) :
    o.isResolved = true := by
  cases l <;> cases h <;> rfl

/-- A computed constant is a known operand. -/
lemma Side.isResolved_ofValue {v : Value} {o : Operand} (h : (Side.ofValue v).Supplies o) :
    o.isResolved = true := by
  cases v <;> cases h <;> rfl

/-- The negative of a constant is a known operand. -/
lemma Side.isResolved_ofNegative {a : Expr} {s : Side} {o : Operand}
    (hs : Side.ofNegative a = .ok s) (h : s.Supplies o) : o.isResolved = true := by
  unfold Side.ofNegative at hs
  split at hs
  · split at hs
    · cases hs
    · obtain rfl := Except.ok.inj hs
      cases h
      rfl
  · obtain rfl := Except.ok.inj hs
    cases h
  · obtain rfl := Except.ok.inj hs
    cases h

/-- **What an operand that is not known comes from**: a parameter, a column of another table or a
sub-query that stands on the side.

**Proof sketch.** By the forms that the compiler distinguishes. A literal, a negative number and a
constant call are known; a parameter and a sub-query are named; a column is an operand only if it is
one of another table. Every other form supplies nothing. -/
lemma side_supplies {e : Expr} {s : Side} {o : Operand} (hs : side scope target e = .ok s)
    (h : s.Supplies o) :
    o.isResolved = true ∨ (∃ index, o = .param index ∧ Expr.param index ∈ e.parts) ∨
      (∃ c table, o = .outer (scope.rowKey table c.name) ∧ scope.resolve c = .ok table ∧
        table ≠ target ∧ Expr.column c ∈ e.parts) ∨
      ∃ q slot, o = .slot slot ∧ Expr.scalarQuery q ∈ e.parts := by
  have hself := Expr.parts_unwrap e (Expr.self_mem_parts e.unwrap)
  unfold side at hs
  generalize e.unwrap = u at hs hself
  split at hs
  case h_1 c =>
    simp only [Outcome.bind_eq_ok] at hs
    obtain ⟨table, htable, hs⟩ := hs
    split at hs
    · rename_i hne
      rw [Outcome.pure_eq_ok] at hs
      subst hs
      cases h
      exact .inr (.inr (.inl ⟨c, table, rfl, htable, hne, hself⟩))
    · split at hs
      · rw [Outcome.pure_eq_ok] at hs
        subst hs
        cases h
      · split at hs <;>
          (rw [Outcome.pure_eq_ok] at hs
           subst hs
           cases h)
  case h_2 l =>
    obtain rfl := Except.ok.inj hs
    exact .inl (Side.isResolved_ofLiteral h)
  case h_3 index =>
    obtain rfl := Except.ok.inj hs
    cases h
    exact .inr (.inl ⟨index, rfl, hself⟩)
  case h_4 a => exact .inl (Side.isResolved_ofNegative hs h)
  case h_5 q =>
    obtain rfl := Except.ok.inj hs
    cases h with
    | query q slot => exact .inr (.inr (.inr ⟨q, slot, rfl, hself⟩))
  case h_6 name args distinct =>
    simp only at hs
    split at hs
    · simp only [Outcome.bind_eq_ok, Outcome.pure_eq_ok] at hs
      obtain ⟨w, -, rfl⟩ := hs
      exact .inl (Side.isResolved_ofValue h)
    · obtain rfl := Except.ok.inj hs
      cases h
  case h_7 =>
    obtain rfl := Except.ok.inj hs
    cases h

/-- An expression over one table without parameters and sub-queries. -/
structure Expr.IsClosed (scope : Scope) (target : Nat) (e : Expr) : Prop where
  /-- There is no parameter. -/
  param : ∀ index, Expr.param index ∉ e.parts
  /-- There is no sub-query. -/
  query : ∀ s ∈ e.parts, s.isQuery = false
  /-- All columns belong to the table. -/
  column : ∀ c table, Expr.column c ∈ e.parts → scope.resolve c = .ok table → table = target

/-- A part of such an expression is one, too. -/
lemma Expr.IsClosed.mono {e a : Expr} (h : e.IsClosed scope target) (ha : a.parts ⊆ e.parts) :
    a.IsClosed scope target :=
  ⟨fun index hs => h.param index (ha hs), fun s hs => h.query s (ha hs),
    fun c table hs => h.column c table (ha hs)⟩

/-- All operands in such an expression are known. -/
lemma Expr.IsClosed.isResolved {e : Expr} {s : Side} {o : Operand} (h : e.IsClosed scope target)
    (hs : side scope target e = .ok s) (ho : s.Supplies o) : o.isResolved = true := by
  rcases side_supplies hs ho with hres | ⟨index, -, hindex⟩ | ⟨c, table, -, hc, hne, hcolumn⟩ |
    ⟨q, slot, -, hq⟩
  · exact hres
  · exact absurd hindex (h.param index)
  · exact absurd (h.column c table hcolumn hc) hne
  · have := h.query _ hq
    simp [Expr.isQuery] at this

/-- A condition whose operands are known is one whose values the store can compare with, if its
bins are read as suitable kinds. -/
lemma Condition.fits_compare {ρ : Resolution} (bin : String) {kind : BinKind} (c : Comparison)
    {o : Operand} (ho : o.isResolved = true) (hkind : kind = o.kind ∨ kind = .unknown) :
    (Condition.compare bin kind c o).fits ρ = true := by
  have hcan : ρ.canCompare o = true := by
    cases o <;> first | rfl | cases ho
  rw [Condition.fits, hcan, Resolution.operand_of_isResolved ho]
  rcases hkind with rfl | rfl <;> simp [BinKind.suits]

/-- A known operand names a key that can be compared. -/
lemma Operand.isComparable_keyOperand? {o : Operand} {k : KeyOperand} (ho : o.isResolved = true)
    (hk : o.keyOperand? = some k) : k.isComparable = true := by
  cases o with
  | integer i =>
    obtain rfl := Option.some.inj hk
    rfl
  | text s =>
    obtain rfl := Option.some.inj hk
    rfl
  | null => cases hk
  | param index => cases ho
  | outer source => cases ho
  | slot index => cases ho

/-- A key that can be compared can be named. -/
lemma KeyOperand.canName_of_isComparable {ρ : Resolution} {k : KeyOperand}
    (hk : k.isComparable = true) : ρ.canName k = true := by
  cases k <;> simp_all [KeyOperand.isComparable, Resolution.canName]

/-- The key that a side of such an expression supplies can be compared. -/
lemma Expr.IsClosed.isComparable {e : Expr} {s : Side} {k : KeyOperand}
    (h : e.IsClosed scope target) (hs : side scope target e = .ok s) (hk : s.SuppliesKey k) :
    k.isComparable = true := by
  cases hk with
  | @value o k hok => exact Operand.isComparable_keyOperand? (h.isResolved hs (.value o)) hok
  | query q slot =>
    have hres := h.isResolved hs (.query q slot)
    cases hres

/-- A comparison of the key with a side that supplies keys that can be compared. -/
lemma NativeCondition.OfKeyComparison.isKnown {ρ : Resolution} {c : Comparison} {s : Side}
    {n : NativeCondition} (h : OfKeyComparison c s n)
    (hs : ∀ k, s.SuppliesKey k → k.isComparable = true) :
    n.isKnown = true ∧ n.fits ρ = true := by
  cases h with
  | null c => exact ⟨rfl, rfl⟩
  | eq hk => exact ⟨hs _ hk, KeyOperand.canName_of_isComparable (hs _ hk)⟩
  | ne hk => exact ⟨hs _ hk, KeyOperand.canName_of_isComparable (hs _ hk)⟩

/-- A bound of a range that is known is an integer. -/
lemma Operand.IsBound.kind_eq {o : Operand} (h : o.IsBound) (ho : o.isResolved = true) :
    .integer = o.kind := by
  cases h with
  | integer i => rfl
  | param index => cases ho

/-- Several conditions are known if each of them is. -/
lemma Condition.unresolvedIn?_eq_none {cs : List Condition} :
    unresolvedIn? cs = none ↔ ∀ c ∈ cs, c.unresolved? = none := by
  induction cs with
  | nil => simp [unresolvedIn?]
  | cons c cs ih => simp [unresolvedIn?, ih]

/-- A bin that is compared with a known operand, as a bin of its kind or of any kind. -/
lemma NativeCondition.isKnown_compare {ρ : Resolution} (bin : String) (c : Comparison)
    {kind : BinKind} {o : Operand} (ho : o.isResolved = true)
    (hkind : kind = o.kind ∨ kind = .unknown) :
    (bins (.compare bin kind c o)).isKnown = true ∧
      (bins (.compare bin kind c o)).fits ρ = true := by
  refine ⟨?_, Condition.fits_compare bin c ho hkind⟩
  simp [NativeCondition.isKnown, Condition.isResolved, Condition.unresolved?, ho]

/-- A range between known bounds has no unknowns. -/
lemma NativeCondition.OfRange.isKnown {ρ : Resolution} {s : Side} {low high : Operand}
    {n : NativeCondition} (h : OfRange s low high n) (hlow : low.isResolved = true)
    (hhigh : high.isResolved = true) (hlowKind : .integer = low.kind)
    (hhighKind : .integer = high.kind) : n.isKnown = true ∧ n.fits ρ = true := by
  cases h with
  | bin bin =>
    have hge := isKnown_compare (ρ := ρ) bin .ge hlow (.inl hlowKind)
    have hle := isKnown_compare (ρ := ρ) bin .le hhigh (.inl hhighKind)
    simp_all [NativeCondition.isKnown, NativeCondition.fits, Condition.isResolved,
      Condition.unresolved?, Condition.unresolvedIn?, Condition.fits, Condition.fitsAll]
  | key hkl hku =>
    have hl := Operand.isComparable_keyOperand? hlow hkl
    have hu := Operand.isComparable_keyOperand? hhigh hku
    simp [NativeCondition.isKnown, NativeCondition.fits, KeyCondition.isComparable,
      KeyCondition.fits, hl, hu, KeyOperand.canName_of_isComparable]

/-- A list of known items has no unknowns.

**Proof sketch.** A bin is compared with every item as a bin of the kind of the item. Keys that are
named by known operands can be compared. -/
lemma NativeCondition.OfMember.isKnown {ρ : Resolution} {s : Side} {os : List Operand}
    {n : NativeCondition} (h : OfMember s os n) (hos : ∀ o ∈ os, o.isResolved = true) :
    n.isKnown = true ∧ n.fits ρ = true := by
  cases h with
  | bin bin =>
    have hall := fun o ho => isKnown_compare (ρ := ρ) bin .eq (hos o ho) (.inl rfl)
    simp only [NativeCondition.isKnown, NativeCondition.fits, Condition.isResolved,
      Option.isNone_iff_eq_none] at hall ⊢
    constructor
    · rw [Condition.unresolved?, Condition.unresolvedIn?_eq_none]
      intro c hc
      obtain ⟨o, ho, rfl⟩ := List.mem_map.mp hc
      exact (hall o ho).1
    · rw [Condition.fits, Condition.fitsAll_eq, List.all_map, List.all_eq_true]
      exact fun o ho => (hall o ho).2
  | @key os ks hks =>
    have hcmp : ∀ k ∈ ks, k.isComparable = true := by
      intro k hk
      obtain ⟨o, ho, hok⟩ := exists_operand_of_mem_keyOperands? hks hk
      exact Operand.isComparable_keyOperand? (hos o ho) hok
    constructor
    · simpa [NativeCondition.isKnown, KeyCondition.isComparable] using hcmp
    · simpa [NativeCondition.fits, KeyCondition.fits] using
        fun k hk => KeyOperand.canName_of_isComparable (hcmp k hk)

/-- **What becomes of an expression over one table without parameters and sub-queries** is a
condition that the store can decide at once.

**Proof sketch.** Induction on the derivation of the shape. Each operand is known because the
expression has no parameters and no sub-queries (`Expr.IsClosed.isResolved`), and a comparison with
a known operand has its kind (`NativeCondition.isKnown_compare`). Ranges and lists are those of
known operands (`NativeCondition.OfRange.isKnown`, `NativeCondition.OfMember.isKnown`). -/
lemma NativeCondition.Of.isKnown {ρ : Resolution} {e : Expr} {n : NativeCondition}
    (h : NativeCondition.Of scope target e n) (hclosed : e.IsClosed scope target) :
    n.isKnown = true ∧ n.fits ρ = true := by
  induction h with
  | @paren e n h ih => exact ih (hclosed.mono (by simp [Expr.parts]))
  | @connective op f l r a b hop hl hr ihl ihr =>
    have hleft := ihl (hclosed.mono (by simp [Expr.parts]))
    have hright := ihr (hclosed.mono (by simp [Expr.parts]))
    cases hop <;>
      simp_all [NativeCondition.isKnown, NativeCondition.fits, Condition.isResolved,
        Condition.unresolved?, Condition.unresolvedIn?, Condition.fits, Condition.fitsAll]
  | @compare c l r s t n hs ht hn =>
    have hleft : l.IsClosed scope target := hclosed.mono (by simp [Expr.parts])
    have hright : r.IsClosed scope target := hclosed.mono (by simp [Expr.parts])
    cases hn with
    | binLeft ho => exact isKnown_compare _ _ (hright.isResolved ht ho) (.inl rfl)
    | binRight ho => exact isKnown_compare _ _ (hleft.isResolved hs ho) (.inl rfl)
    | keyLeft hn => exact hn.isKnown fun k hk => hright.isComparable ht hk
    | keyRight hn => exact hn.isKnown fun k hk => hleft.isComparable hs hk
  | @between e low high s lo hi n hs hlo hhi hn =>
    have hlow : low.IsClosed scope target := hclosed.mono fun p hp => by simp [Expr.parts, hp]
    have hhigh : high.IsClosed scope target := hclosed.mono fun p hp => by simp [Expr.parts, hp]
    have hlores := hlow.isResolved (rangeBound_spec hlo).1 (.value lo)
    have hhires := hhigh.isResolved (rangeBound_spec hhi).1 (.value hi)
    exact hn.isKnown hlores hhires ((rangeBound_spec hlo).2.kind_eq hlores)
      ((rangeBound_spec hhi).2.kind_eq hhires)
  | @member e items s os n hs hos hn =>
    refine hn.isKnown fun o ho => ?_
    obtain ⟨item, hitem, hside⟩ := exists_item_of_mem_listOperands hos ho
    have hclosed' : item.IsClosed scope target :=
      hclosed.mono fun p hp => Expr.mem_parts_inList hitem hp
    exact hclosed'.isResolved hside (.value o)
  | binQuery q slot hs =>
    have := hclosed.query _ (Expr.self_mem_parts _)
    simp [Expr.isQuery] at this
  | keyQuery q slot hs =>
    have := hclosed.query _ (Expr.self_mem_parts _)
    simp [Expr.isQuery] at this

end

/-! ## Agreement on records -/

/-- Whether an expression is a truth value for the compiler: a constant, or a call that is evaluated
at once. -/
def Expr.isTruthConstant (e : Expr) : Bool :=
  match e.unwrap with
  | .literal (.boolean _) => true
  | .call name args distinct =>
    !isAggregateName name && (Expr.call name args distinct).isConstant &&
      match (Expr.call name args distinct).eval [] OrderedMap.empty with
      | .ok (.boolean _) => true
      | _ => false
  | _ => false

/-- Whether some list in an expression has a truth value among its items. -/
def Expr.hasTruthItem (e : Expr) : Bool :=
  e.any (fun s =>
    match s with
    | .inList _ items _ => items.any Expr.isTruthConstant
    | _ => false)

/-- The negative of something is no truth value. -/
lemma negate_ne_boolean {v : Value} {b : Bool} : negate v ≠ .ok (.boolean b) := by
  cases v <;> simp only [negate, checkedInt, ne_eq] <;> try split
  all_goals simp

section

variable {scope : Scope} {target : Nat} {env : EvalEnv}

/-- What is a value for the compiler and evaluates to a truth value is one for the compiler or a
parameter.

**Proof sketch.** By the forms that the compiler distinguishes. A literal is the truth value itself,
a negative number is none, and a constant call is evaluated by the compiler already, with the same
result (`Expr.evalIn_constant`). -/
lemma Expr.isTruthConstant_of_eval {item : Expr} {o : Operand} {b : Bool}
    (hs : side scope target item = .ok (.value o)) (hb : item.evalIn env = .ok (.boolean b)) :
    item.isTruthConstant = true ∨ ∃ index, item.unwrap = .param index := by
  rw [← Expr.evalIn_unwrap] at hb
  unfold side at hs
  unfold Expr.isTruthConstant
  generalize item.unwrap = u at hs hb ⊢
  split at hs
  case h_1 c =>
    simp only [Outcome.bind_eq_ok] at hs
    obtain ⟨table, -, hs⟩ := hs
    split at hs
    · simp at hs
    · split at hs
      · simp at hs
      · split at hs <;> simp at hs
  case h_2 l =>
    cases l <;> simp [Expr.evalIn, Literal.value] at hb
    exact .inl rfl
  case h_3 index => exact .inr ⟨index, rfl⟩
  case h_4 a =>
    simp only [Expr.evalIn, Outcome.bind_eq_ok] at hb
    obtain ⟨w, -, hw⟩ := hb
    exact absurd hw negate_ne_boolean
  case h_5 q => simp [Expr.evalIn] at hb
  case h_6 name args distinct =>
    left
    simp only at hs ⊢
    split at hs
    · rename_i hconstant
      simp only [Bool.and_eq_true] at hconstant
      have heval : (Expr.call name args distinct).eval [] OrderedMap.empty = .ok (.boolean b) := by
        rw [Expr.eval, Expr.evalIn_constant hconstant.2, hb]
      rw [heval, hconstant.1, hconstant.2]
      rfl
    · simp at hs
  case h_7 => simp at hs

/-- Without truth values, in the place of parameters or otherwise, no list has an item that
evaluates to a truth value. -/
lemma Expr.listsAt_of_param {e : Expr}
    (hparam : ∀ a items negated, Expr.inList a items negated ∈ e.parts → ∀ item ∈ items,
      ∀ index, item.unwrap = .param index → ∀ b, param? env.params index ≠ .ok (.boolean b))
    (hitems : e.hasTruthItem = false) :
    ∀ s ∈ e.parts, env.ListsAt scope target s := by
  intro s hs
  cases s with
  | inList a items negated =>
    intro item hitem o hside b hb
    have hnone := Expr.any_eq_false.mp hitems _ hs
    rcases Expr.isTruthConstant_of_eval hside hb with htruth | ⟨index, hindex⟩
    · have := List.any_eq_false.mp hnone item hitem
      exact this htruth
    · rw [← Expr.evalIn_unwrap, hindex] at hb
      exact hparam a items negated hs item hitem index hindex b hb
  | _ => trivial

/-- Without parameters and truth values no list has an item that evaluates to a truth value. -/
lemma Expr.listsAt {e : Expr} (hparam : ∀ index, Expr.param index ∉ e.parts)
    (hitems : e.hasTruthItem = false) :
    ∀ s ∈ e.parts, env.ListsAt scope target s := by
  refine Expr.listsAt_of_param (fun a items negated hs item hitem index hindex => ?_) hitems
  have hmem : Expr.param index ∈ item.parts :=
    item.parts_unwrap (hindex ▸ Expr.self_mem_parts item.unwrap)
  exact absurd (Expr.parts_trans e hs (Expr.mem_parts_inList hitem hmem)) (hparam index)

/-- Columns of a row of a record whose bins have simple names are read as the compiler takes them
to be, if all of them belong to one table. -/
lemma Row.readsAt_ofRecord {ρ : Resolution} {r : Record} (hnames : r.hasSimpleNames = true)
    (withDigest : Bool) (params : List Value) {e : Expr} (hclosed : e.IsClosed scope target) :
    ∀ s ∈ e.parts, ((Row.ofRecord r withDigest).evalEnv params).ReadsAt scope target ρ r s := by
  intro s hs
  cases s with
  | column c =>
    intro table htable
    rw [if_pos (hclosed.column c table hs htable)]
    refine ⟨fun hkey => ?_, fun hkey hdigest => ?_⟩
    · simp only [Row.evalEnv, Row.lookup?_ofRecord_key hnames hkey, Option.getD_some]
    · simp only [Row.evalEnv, Row.lookup?_ofRecord_bin hnames hkey hdigest]
  | param index => exact absurd hs (hclosed.param index)
  | _ => trivial

end

/-! ## Selections from one table -/

/-- In a scope of one table every column belongs to that table. -/
lemma Scope.resolve_singleton {t : TableRef} {c : ColumnRef} {table : Nat}
    (h : Scope.resolve [t] c = .ok table) : table = 0 := by
  unfold Scope.resolve at h
  split at h
  · exact (Except.ok.inj h).symm
  · split at h
    · rename_i name i hi
      obtain rfl := Except.ok.inj h
      have hlt : i < [t].length := by
        unfold Scope.tableOf? at hi
        rcases Option.or_eq_some_iff.mp hi with hi | ⟨-, hi⟩
        · exact (List.findIdx?_eq_some_iff_getElem.mp hi).1
        · exact (List.findIdx?_eq_some_iff_getElem.mp hi).1
      simpa using hlt
    · cases h

/-- In a scope of one table all conjuncts go to that table.

**Proof sketch.** Every column of a scope of one table resolves to that table
(`Scope.resolve_singleton`), so the last table that a conjunct refers to is always the first one
(`hlast`). Then induction on the conjuncts. -/
lemma routeConjuncts_singleton {t : TableRef} {es : List Expr} {routed : List (Nat × Expr)}
    (h : routeConjuncts [t] es = .ok routed) : routed = es.map (fun e => (0, e)) := by
  have hlast : ∀ (cs : List ColumnRef) (last : Nat), lastTable [t] cs = .ok last → last = 0 := by
    intro cs
    induction cs with
    | nil =>
      intro last hl
      exact (Outcome.pure_eq_ok.mp hl).symm
    | cons c cs ih =>
      intro last hl
      simp only [lastTable, Outcome.bind_eq_ok, Outcome.pure_eq_ok] at hl
      obtain ⟨table, htable, rest, hrest, rfl⟩ := hl
      rw [Scope.resolve_singleton htable, ih rest hrest]
      rfl
  induction es generalizing routed with
  | nil => exact (Outcome.pure_eq_ok.mp h).symm
  | cons e es ih =>
    simp only [routeConjuncts, Outcome.bind_eq_ok, Outcome.pure_eq_ok] at h
    obtain ⟨table, htable, rest, hrest, rfl⟩ := h
    rw [hlast _ _ htable, ih hrest]
    rfl

/-- A condition on one table goes to that table as a whole. -/
lemma compileWhere_singleton {compileSub : Query → Except QueryError QueryNode} {t : TableRef}
    {p q : QueryPlan} {e : Expr} (h : compileWhere compileSub [t] p e = .ok q) :
    ∃ m joins, compileMain compileSub [t] p e.conjuncts e = .ok m ∧
      compileJoins compileSub [t] (e.conjuncts.map fun e => (0, e)) 1 m.joins = .ok joins ∧
        q = { m with joins } := by
  unfold compileWhere at h
  simp only [Outcome.bind_eq_ok] at h
  obtain ⟨routed, hrouted, h⟩ := h
  obtain rfl := routeConjuncts_singleton hrouted
  have hmain : ((e.conjuncts.map fun e => (0, e)).filter fun r => r.1 == 0).map Prod.snd =
      e.conjuncts := by
    simp [List.filter_map, Function.comp_def]
  have hall : ((e.conjuncts.map fun e => (0, e)).all fun r => r.1 == 0) = true := by simp
  simp only [hmain, hall, if_true, Outcome.bind_eq_ok, Outcome.pure_eq_ok] at h
  obtain ⟨m, hm, joins, hjoins, rfl⟩ := h
  exact ⟨m, joins, hm, hjoins, rfl⟩

/-- **A condition that the store decides is decided as the evaluator does.** If a condition on one
table without parameters, sub-queries and truth values in lists compiles without anything left to
decide row by row, then on every record whose bins hold integers and texts under simple names, the
programs of the plan accept the record exactly if the condition is true on its row, whenever it has
a value there.

**Proof sketch.** Every conjunct became a condition that decides it (`NativeCondition.Of.decides`),
and the plan holds the conjunction of these. Its programs decide it as nothing in it is unknown. -/
theorem compileWhere_verdict {compileSub : Query → Except QueryError QueryNode} {t : TableRef}
    {p p' : QueryPlan} {e : Expr} {params : List Value} {r : Record} {withDigest : Bool} {v : Value}
    (hcompile : compileWhere compileSub [t] p e = .ok p') (hcondition : p.condition = none)
    (hkey : p.keyCondition = none) (hnative : p'.rowFilter = none) (hquery : e.hasQuery = false)
    (hparam : e.any Expr.isParam = false) (hitems : e.hasTruthItem = false)
    (hplain : r.isPlain = true) (hnames : r.hasSimpleNames = true)
    (hv : e.eval params (Row.ofRecord r withDigest) = .ok v) :
    p'.verdict r = .ok v.isTruthy := by
  have hclosed : e.IsClosed [t] 0 :=
    { param := fun index hs => by simpa [Expr.isParam] using Expr.any_eq_false.mp hparam _ hs
      query := Expr.any_eq_false.mp hquery
      column := fun c table _ htable => Scope.resolve_singleton htable }
  simp only [compileWhere, Outcome.bind_eq_ok] at hcompile
  obtain ⟨routed, hrouted, hcompile⟩ := hcompile
  obtain rfl := routeConjuncts_singleton hrouted
  have hmain : ((e.conjuncts.map (fun e => (0, e))).filter (fun r => r.1 == 0)).map Prod.snd =
      e.conjuncts := by
    simp [List.filter_map, Function.comp_def]
  have hall : (e.conjuncts.map (fun e => (0, e))).all (fun r => r.1 == 0) = true := by
    simp [List.all_map, Function.comp_def]
  simp only [hmain, hall, if_true, Outcome.bind_eq_ok, Outcome.pure_eq_ok] at hcompile
  obtain ⟨q, hq, joins, -, rfl⟩ := hcompile
  rcases compileMain_cases hq with ⟨-, parts, slots, hfst, hof, rfl⟩ | ⟨-, rfl⟩
  · have hsub : ∀ a ∈ parts, a.1.parts ⊆ e.parts := by
      intro a ha
      refine Expr.parts_conjuncts e ?_
      rw [← hfst]
      exact List.mem_map_of_mem ha
    have hknown : ∀ a ∈ parts, a.2.isKnown = true ∧ a.2.fits .unknown = true :=
      fun a ha => (hof a ha).isKnown (hclosed.mono (hsub a ha))
    have hparts : ∀ a ∈ parts, Decides (a.2.holdsIn .unknown r)
        (a.1.evalIn ((Row.ofRecord r withDigest).evalEnv params)) := by
      intro a ha
      refine (hof a ha).decides hplain ?_ ?_ (hknown a ha).2
      · exact fun s hs => Row.readsAt_ofRecord hnames withDigest params hclosed s (hsub a ha hs)
      · exact fun s hs => Expr.listsAt hclosed.param hitems s (hsub a ha hs)
    have htruth := Decides.conjuncts e parts hfst hparts v hv
    have hempty : p.toTablePlan.isKnown = true ∧ p.toTablePlan.holdsIn .unknown r = true := by
      simp [TablePlan.isKnown, TablePlan.holdsIn, hcondition, hkey]
    have hplan : ((parts.map Prod.snd).foldl TablePlan.addNative p.toTablePlan).isKnown = true := by
      refine TablePlan.isKnown_foldl_addNative hempty.1 fun n hn => ?_
      obtain ⟨a, ha, rfl⟩ := List.mem_map.mp hn
      exact (hknown a ha).1
    rw [TablePlan.verdict_eq .unknown hplan, TablePlan.holdsIn_foldl_addNative, hempty.2,
      Bool.true_and, List.all_map, htruth]
    rfl
  · simp at hnative

/-- The condition `PK IN ('k', NULL) AND (n BETWEEN 1 AND 5 OR s.t = 'x')` is decided for a record
with the key `k` and the bin `n`. -/
theorem compileWhere_verdict_record :
    let e : Expr := .binary .and
      (.inList (.column ⟨none, "PK"⟩) [.literal (.text "k"), .literal .null] false)
      (.paren (.binary .or
        (.between (.column ⟨none, "n"⟩) (.literal (.integer 1)) (.literal (.integer 5)) false)
        (.binary (.compare .eq) (.column ⟨some "s", "t"⟩) (.literal (.text "x")))))
    let r : Record := ⟨⟨"ns", "s", .text "k"⟩, OrderedMap.empty.set "n" (.integer 3)⟩
    let p : QueryPlan := .ofTable (.ofSet "ns" (some "s") none)
    ∃ p', compileWhere (fun _ => .error .nestingTooDeep) [⟨some "s", none⟩] p e = .ok p' ∧
      p'.verdict r = .ok true := by
  intro e r p
  have hcompile : compileWhere (fun _ => .error .nestingTooDeep) [⟨some "s", none⟩] p e = .ok _ :=
    rfl
  have hv : e.eval [] (Row.ofRecord r false) = .ok (.boolean true) := rfl
  exact ⟨_, hcompile,
    compileWhere_verdict hcompile rfl rfl rfl rfl rfl rfl rfl (by decide) hv⟩

end RecordQuery
