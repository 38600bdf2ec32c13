import RecordQuery.Proofs.Compile.Closed
import RecordQuery.Proofs.Plan.Kinds
import RecordQuery.Proofs.Plan.Substitution
import RecordQuery.Proofs.Plan.Unknowns
import RecordQuery.Proofs.Predicate.Meaning

set_option autoImplicit false

/-!
# Conjuncts with parameters and values of other tables

What becomes of a conjunct may wait for parameters and, on a joined table, for values of the row.
If the parameters have suitable values and those of the row are no floats, the conjunct still
decides the expression it came from, and so does the plan of a table whose parameters are bound.

## Main definitions

* `Expr.IsSupplied` — the unknowns of an expression have values with which the store compares.
* `TablePlan.Means` — a plan stands for conjuncts.

## Main results

* `NativeCondition.Of.fits` — the values of the unknowns are ones that the store can compare with.
* `TablePlan.means_of_bindConditions` — a plan with conjuncts, once it is bound, stands for them.
-/

namespace RecordQuery

open Outcome

section

variable {scope : Scope} {target : Nat} {params : List Value} {ρ : Resolution}

/-! ## Conjuncts -/

/-- The unknowns of an expression have values with which the store compares: there is no
sub-query, the parameters have values that are null, truth values, integers or texts, and the values
of other tables are no floats. -/
structure Expr.IsSupplied (scope : Scope) (target : Nat) (params : List Value) (ρ : Resolution)
    (e : Expr) : Prop where
  /-- The parameters. -/
  param : ∀ index, Expr.param index ∈ e.parts → ∃ v, RecordQuery.param? params index = .ok v ∧
    v.isJoinable = true
  /-- The values of other tables. -/
  outer : ∀ c table, Expr.column c ∈ e.parts → scope.resolve c = .ok table → table ≠ target →
    (ρ.outer (scope.rowKey table c.name)).isFloat = false
  /-- There is no sub-query. -/
  query : ∀ s ∈ e.parts, s.isQuery = false

/-- A part of such an expression is one, too. -/
lemma Expr.IsSupplied.mono {e a : Expr} (h : e.IsSupplied scope target params ρ)
    (ha : a.parts ⊆ e.parts) : a.IsSupplied scope target params ρ :=
  ⟨fun index hs => h.param index (ha hs), fun c table hs => h.outer c table (ha hs),
    fun s hs => h.query s (ha hs)⟩

/-- With a value with which it can compare the store compares as the evaluator does. -/
lemma Value.isFloat_of_isJoinable {v : Value} (h : v.isJoinable = true) : v.isFloat = false := by
  cases v <;> first | rfl | cases h

/-- Parameters in such an expression are no floats. -/
lemma Expr.IsSupplied.isFloat {e : Expr} {index : Nat} (h : e.IsSupplied scope target params ρ)
    (hρ : ρ.Gives params) (hindex : Expr.param index ∈ e.parts) :
    (ρ.param index).isFloat = false := by
  obtain ⟨v, hv, hjoinable⟩ := h.param index hindex
  rw [hρ index v hv]
  exact Value.isFloat_of_isJoinable hjoinable

/-- The store compares with the operands of such an expression. -/
lemma Expr.IsSupplied.canCompare {e : Expr} {s : Side} {o : Operand}
    (h : e.IsSupplied scope target params ρ) (hρ : ρ.Gives params)
    (hs : side scope target e = .ok s) (ho : s.Supplies o) : ρ.canCompare o = true := by
  rcases side_supplies hs ho with hres | ⟨index, rfl, hindex⟩ | ⟨c, table, rfl, hc, hne, hcolumn⟩ |
    ⟨q, slot, -, hq⟩
  · cases o <;> first | rfl | cases hres
  · rw [Resolution.canCompare, h.isFloat hρ hindex]
    rfl
  · rw [Resolution.canCompare, h.outer c table hcolumn hc hne]
    rfl
  · have hnone := h.query _ hq
    cases hnone

/-- The keys in such an expression can be bound. -/
lemma Expr.IsSupplied.isBindable {e : Expr} {s : Side} {o : Operand} {k : KeyOperand}
    (h : e.IsSupplied scope target params ρ) (hs : side scope target e = .ok s)
    (ho : s.Supplies o) (hk : o.keyOperand? = some k) : k.isBindable params = true := by
  rcases side_supplies hs ho with hres | ⟨index, rfl, hindex⟩ | ⟨c, table, rfl, -, -, -⟩ |
    ⟨q, slot, rfl, -⟩
  · have hcomparable := Operand.isComparable_keyOperand? hres hk
    cases k with
    | key k => exact hcomparable
    | param index => cases hcomparable
    | slot slot => cases hcomparable
  · obtain rfl := Option.some.inj hk
    obtain ⟨v, hv, hjoinable⟩ := h.param index hindex
    simpa [KeyOperand.isBindable, hv, Except.toOption] using hjoinable
  · cases hk
  · cases hk

/-- A key that can be bound can be named. -/
lemma KeyOperand.canName_of_isBindable {k : KeyOperand} (hρ : ρ.Gives params)
    (hk : k.isBindable params = true) : ρ.canName k = true := by
  cases k with
  | key k => rfl
  | slot slot => cases hk
  | param index =>
    cases hv : param? params index with
    | error e => simp [isBindable, hv, Except.toOption] at hk
    | ok v =>
      have hjoinable : v.isJoinable = true := by
        simpa [isBindable, hv, Except.toOption] using hk
      rw [Resolution.canName, hρ index v hv, Value.isFloat_of_isJoinable hjoinable]
      rfl

/-- The keys that a side supplies in such an expression can be bound. -/
lemma Expr.IsSupplied.isBindable_of_suppliesKey {e : Expr} {s : Side} {k : KeyOperand}
    (h : e.IsSupplied scope target params ρ) (hs : side scope target e = .ok s)
    (hk : s.SuppliesKey k) : k.isBindable params = true := by
  cases hk with
  | @value o k hok => exact h.isBindable hs (.value o) hok
  | query q slot =>
    rcases side_supplies hs (.query q slot) with hres | ⟨_, heq, -⟩ | ⟨_, _, heq, -⟩ |
      ⟨q', slot', -, hq⟩
    · cases hres
    · cases heq
    · cases heq
    · have hnone := h.query _ hq
      cases hnone

/-- The conditions on the key that become of a conjunct: all keys in them can be bound. -/
inductive KeyCondition.IsOf (params : List Value) : KeyCondition → Prop
  /-- No key. -/
  | none : IsOf params .none
  /-- This key. -/
  | equal {k : KeyOperand} : k.isBindable params = true → IsOf params (.equal k)
  /-- Another key. -/
  | notEqual {k : KeyOperand} : k.isBindable params = true → IsOf params (.notEqual k)
  /-- A key between two. -/
  | range {low high : KeyOperand} : low.isBindable params = true →
      high.isBindable params = true → IsOf params (.range low high)
  /-- One of several keys. -/
  | among {ks : List KeyOperand} : (∀ k ∈ ks, k.isBindable params = true) →
      IsOf params (.among ks)

namespace KeyCondition.IsOf

variable {c : KeyCondition}

/-- Such a condition is not put together from others. -/
lemma isSimple (h : c.IsOf params) : c.isSimple = true := by
  cases h <;> rfl

/-- The keys in such a condition can be named. -/
lemma fits (h : c.IsOf params) (hρ : ρ.Gives params) : c.fits ρ = true := by
  cases h with
  | none => rfl
  | equal hk => exact KeyOperand.canName_of_isBindable hρ hk
  | notEqual hk => exact KeyOperand.canName_of_isBindable hρ hk
  | range hl hu =>
    rw [KeyCondition.fits, KeyOperand.canName_of_isBindable hρ hl,
      KeyOperand.canName_of_isBindable hρ hu]
    rfl
  | among hks =>
    rw [KeyCondition.fits]
    exact List.all_eq_true.mpr fun k hk => KeyOperand.canName_of_isBindable hρ (hks k hk)

/-- **Such a condition is bound to one that can be compared.**

**Proof sketch.** By the forms of the condition. Each key that can be bound is bound to a key that
can be compared, or to null (`KeyOperand.exists_bind`); a null makes the condition one that finds
nothing, which can be compared as well. -/
lemma exists_bind (h : c.IsOf params) :
    ∃ d, c.bind params = .ok d ∧ d.isComparable = true := by
  cases h with
  | none => exact ⟨.none, rfl, rfl⟩
  | equal hk =>
    obtain ⟨bound, hbound, hall⟩ := KeyOperand.exists_bind hk
    refine ⟨(bound.map .equal).getD .none, by simp only [bind, hbound, ok_bind]; rfl, ?_⟩
    cases bound with
    | none => rfl
    | some k => exact hall
  | notEqual hk =>
    obtain ⟨bound, hbound, hall⟩ := KeyOperand.exists_bind hk
    refine ⟨(bound.map .notEqual).getD .none, by simp only [bind, hbound, ok_bind]; rfl, ?_⟩
    cases bound with
    | none => rfl
    | some k => exact hall
  | range hl hu =>
    obtain ⟨l, hlow, hcmp⟩ := KeyOperand.exists_bind hl
    obtain ⟨u, hhigh, hcmp'⟩ := KeyOperand.exists_bind hu
    simp only [bind, hlow, hhigh, ok_bind]
    cases l with
    | none => exact ⟨.none, rfl, rfl⟩
    | some l =>
      cases u with
      | none => exact ⟨.none, rfl, rfl⟩
      | some u =>
        refine ⟨.range l u, rfl, ?_⟩
        rw [isComparable, Bool.and_eq_true]
        exact ⟨hcmp, hcmp'⟩
  | among hks =>
    obtain ⟨ks', hks', hall⟩ := exists_bindKeys hks
    exact ⟨.among ks', by simp only [bind, hks', ok_bind]; rfl, hall⟩

end KeyCondition.IsOf

namespace NativeCondition

variable {e : Expr} {n : NativeCondition}

/-- What becomes of a comparison of the key. -/
lemma OfKeyComparison.isOf {c : Comparison} {s : Side} (h : OfKeyComparison c s n)
    (hs : ∀ k, s.SuppliesKey k → k.isBindable params = true) :
    ∃ k, n = .key k ∧ k.IsOf params := by
  cases h with
  | null c => exact ⟨_, rfl, .none⟩
  | eq hk => exact ⟨_, rfl, .equal (hs _ hk)⟩
  | ne hk => exact ⟨_, rfl, .notEqual (hs _ hk)⟩

/-- **What becomes of such a conjunct on the key.**

**Proof sketch.** Induction on the derivation of the shape. AND, OR and comparisons of bins give no
condition on the key. A comparison, a range and a list give one whose keys are the operands of their
sides, and what a side supplies can be bound (`Expr.IsSupplied.isBindable`). -/
theorem Of.isOf (h : Of scope target e n) (hsupplied : e.IsSupplied scope target params ρ) :
    ∀ k, n = .key k → k.IsOf params := by
  have hsame : ∀ {k k' : KeyCondition}, n = .key k → n = .key k' → k.IsOf params →
      k'.IsOf params := by
    rintro k k' rfl heq hk
    rw [← NativeCondition.key.inj heq]
    exact hk
  induction h with
  | paren h ih => exact ih (hsupplied.mono (by simp [Expr.parts])) hsame
  | connective hop hl hr => nofun
  | @compare c l r s t n hs ht hn =>
    intro k hk
    have hleft : l.IsSupplied scope target params ρ := hsupplied.mono (by simp [Expr.parts])
    have hright : r.IsSupplied scope target params ρ := hsupplied.mono (by simp [Expr.parts])
    cases hn with
    | binLeft ho => cases hk
    | binRight ho => cases hk
    | keyLeft hn =>
      obtain ⟨k', rfl, hof⟩ := hn.isOf fun k hk => hright.isBindable_of_suppliesKey ht hk
      exact hsame rfl hk hof
    | keyRight hn =>
      obtain ⟨k', rfl, hof⟩ := hn.isOf fun k hk => hleft.isBindable_of_suppliesKey hs hk
      exact hsame rfl hk hof
  | @between e low high s lo hi n hs hlo hhi hn =>
    intro k hk
    subst hk
    have hlow : low.IsSupplied scope target params ρ :=
      hsupplied.mono fun p hp => by simp [Expr.parts, hp]
    have hhigh : high.IsSupplied scope target params ρ :=
      hsupplied.mono fun p hp => by simp [Expr.parts, hp]
    cases hn with
    | key hkl hkh =>
      exact .range (hlow.isBindable (rangeBound_spec hlo).1 (.value lo) hkl)
        (hhigh.isBindable (rangeBound_spec hhi).1 (.value hi) hkh)
  | @member e items s os n hs hos hn =>
    intro k hk
    subst hk
    cases hn with
    | key hks =>
      refine .among fun k hk => ?_
      obtain ⟨o, ho, hok⟩ := exists_operand_of_mem_keyOperands? hks hk
      obtain ⟨item, hitem, hside⟩ := exists_item_of_mem_listOperands hos ho
      have hitem' : item.IsSupplied scope target params ρ :=
        hsupplied.mono fun p hp => Expr.mem_parts_inList hitem hp
      exact hitem'.isBindable hside (.value o) hok
  | binQuery q slot hs => nofun
  | keyQuery q slot hs =>
    have hnone := hsupplied.query _ (Expr.self_mem_parts _)
    cases hnone

/-- The kind of an operand suits its value. -/
lemma suits_kind (o : Operand) : o.kind.suits (ρ.operand o) = true := by
  cases o <;> simp [BinKind.suits, Operand.kind, Resolution.operand]

/-- A bin that is read as an integer is compared with an integer, once it is bound. -/
lemma suits_of_bind {o : Operand} {bin : String} {c : Comparison} {d : Condition}
    (hρ : ρ.Gives params) (ho : o.IsBound)
    (h : (Condition.compare bin .integer c o).bind params = .ok d) :
    BinKind.integer.suits (ρ.operand o) = true := by
  cases ho with
  | integer i => rfl
  | param index =>
    obtain ⟨ok, hok, -⟩ := bind_eq_ok.mp h
    obtain ⟨v, hv, hok⟩ := bind_eq_ok.mp hok
    rw [Resolution.operand, hρ index v hv]
    split at hok
    · simp at hok
    · rename_i hintegral
      cases v <;> first | rfl | simp [Value.isIntegral] at hintegral

/-- **The values of the unknowns of such a conjunct are ones that the store can compare with**, if
binding takes them.

**Proof sketch.** Induction on the derivation of the shape. A bound condition of two has both of its
parts bound (`Condition.bind_pair`), which the induction hypotheses ask for. An operand can be
compared with because its side is supplied, and it has the kind of its comparison or, in a range,
the kind that binding has found (`suits_of_bind`). Conditions on the key are those of `Of.isOf`. -/
theorem Of.fits (h : Of scope target e n) (hρ : ρ.Gives params)
    (hsupplied : e.IsSupplied scope target params ρ)
    (hbind : ∀ c, n = .bins c → ∃ d, c.bind params = .ok d) : n.fits ρ = true := by
  have hcompare : ∀ {a : Expr} {s : Side} {o : Operand} (bin : String) (c : Comparison),
      a.IsSupplied scope target params ρ → side scope target a = .ok s → s.Supplies o →
      (Condition.ofOperand bin c o).fits ρ = true := by
    intro a s o bin c ha hs ho
    rw [Condition.ofOperand, Condition.fits, ha.canCompare hρ hs ho, suits_kind]
    rfl
  induction h with
  | paren h ih => exact ih (hsupplied.mono (by simp [Expr.parts])) hbind
  | @connective op f l r a b hop hl hr ihl ihr =>
    obtain ⟨d, hd⟩ := hbind _ rfl
    obtain ⟨a', b', ha, hb, -, -⟩ := Condition.bind_pair hop.eq_all_or_any hd
    have hleft : (bins a).fits ρ = true := ihl (hsupplied.mono (by simp [Expr.parts]))
      fun c hc => ⟨a', NativeCondition.bins.inj hc ▸ ha⟩
    have hright : (bins b).fits ρ = true := ihr (hsupplied.mono (by simp [Expr.parts]))
      fun c hc => ⟨b', NativeCondition.bins.inj hc ▸ hb⟩
    cases hop <;>
      simpa [NativeCondition.fits, Condition.fits, Condition.fitsAll] using And.intro hleft hright
  | @compare c l r s t n hs ht hn =>
    have hleft : l.IsSupplied scope target params ρ := hsupplied.mono (by simp [Expr.parts])
    have hright : r.IsSupplied scope target params ρ := hsupplied.mono (by simp [Expr.parts])
    cases hn with
    | @binLeft bin c s o ho => exact hcompare bin c hright ht ho
    | @binRight bin c s o ho => exact hcompare bin c.mirrored hleft hs ho
    | keyLeft hn =>
      obtain ⟨k, rfl, hof⟩ := hn.isOf fun k hk => hright.isBindable_of_suppliesKey ht hk
      exact hof.fits hρ
    | keyRight hn =>
      obtain ⟨k, rfl, hof⟩ := hn.isOf fun k hk => hleft.isBindable_of_suppliesKey hs hk
      exact hof.fits hρ
  | @between e low high s lo hi n hs hlo hhi hn =>
    cases hn with
    | key hkl hkh =>
      exact (Of.isOf (.between hs hlo hhi (.key hkl hkh)) hsupplied _ rfl).fits hρ
    | bin bin =>
      have hlow : low.IsSupplied scope target params ρ :=
        hsupplied.mono fun p hp => by simp [Expr.parts, hp]
      have hhigh : high.IsSupplied scope target params ρ :=
        hsupplied.mono fun p hp => by simp [Expr.parts, hp]
      have hcan := hlow.canCompare hρ (rangeBound_spec hlo).1 (.value lo)
      have hcan' := hhigh.canCompare hρ (rangeBound_spec hhi).1 (.value hi)
      obtain ⟨d, hd⟩ := hbind _ rfl
      obtain ⟨d₁, d₂, hd₁, hd₂, -, -⟩ := Condition.bind_pair (.inl rfl) hd
      have hsuits := suits_of_bind hρ (rangeBound_spec hlo).2 hd₁
      have hsuits' := suits_of_bind hρ (rangeBound_spec hhi).2 hd₂
      simp [NativeCondition.fits, Condition.fits, Condition.fitsAll, hcan, hcan', hsuits, hsuits']
  | @member e items s os n hs hos hn =>
    cases hn with
    | key hks => exact (Of.isOf (.member hs hos (.key hks)) hsupplied _ rfl).fits hρ
    | bin bin =>
      rw [NativeCondition.fits, Condition.fits, Condition.fitsAll_eq, List.all_map,
        List.all_eq_true]
      intro o ho
      obtain ⟨item, hitem, hside⟩ := exists_item_of_mem_listOperands hos ho
      have hitem' : item.IsSupplied scope target params ρ :=
        hsupplied.mono fun p hp => Expr.mem_parts_inList hitem hp
      exact hcompare bin .eq hitem' hside (.value o)
  | binQuery q slot hs => rfl
  | keyQuery q slot hs => rfl

end NativeCondition

end

/-! ## Plans of tables -/

/-- A plan, its parameters bound, stands for conjuncts: a record satisfies its conditions if it
satisfies the conjuncts, and the store can run the conditions once the values of other tables are in
place. -/
structure TablePlan.Means (params : List Value) (ns : List NativeCondition) (p : TablePlan) :
    Prop where
  /-- A record satisfies the conditions if it satisfies the conjuncts. -/
  holdsIn : ∀ ρ : Resolution, ρ.Gives params → ∀ r,
    p.holdsIn ρ r = ns.all (NativeCondition.holdsIn ρ r)
  /-- The condition on the key can be compared. -/
  comparable : p.keyCondition.all KeyCondition.isComparable = true
  /-- The kinds as which bins are read fit. -/
  kinded : p.condition.all Condition.isKinded = true

namespace TablePlan

variable {params : List Value} {t p : TablePlan} {ns : List NativeCondition}

/-- If a plan with more conditions is bound, each of these is. -/
lemma exists_bind_of_foldl {c : Option Condition}
    (h : (ns.foldl addNative t).condition.mapM (Condition.bind params) = .ok c) :
    (∃ d, t.condition.mapM (Condition.bind params) = .ok d) ∧
      ∀ d, .bins d ∈ ns → ∃ d', d.bind params = .ok d' := by
  induction ns generalizing t with
  | nil => exact ⟨⟨c, h⟩, fun d hd => absurd hd List.not_mem_nil⟩
  | cons n ns ih =>
    obtain ⟨⟨d, hd⟩, hrest⟩ := ih h
    cases n with
    | key k =>
      refine ⟨⟨d, hd⟩, fun d hmem => hrest d ?_⟩
      exact (List.mem_cons.mp hmem).resolve_left nofun
    | bins b =>
      obtain ⟨e, b', he, hb, -, -⟩ := bind_addCondition hd
      refine ⟨⟨e, he⟩, fun d hmem => ?_⟩
      rcases List.mem_cons.mp hmem with heq | hmem
      · obtain rfl := NativeCondition.bins.inj heq
        exact ⟨b', hb⟩
      · exact hrest d hmem

/-- The condition on the key is bound to one that can be compared, if each part of it is.

**Proof sketch.** Induction on the conditions. One on a bin leaves the condition on the key alone;
one on the key is bound by itself (`KeyCondition.IsOf.exists_bind`) and joined to what was there
(`KeyBinds.add`). -/
lemma exists_keyBinds {k : Option KeyCondition} (h : KeyBinds params t.keyCondition k)
    (hk : k.all KeyCondition.isComparable = true)
    (hns : ∀ c, .key c ∈ ns → c.IsOf params) :
    ∃ k', KeyBinds params (ns.foldl addNative t).keyCondition k' ∧
      k'.all KeyCondition.isComparable = true := by
  induction ns generalizing t k with
  | nil => exact ⟨k, h, hk⟩
  | cons n ns ih =>
    have hrest : ∀ c, .key c ∈ ns → c.IsOf params := fun c hc => hns c (List.mem_cons_of_mem n hc)
    cases n with
    | bins b => exact ih (t := t.addCondition b) h hk hrest
    | key c =>
      have hof := hns c List.mem_cons_self
      obtain ⟨d, hd, hcomparable⟩ := hof.exists_bind
      have hadd : KeyBinds params (t.addKeyCondition c).keyCondition
          (({ t with keyCondition := k } : TablePlan).addKeyCondition d).keyCondition :=
        KeyBinds.add h hof.isSimple hd
      refine ih (t := t.addKeyCondition c) hadd ?_ hrest
      cases k with
      | none => exact hcomparable
      | some k => exact KeyCondition.isComparable_and hk hcomparable

/-- The kinds in a plan with more conditions fit. -/
lemma isKinded_foldl (ht : t.condition.all Condition.isKinded = true)
    (hns : ∀ n ∈ ns, n.isKinded = true) :
    (ns.foldl addNative t).condition.all Condition.isKinded = true := by
  induction ns generalizing t with
  | nil => exact ht
  | cons n ns ih =>
    refine ih ?_ fun m hm => hns m (List.mem_cons_of_mem n hm)
    have hn := hns n List.mem_cons_self
    cases n with
    | key k => exact ht
    | bins b =>
      cases hcondition : t.condition with
      | none => simpa [addNative, addCondition, hcondition, NativeCondition.isKinded] using hn
      | some d =>
        have hd : d.isKinded = true := by simpa [hcondition] using ht
        simpa [addNative, addCondition, hcondition, Condition.isKinded, Condition.areKinded, hd,
          NativeCondition.isKinded] using hn

/-- **A plan with conjuncts, once it is bound, stands for them.**

**Proof sketch.** The plan holds the conjunction of the conditions (`holdsIn_foldl_addNative`), and
binding changes neither the part on bins nor that on the key in its meaning
(`Condition.holdsIn_bind`, `KeyCondition.holdsIn_bind`). That the keys can be compared is
`exists_keyBinds`, that the kinds fit is `isKinded_foldl`. -/
theorem means_of_bindConditions (hcondition : t.condition = none) (hkey : t.keyCondition = none)
    (hns : ∀ n ∈ ns, n.isKinded = true) (hkeys : ∀ c, .key c ∈ ns → c.IsOf params)
    (h : (ns.foldl addNative t).bindConditions params = .ok p) : p.Means params ns := by
  simp only [bindConditions, bind_eq_ok, pure_eq_ok] at h
  obtain ⟨c, hc, k, hk, rfl⟩ := h
  refine ⟨fun ρ hρ r => ?_, ?_, ?_⟩
  · have hall : (ns.foldl addNative t).holdsIn ρ r = ns.all (NativeCondition.holdsIn ρ r) := by
      rw [holdsIn_foldl_addNative]
      simp [TablePlan.holdsIn, hcondition, hkey]
    rw [← hall]
    refine congrArg₂ and ?_ ?_
    · rcases mapM_eq_ok hc with ⟨hnone, rfl⟩ | ⟨d, d', hd, rfl, hbind⟩
      · rw [hnone]
      · rw [hd]
        exact Condition.holdsIn_bind hρ r d d' hbind
    · rcases mapM_eq_ok hk with ⟨hnone, rfl⟩ | ⟨d, d', hd, rfl, hbind⟩
      · rw [hnone]
      · rw [hd]
        exact KeyCondition.holdsIn_bind hρ r.key.user d d' hbind
  · have hempty : KeyBinds params t.keyCondition none := by
      rw [hkey]
      exact .none
    obtain ⟨k', hk', hall⟩ := exists_keyBinds hempty rfl hkeys
    obtain rfl := Except.ok.inj (hk.symm.trans hk'.bound)
    exact hall
  · have hkinded := isKinded_foldl (t := t) (by rw [hcondition]; rfl) hns
    rcases mapM_eq_ok hc with ⟨hnone, rfl⟩ | ⟨d, d', hd, rfl, hbind⟩
    · rfl
    · rw [hd] at hkinded
      exact Condition.isKinded_bind hbind hkinded

end TablePlan

end RecordQuery
