import RecordQuery.Proofs.Compile.Side

set_option autoImplicit false

/-!
# Agreement of the store and the evaluator

A condition that the compiler leaves to the store decides records without evaluating the expression
that it came from. Whenever the evaluator gives that expression a value on a record, the compiled
condition decides the record in the same way. The evaluator may fail where the store decides.

## Main definitions

* `NativeCondition.holdsIn` — whether a record satisfies a compiled condition.
* `NativeCondition.fits` — the values of the unknowns are ones that the store can compare with.
* `EvalEnv.ListsAt` — no item of a list is a truth value.

## Main results

* `NativeCondition.Of.decides` — a compiled condition decides the expression it came from.
-/

namespace RecordQuery

/-! ## Meaning of compiled conditions -/

/-- Whether a key can be named once its value is in place. A float is truncated, so it names a key
that it does not equal. -/
def Resolution.canName (ρ : Resolution) : KeyOperand → Bool
  | .param index => !(ρ.param index).isFloat
  | _ => true

mutual

/-- Whether the store can compare with the values of a condition and reads bins as their kind. -/
def Condition.fits (ρ : Resolution) : Condition → Bool
  | .compare _ kind _ o => ρ.canCompare o && kind.suits (ρ.operand o)
  | .inSlot .. => true
  | .all cs => Condition.fitsAll ρ cs
  | .any cs => Condition.fitsAll ρ cs

/-- Whether the store can compare with the values of several conditions. -/
def Condition.fitsAll (ρ : Resolution) : List Condition → Bool
  | [] => true
  | c :: cs => Condition.fits ρ c && Condition.fitsAll ρ cs

end

mutual

/-- Whether the values of a condition on the key can name keys. -/
def KeyCondition.fits (ρ : Resolution) : KeyCondition → Bool
  | .equal o => ρ.canName o
  | .among os => os.all ρ.canName
  | .inSlot _ => true
  | .notEqual o => ρ.canName o
  | .range low high => ρ.canName low && ρ.canName high
  | .all cs => KeyCondition.fitsAll ρ cs

/-- Whether the values of several conditions on the key can name keys. -/
def KeyCondition.fitsAll (ρ : Resolution) : List KeyCondition → Bool
  | [] => true
  | c :: cs => KeyCondition.fits ρ c && KeyCondition.fitsAll ρ cs

end

namespace NativeCondition

/-- Whether a record satisfies a compiled condition, given the values of the unknowns. -/
def holdsIn (ρ : Resolution) (r : Record) : NativeCondition → Bool
  | bins c => c.holdsIn ρ r
  | key c => c.holdsIn ρ r.key.user

/-- Whether the values of the unknowns are ones that the store can compare with. -/
def fits (ρ : Resolution) : NativeCondition → Bool
  | bins c => c.fits ρ
  | key c => c.fits ρ

end NativeCondition

/-- No item of a list, as far as it is a value for the compiler, is a truth value. The store would
compare it as an integer and the evaluator does not. -/
def EvalEnv.ListsAt (env : EvalEnv) (scope : Scope) (target : Nat) : Expr → Prop
  | .inList _ items _ => ∀ item ∈ items, ∀ o, side scope target item = .ok (.value o) →
      ∀ b, item.evalIn env ≠ .ok (.boolean b)
  | _ => True

section

variable {scope : Scope} {target : Nat} {env : EvalEnv} {ρ : Resolution} {r : Record}

/-! ## Comparisons -/

/-- An operand that names a key stands for the values of that key. -/
lemma Operand.Denotes.key? {o : Operand} {k : KeyOperand} {v : Value} (h : o.Denotes ρ v)
    (hk : o.keyOperand? = some k) : ρ.key? k = (UserKey.ofValue? v).toOption := by
  cases o with
  | integer i =>
    obtain rfl := Option.some.inj hk
    rcases h with rfl | ⟨b, rfl, rfl⟩
    · rfl
    · rfl
  | text s =>
    obtain rfl := Option.some.inj hk
    rw [h]
    rfl
  | param index =>
    obtain rfl := Option.some.inj hk
    rw [h]
    rfl
  | null => cases hk
  | outer source => cases hk
  | slot index => cases hk

/-- The values of an operand that names a key are no floats. -/
lemma Operand.Denotes.isFloat {o : Operand} {k : KeyOperand} {v : Value} (h : o.Denotes ρ v)
    (hk : o.keyOperand? = some k) (hname : ρ.canName k = true) : v.isFloat = false := by
  cases o with
  | integer i =>
    rcases h with rfl | ⟨b, rfl, rfl⟩
    · rfl
    · rfl
  | text s =>
    rw [h]
    rfl
  | param index =>
    obtain rfl := Option.some.inj hk
    rw [h]
    simpa [Resolution.canName] using hname
  | null => cases hk
  | outer source => cases hk
  | slot index => cases hk

/-- What a side stands for, the key that it supplies stands for. -/
lemma Side.SuppliesKey.accepts {s : Side} {k : KeyOperand} {v : Value} (h : s.SuppliesKey k)
    (hs : s.Denotes ρ r v) (hname : ρ.canName k = true) (c : Comparison) :
    ρ.accepts c r.key.user k = (UserKey.ofValue? v).toOption.any (r.key.user.satisfies c) ∧
      v.isFloat = false := by
  cases h with
  | @value o k hk =>
    have ho : o.Denotes ρ v := hs
    exact ⟨by rw [Resolution.accepts, ho.key? hk], ho.isFloat hk hname⟩
  | query q slot => exact False.elim hs

/-- A condition on the key decides the comparison of the key with a side. -/
lemma NativeCondition.OfKeyComparison.holdsIn {c : Comparison} {s : Side} {n : NativeCondition}
    {v x : Value} (h : OfKeyComparison c s n) (hs : s.Denotes ρ r v) (hfits : n.fits ρ = true)
    (hx : (UserKey.ofValue? v).toOption.any (r.key.user.satisfies c) = x.isTruthy ∨
      v.isFloat = true) : n.holdsIn ρ r = x.isTruthy := by
  cases h with
  | null c =>
    obtain rfl : v = .null := hs
    rcases hx with hx | hx
    · exact hx
    · cases hx
  | eq hk =>
    obtain ⟨haccepts, hfloat⟩ := hk.accepts hs hfits .eq
    rw [hfloat] at hx
    simpa [NativeCondition.holdsIn, KeyCondition.holdsIn, haccepts] using hx
  | ne hk =>
    obtain ⟨haccepts, hfloat⟩ := hk.accepts hs hfits .ne
    rw [hfloat] at hx
    simpa [NativeCondition.holdsIn, KeyCondition.holdsIn, haccepts] using hx

/-- **A compiled comparison decides the comparison of the values of its sides.**

**Proof sketch.** One case for each way in which the comparison was compiled. For a bin, the operand
denotes the value of the other side and is compared as that value (`comparison_accepts`, and its
mirrored form). For the key, the condition on keys decides the comparison unless the other value is
a float, which no condition that fits allows. -/
lemma NativeCondition.OfComparison.holdsIn {s t : Side} {c : Comparison} {n : NativeCondition}
    {v w x : Value} (h : OfComparison s c t n) (hplain : r.isPlain = true) (hs : s.Denotes ρ r v)
    (ht : t.Denotes ρ r w) (hfits : n.fits ρ = true) (hx : comparison c v w = .ok x) :
    n.holdsIn ρ r = x.isTruthy := by
  cases h with
  | @binLeft bin c t o ho =>
    have hden := ho.denotes ht
    simp only [NativeCondition.fits, Condition.ofOperand, Condition.fits, Bool.and_eq_true] at hfits
    obtain rfl : v = (r.bin? bin).getD .null := hs
    simp only [NativeCondition.holdsIn, Condition.ofOperand, Condition.holdsIn]
    rw [← hden.asOperand] at hfits ⊢
    exact comparison_accepts (r.isPlain_bin? hplain bin)
      (hden.isFloat_of_canCompare hfits.1) hfits.2
      hx
  | @binRight bin c s o ho =>
    have hden := ho.denotes hs
    simp only [NativeCondition.fits, Condition.ofOperand, Condition.fits, Bool.and_eq_true] at hfits
    obtain rfl : w = (r.bin? bin).getD .null := ht
    simp only [NativeCondition.holdsIn, Condition.ofOperand, Condition.holdsIn]
    rw [← hden.asOperand] at hfits ⊢
    exact comparison_accepts_mirrored (r.isPlain_bin? hplain bin)
      (hden.isFloat_of_canCompare hfits.1) hfits.2 hx
  | keyLeft hn =>
    obtain rfl : v = r.key.user.toValue := hs
    refine hn.holdsIn ht hfits ?_
    cases hfloat : w.isFloat with
    | false => exact .inl (comparison_satisfies hfloat hx)
    | true => exact .inr rfl
  | keyRight hn =>
    obtain rfl : w = r.key.user.toValue := ht
    refine hn.holdsIn hs hfits ?_
    cases hfloat : v.isFloat with
    | false => exact .inl (comparison_satisfies_mirrored hfloat hx)
    | true => exact .inr rfl

/-! ## Ranges -/

/-- The value of a range condition is computed from those of its parts. -/
lemma Expr.evalIn_between {e low high : Expr} {negated : Bool} {x : Value}
    (h : (Expr.between e low high negated).evalIn env = .ok x) :
    ∃ v l u, e.evalIn env = .ok v ∧ low.evalIn env = .ok l ∧ high.evalIn env = .ok u ∧
      RecordQuery.between negated v l u = .ok x := by
  simp only [Expr.evalIn, Outcome.bind_eq_ok] at h
  exact h.imp fun v hv => by
    obtain ⟨hv, l, hl, u, hu, hx⟩ := hv
    exact ⟨l, u, hv, hl, hu, hx⟩

/-- A value in a range is not below the lower bound and not above the upper one. If the lower bound
decides, the upper one is not compared with.

**Proof sketch.** The cases of the definition: a null, a value below the lower bound, and otherwise
whatever the upper bound says. Each step of the computation is known to have returned. -/
lemma between_eq_ok {negated : Bool} {v l u x : Value} (h : between negated v l u = .ok x) :
    ((v.isNull || l.isNull || u.isNull) = true ∧ x = .null) ∨
      ((v.isNull = false ∧ l.isNull = false ∧ u.isNull = false) ∧
        ∃ below, v.order l = .ok below ∧
          ((below = .lt ∧ x = .boolean negated) ∨
            ∃ above, v.order u = .ok above ∧ below ≠ .lt ∧
              x = .boolean ((above != .gt) != negated))) := by
  unfold between at h
  split at h
  · rename_i hnull
    exact .inl ⟨hnull, (Except.ok.inj h).symm⟩
  · rename_i hnull
    right
    refine ⟨by simpa [and_assoc] using hnull, ?_⟩
    simp only [Outcome.bind_eq_ok] at h
    obtain ⟨below, hbelow, h⟩ := h
    refine ⟨below, hbelow, ?_⟩
    by_cases hlt : below = .lt
    · left
      simp only [hlt, beq_self_eq_true, if_true, Outcome.bind_eq_ok, Outcome.pure_eq_ok] at h
      obtain ⟨inside, rfl, rfl⟩ := h
      exact ⟨hlt, by simp⟩
    · right
      simp only [beq_iff_eq, hlt, if_false, Outcome.bind_eq_ok, Outcome.pure_eq_ok] at h
      obtain ⟨above, habove, inside, rfl, rfl⟩ := h
      exact ⟨above, habove, hlt, rfl⟩

/-- A comparison by order, of values that are neither null nor of different kinds. -/
lemma comparison_of_order {c : Comparison} {v w : Value} {o : Ordering} (hv : v.isNull = false)
    (hw : w.isNull = false) (h : v.order w = .ok o) :
    comparison c v w = .ok (.boolean (c.admits o)) := by
  rw [comparison, hv, hw]
  cases v <;> cases w <;>
    simp_all [Value.isNull, Value.order, Value.compare?, compareValues, bind, Except.bind, pure,
      Except.pure]

/-- **A range is the conjunction of two comparisons**, whatever decides them: the comparisons have
to agree with those of the evaluator, and nothing lies in a range with a bound that is null.

**Proof sketch.** If one of the three values is null, so is one of the comparisons, and the
conjunction is false. Otherwise both comparisons are read off the order of the value and the bounds
(`between_eq_ok`), the second one only if the first one is true. -/
lemma between_truth {v l u x : Value} {fromLow fromHigh : Bool}
    (hlow : ∀ y, comparison .ge v l = .ok y → fromLow = y.isTruthy)
    (hhigh : ∀ y, comparison .le v u = .ok y → fromHigh = y.isTruthy)
    (h : between false v l u = .ok x) : (fromLow && fromHigh) = x.isTruthy := by
  rcases between_eq_ok h with ⟨hnull, rfl⟩ | ⟨⟨hv, hl, hu⟩, below, hbelow, hrest⟩
  · -- A null makes one of the two comparisons null.
    have hfalse : fromLow = false ∨ fromHigh = false := by
      simp only [Bool.or_eq_true] at hnull
      rcases hnull with (hv | hl) | hu
      · left
        exact hlow .null (by simp [comparison, hv])
      · left
        exact hlow .null (by simp [comparison, hl])
      · right
        exact hhigh .null (by simp [comparison, hu])
    rcases hfalse with hf | hf
    · rw [hf]
      rfl
    · rw [hf, Bool.and_false]
      rfl
  · have hfirst := hlow _ (comparison_of_order hv hl hbelow)
    rcases hrest with ⟨rfl, rfl⟩ | ⟨above, habove, hne, rfl⟩
    · rw [hfirst]
      rfl
    · have hsecond := hhigh _ (comparison_of_order hv hu habove)
      have hbelow' : Comparison.admits .ge below = true := by
        simpa [Comparison.admits] using hne
      rw [hfirst, hsecond, hbelow', Bool.bne_false]
      rfl

/-- **A compiled range decides the range of the values of its parts.**

**Proof sketch.** A range on a bin or on the key is a conjunction of two comparisons, and each of
them agrees with the evaluator (`comparison_accepts`, `comparison_satisfies`); `between_truth` puts
them together. -/
lemma NativeCondition.OfRange.holdsIn {s : Side} {lo hi : Operand} {n : NativeCondition}
    {v l u x : Value} (h : OfRange s lo hi n) (hplain : r.isPlain = true)
    (hs : s.Denotes ρ r v) (hlo : lo.Denotes ρ l) (hhi : hi.Denotes ρ u)
    (hfits : n.fits ρ = true) (hx : between false v l u = .ok x) :
    n.holdsIn ρ r = x.isTruthy := by
  cases h with
  | bin bin =>
    simp only [NativeCondition.fits, Condition.fits, Condition.fitsAll, Bool.and_true,
      Bool.and_eq_true] at hfits
    obtain ⟨⟨hlofits, hlokind⟩, hhifits, hhikind⟩ := hfits
    rw [← hlo.asOperand] at hlokind
    rw [← hhi.asOperand] at hhikind
    obtain rfl : v = (r.bin? bin).getD .null := hs
    have hstored := r.isPlain_bin? hplain bin
    simp only [NativeCondition.holdsIn, Condition.holdsIn, Condition.holdsAllIn, Bool.and_true,
      ← hlo.asOperand, ← hhi.asOperand]
    exact between_truth
      (fun y hy => comparison_accepts hstored (hlo.isFloat_of_canCompare hlofits) hlokind hy)
      (fun y hy => comparison_accepts hstored (hhi.isFloat_of_canCompare hhifits) hhikind hy) hx
  | key hkl hku =>
    simp only [NativeCondition.fits, KeyCondition.fits, Bool.and_eq_true] at hfits
    obtain rfl : v = r.key.user.toValue := hs
    simp only [NativeCondition.holdsIn, KeyCondition.holdsIn, Resolution.accepts, hlo.key? hkl,
      hhi.key? hku]
    exact between_truth
      (fun y hy => comparison_satisfies (hlo.isFloat hkl hfits.1) hy)
      (fun y hy => comparison_satisfies (hhi.isFloat hku hfits.2) hy) hx

/-! ## Lists -/

/-- The operands of a list are what its items are for the compiler. -/
lemma listOperands_eq_ok {items : List Expr} {os : List Operand}
    (h : listOperands scope target items = .ok (some os)) :
    List.Forall₂ (fun item o => side scope target item = .ok (.value o)) items os := by
  induction items generalizing os with
  | nil =>
    simp only [listOperands, Outcome.pure_eq_ok, Option.some.injEq] at h
    rw [← h]
    exact .nil
  | cons item items ih =>
    simp only [listOperands, Outcome.bind_eq_ok] at h
    obtain ⟨s, hs, h⟩ := h
    split at h
    · simp only [Outcome.bind_eq_ok, Outcome.pure_eq_ok, Option.map_eq_some_iff] at h
      obtain ⟨rest, hrest, os', rfl, rfl⟩ := h
      exact .cons hs (ih hrest)
    · simp at h

/-- Every operand of a list comes from an item. -/
lemma exists_item_of_mem_listOperands {items : List Expr} {os : List Operand} {o : Operand}
    (h : listOperands scope target items = .ok (some os)) (ho : o ∈ os) :
    ∃ item ∈ items, side scope target item = .ok (.value o) := by
  have hsides := listOperands_eq_ok h
  clear h
  induction hsides with
  | nil => cases ho
  | @cons item p items os hitem hrest ih =>
    rcases List.mem_cons.mp ho with rfl | ho
    · exact ⟨item, by simp, hitem⟩
    · obtain ⟨item', hmem, hside⟩ := ih ho
      exact ⟨item', by simp [hmem], hside⟩

/-- Looking for a value among others finds it if one of them is equal to it. The search may end
before a later item fails.

**Proof sketch.** Induction on the items and their operands together. Each item that is evaluated
equals the value if its operand accepts it; at the first that does, the search ends and the
disjunction is true. -/
lemma evalMember_eq {v : Value} {items : List Expr} {os : List Operand} {found : Bool}
    {equals : Operand → Bool} {R : Expr → Operand → Prop}
    (h : Expr.evalMember env v items = .ok found) (hitems : List.Forall₂ R items os)
    (heq : ∀ item ∈ items, ∀ o ∈ os, R item o →
      ∀ w, item.evalIn env = .ok w → w.equal v = equals o) :
    os.any equals = found := by
  induction hitems with
  | nil =>
    simp only [Expr.evalMember, Except.ok.injEq] at h
    rw [← h]
    rfl
  | @cons item o items os hitem hrest ih =>
    simp only [Expr.evalMember, Outcome.bind_eq_ok] at h
    obtain ⟨w, hw, h⟩ := h
    rw [List.any_cons, ← heq item (by simp) o (by simp) hitem w hw]
    split at h
    · rename_i hequal
      rw [Outcome.pure_eq_ok] at h
      rw [hequal, ← h, Bool.true_or]
    · rename_i hne
      rw [Bool.not_eq_true] at hne
      rw [hne, Bool.false_or]
      exact ih h fun item hitem o ho => heq item (by simp [hitem]) o (by simp [ho])

/-- Equality of a bin with a value that is no truth value is the same for the store and the
evaluator. -/
lemma equal_accepts {stored w : Value} {kind : BinKind} (hstored : stored.isPlain = true)
    (hw : w.isFloat = false) (hbool : ∀ b, w ≠ .boolean b)
    (hkind : kind.suits w.asOperand = true) :
    w.equal stored = w.asOperand.accepts kind .eq (some stored) := by
  rw [BinKind.accepts_of_suits hkind, Bool.eq_iff_iff]
  cases stored <;> simp [Value.isPlain] at hstored <;> cases w <;>
    simp [Value.isFloat] at hw hbool <;>
    simp [Value.equal, Value.asOperand, Operand.accepts, Comparison.admits, Int64.toInt_inj]
  all_goals exact eq_comm

/-- Equality of the key with a value that is neither a truth value nor a float is the same for the
store and the evaluator. -/
lemma equal_satisfies {k : UserKey} {w : Value} (hfloat : w.isFloat = false)
    (hbool : ∀ b, w ≠ .boolean b) :
    w.equal k.toValue = (UserKey.ofValue? w).toOption.any (k.satisfies .eq) := by
  rw [Bool.eq_iff_iff]
  cases k <;> cases w <;> simp [Value.isFloat] at hfloat hbool <;>
    simp [Value.equal, UserKey.toValue, UserKey.ofValue?, Except.toOption,
      UserKey.satisfies_eq_iff]
  all_goals exact eq_comm

/-- The first of several operands is null and left out, or it names the first key. -/
lemma keyOperands?_cons {o : Operand} {os : List Operand} {ks : List KeyOperand}
    (h : keyOperands? (o :: os) = some ks) :
    (o = .null ∧ keyOperands? os = some ks) ∨
      ∃ k ks', o.keyOperand? = some k ∧ keyOperands? os = some ks' ∧ ks = k :: ks' := by
  by_cases hnull : o = .null
  · subst hnull
    exact .inl ⟨rfl, h⟩
  · right
    have hcons : (do
        let k ← o.keyOperand?
        let ks ← keyOperands? os
        return k :: ks) = some ks := by
      cases o <;> first | exact h | exact absurd rfl hnull
    simp only [bind, Option.bind_eq_some_iff, pure, Option.some.injEq] at hcons
    obtain ⟨k, hk, ks', hks, rfl⟩ := hcons
    exact ⟨k, ks', hk, hks, rfl⟩

/-- A test on the keys among operands. -/
lemma any_keyOperands? {f : KeyOperand → Bool} {os : List Operand} {ks : List KeyOperand}
    (h : keyOperands? os = some ks) : os.any (fun o => o.keyOperand?.any f) = ks.any f := by
  induction os generalizing ks with
  | nil =>
    obtain rfl := Option.some.inj h
    rfl
  | cons o os ih =>
    rcases keyOperands?_cons h with ⟨rfl, hks⟩ | ⟨k, ks', hk, hks, rfl⟩
    · rw [List.any_cons, ih hks]
      rfl
    · rw [List.any_cons, List.any_cons, ih hks, hk]
      rfl

/-- An operand among keys is null or names one of the keys. -/
lemma mem_keyOperands? {os : List Operand} {ks : List KeyOperand} (h : keyOperands? os = some ks) :
    ∀ o ∈ os, o = .null ∨ ∃ k ∈ ks, o.keyOperand? = some k := by
  induction os generalizing ks with
  | nil => simp
  | cons o os ih =>
    intro p hp
    rcases keyOperands?_cons h with ⟨rfl, hks⟩ | ⟨k, ks', hk, hks, rfl⟩
    · rcases List.mem_cons.mp hp with rfl | hp
      · exact .inl rfl
      · exact ih hks p hp
    · rcases List.mem_cons.mp hp with rfl | hp
      · exact .inr ⟨k, by simp, hk⟩
      · exact (ih hks p hp).imp_right fun ⟨l, hl, hp⟩ => ⟨l, by simp [hl], hp⟩

/-- Every key comes from an operand that names it. -/
lemma exists_operand_of_mem_keyOperands? {os : List Operand} {ks : List KeyOperand}
    {k : KeyOperand} (h : keyOperands? os = some ks) (hk : k ∈ ks) :
    ∃ o ∈ os, o.keyOperand? = some k := by
  induction os generalizing ks with
  | nil =>
    obtain rfl := Option.some.inj h
    cases hk
  | cons o os ih =>
    rcases keyOperands?_cons h with ⟨rfl, hks⟩ | ⟨l, ks', hl, hks, rfl⟩
    · obtain ⟨p, hp, hpk⟩ := ih hks hk
      exact ⟨p, by simp [hp], hpk⟩
    · rcases List.mem_cons.mp hk with rfl | hk
      · exact ⟨o, by simp, hl⟩
      · obtain ⟨p, hp, hpk⟩ := ih hks hk
        exact ⟨p, by simp [hp], hpk⟩

/-- The conditions of a list fit if each of them does. -/
lemma Condition.fitsAll_eq (cs : List Condition) : Condition.fitsAll ρ cs = cs.all (fits ρ) := by
  induction cs with
  | nil => rfl
  | cons c cs ih => simp [Condition.fitsAll, ih]

/-- The value of a list condition is computed from that of its subject. -/
lemma Expr.evalIn_inList {e : Expr} {items : List Expr} {negated : Bool} {x : Value}
    (h : (Expr.inList e items negated).evalIn env = .ok x) :
    ∃ v, e.evalIn env = .ok v ∧ ((v.isNull = true ∧ x = .null) ∨
      (v.isNull = false ∧ ∃ found, Expr.evalMember env v items = .ok found ∧
        x = .boolean (found != negated))) := by
  simp only [Expr.evalIn, Outcome.bind_eq_ok] at h
  obtain ⟨v, hv, h⟩ := h
  refine ⟨v, hv, ?_⟩
  split at h
  · rename_i hnull
    rw [Outcome.pure_eq_ok] at h
    exact .inl ⟨hnull, h.symm⟩
  · rename_i hnull
    simp only [Outcome.bind_eq_ok, Outcome.pure_eq_ok] at h
    obtain ⟨found, hfound, rfl⟩ := h
    exact .inr ⟨by simpa using hnull, found, hfound, rfl⟩

/-- **A compiled list decides whether the value of its subject is among those of its items**, as
long as none of these is a truth value.

**Proof sketch.** Every item that is evaluated equals the subject if its operand accepts it. If the
subject is absent, the evaluator returns null, and no operand accepts it. -/
lemma NativeCondition.OfMember.holdsIn {e : Expr} {items : List Expr} {s : Side}
    {os : List Operand} {n : NativeCondition} {v x : Value} (h : OfMember s os n)
    (hos : listOperands scope target items = .ok (some os))
    (hitems : ∀ item ∈ items, ∀ o, side scope target item = .ok (.value o) →
      ∀ w, item.evalIn env = .ok w → o.Denotes ρ w ∧ ∀ b, w ≠ .boolean b)
    (hplain : r.isPlain = true) (hs : s.Denotes ρ r v) (hfits : n.fits ρ = true)
    (hv : e.evalIn env = .ok v) (hx : (Expr.inList e items false).evalIn env = .ok x) :
    n.holdsIn ρ r = x.isTruthy := by
  obtain ⟨v', hv', hx⟩ := Expr.evalIn_inList hx
  obtain rfl := Except.ok.inj (hv.symm.trans hv')
  simp only [Bool.bne_false] at hx
  have hsides := listOperands_eq_ok hos
  cases h with
  | bin bin =>
    obtain rfl : v = (r.bin? bin).getD .null := hs
    simp only [NativeCondition.holdsIn, Condition.holdsIn, Condition.holdsAnyIn_eq, List.map_map,
      List.any_map]
    rcases hx with ⟨hnull, rfl⟩ | ⟨hnull, found, hfound, rfl⟩
    · have habsent : r.bin? bin = none := by
        have hstored := r.isPlain_bin? hplain bin
        cases hbin : r.bin? bin with
        | none => rfl
        | some w =>
          rw [hbin] at hnull hstored
          cases w <;> simp_all [Value.isNull, Value.isPlain]
      have hnone : ∀ o : Operand, (Condition.ofOperand bin .eq o).holdsIn ρ r = false := by
        intro o
        rw [Condition.ofOperand, Condition.holdsIn, habsent, Operand.accepts_absent]
      simp [hnone, Value.isTruthy]
    · obtain ⟨stored, hstored⟩ : ∃ w, r.bin? bin = some w := by
        cases hbin : r.bin? bin with
        | none => simp [hbin, Value.isNull] at hnull
        | some w => exact ⟨w, rfl⟩
      have hplain' : stored.isPlain = true := by
        simpa [hstored] using r.isPlain_bin? hplain bin
      rw [hstored, Option.getD_some] at hfound
      simp only [NativeCondition.fits, Condition.fits, Condition.fitsAll_eq, List.all_map,
        List.all_eq_true, Function.comp, Condition.ofOperand, Bool.and_eq_true] at hfits
      refine evalMember_eq hfound hsides fun item hitem o ho hside w hw => ?_
      obtain ⟨hden, hbool⟩ := hitems item hitem o hside w hw
      obtain ⟨hcan, hkind⟩ := hfits o ho
      rw [← hden.asOperand] at hkind
      simp only [Function.comp, Condition.ofOperand, Condition.holdsIn, hstored, id_eq,
        ← hden.asOperand]
      exact equal_accepts hplain' (hden.isFloat_of_canCompare hcan) hbool hkind
  | @key os ks hks =>
    obtain rfl : v = r.key.user.toValue := hs
    simp only [NativeCondition.fits, KeyCondition.fits, List.all_eq_true] at hfits
    simp only [NativeCondition.holdsIn, KeyCondition.holdsIn]
    rcases hx with ⟨hnull, rfl⟩ | ⟨hnull, found, hfound, rfl⟩
    · cases hkey : r.key.user <;> simp [hkey, UserKey.toValue, Value.isNull] at hnull
    · rw [← any_keyOperands? hks]
      refine evalMember_eq hfound hsides fun item hitem o ho hside w hw => ?_
      obtain ⟨hden, hbool⟩ := hitems item hitem o hside w hw
      rcases mem_keyOperands? hks o ho with rfl | ⟨k, hk, hok⟩
      · obtain rfl : w = .null := hden
        cases r.key.user <;> rfl
      · have hfloat := hden.isFloat hok (hfits k hk)
        rw [equal_satisfies hfloat hbool, hok, Option.any_some, Resolution.accepts, hden.key? hok]

/-! ## All compiled conditions -/

/-- **A compiled condition decides the expression it came from**: whenever the evaluator gives the
expression a value, the record satisfies the condition exactly if that value is true.

**Proof sketch.** Induction on the shape of the condition. Comparisons, ranges and lists decide on
the values of their sides, which are what the compiler took them for; a sub-query has no value;
conjunctions and disjunctions are put together. -/
theorem NativeCondition.Of.decides {e : Expr} {n : NativeCondition}
    (h : NativeCondition.Of scope target e n) (hplain : r.isPlain = true)
    (hreads : ∀ p ∈ e.parts, env.ReadsAt scope target ρ r p)
    (hlists : ∀ p ∈ e.parts, env.ListsAt scope target p) (hfits : n.fits ρ = true) :
    Decides (n.holdsIn ρ r) (e.evalIn env) := by
  induction h with
  | @paren e n h ih =>
    rw [Expr.evalIn]
    exact ih (fun p hp => hreads p (by simp [Expr.parts, hp]))
      (fun p hp => hlists p (by simp [Expr.parts, hp])) hfits
  | @connective op f l r' a b hop hl hr ihl ihr =>
    have hboth : (NativeCondition.bins a).fits ρ = true ∧
        (NativeCondition.bins b).fits ρ = true := by
      cases hop <;>
        simpa [NativeCondition.fits, Condition.fits, Condition.fitsAll] using hfits
    have hleft := ihl (fun p hp => hreads p (by simp [Expr.parts, hp]))
      (fun p hp => hlists p (by simp [Expr.parts, hp])) hboth.1
    have hright := ihr (fun p hp => hreads p (by simp [Expr.parts, hp]))
      (fun p hp => hlists p (by simp [Expr.parts, hp])) hboth.2
    cases hop with
    | and =>
      simpa [NativeCondition.holdsIn, Condition.holdsIn, Condition.holdsAllIn] using
        hleft.and hright
    | or =>
      simpa [NativeCondition.holdsIn, Condition.holdsIn, Condition.holdsAnyIn] using
        hleft.or hright
  | @compare c l r' s t n hs ht hn =>
    intro x hx
    obtain ⟨v, w, hv, hw, hx⟩ := Expr.evalIn_compare hx
    have hsden := side_denotes (fun p hp => hreads p (by simp [Expr.parts, hp])) hs hv
    have htden := side_denotes (fun p hp => hreads p (by simp [Expr.parts, hp])) ht hw
    exact (hn.holdsIn hplain hsden htden hfits hx).symm
  | @between e low high s lo hi n hs hlo hhi hn =>
    intro x hx
    obtain ⟨v, l, u, hv, hl, hu, hx⟩ := Expr.evalIn_between hx
    have hsden := side_denotes (fun p hp => hreads p (by simp [Expr.parts, hp])) hs hv
    have hloden : lo.Denotes ρ l :=
      side_denotes (r := r) (fun p hp => hreads p (by simp [Expr.parts, hp]))
        (rangeBound_spec hlo).1
        hl
    have hhiden : hi.Denotes ρ u :=
      side_denotes (r := r) (fun p hp => hreads p (by simp [Expr.parts, hp]))
        (rangeBound_spec hhi).1
        hu
    exact (hn.holdsIn hplain hsden hloden hhiden hfits hx).symm
  | @member e items s os n hs hos hn =>
    intro x hx
    obtain ⟨v, hv, -⟩ := Expr.evalIn_inList hx
    have hsden := side_denotes (fun p hp => hreads p (by simp [Expr.parts, hp])) hs hv
    have hlist := hlists _ (Expr.self_mem_parts _)
    refine (hn.holdsIn hos (fun item hitem o hside w hw => ⟨?_, fun b hb => ?_⟩) hplain
      hsden hfits hv hx).symm
    · refine side_denotes (r := r) (fun p hp => hreads p ?_) hside hw
      exact Expr.mem_parts_inList hitem hp
    · exact hlist item hitem o hside b (hb ▸ hw)
  | binQuery q slot hs =>
    rw [Expr.evalIn]
    exact Decides.of_error
  | keyQuery q slot hs =>
    rw [Expr.evalIn]
    exact Decides.of_error

end

end RecordQuery
