import RecordQuery.Pipeline.Join
import RecordQuery.Plan.Subquery
import RecordQuery.Proofs.Compile.Native
import RecordQuery.Proofs.Predicate.Kinds

set_option autoImplicit false

/-!
# Kinds in plans

The kinds in compiled conditions fit, and every step that replaces an unknown operand, the binding
of parameters, the results of sub-queries and the values of a row in a join, keeps them fitting.

## Main results

* `NativeCondition.Of.isKinded` — the kinds in what the compilation of an expression finds.
* `Condition.isKinded_bind`, `Condition.isKinded_substitute`, `Condition.isKinded_fillOuter` — the
  kinds stay fitting.
-/

namespace RecordQuery

open Outcome

/-! ## Compiled conditions -/

/-- A bin that is read as an integer can be compared with a bound of a range. -/
lemma Operand.IsBound.admits {o : Operand} (h : o.IsBound) : BinKind.integer.admits o = true := by
  cases h <;> rfl

namespace NativeCondition

/-- Whether the kinds in a condition fit. A condition on the key has none. -/
def isKinded : NativeCondition → Bool
  | bins c => c.isKinded
  | key _ => true

/-- A condition on the key has no kinds. -/
lemma OfKeyComparison.isKinded {c : Comparison} {s : Side} {n : NativeCondition}
    (h : OfKeyComparison c s n) : n.isKinded = true := by
  cases h <;> rfl

/-- A comparison reads the bin as the kind of the other side. -/
lemma OfComparison.isKinded {s t : Side} {c : Comparison} {n : NativeCondition}
    (h : OfComparison s c t n) : n.isKinded = true := by
  cases h with
  | @binLeft bin c _ o => exact Condition.isKinded_ofOperand bin c o
  | @binRight bin c _ o => exact Condition.isKinded_ofOperand bin c.mirrored o
  | keyLeft hk => exact hk.isKinded
  | keyRight hk => exact hk.isKinded

/-- A range reads the bin as an integer. -/
lemma OfRange.isKinded {s : Side} {low high : Operand} {n : NativeCondition}
    (h : OfRange s low high n) (hlow : BinKind.integer.admits low = true)
    (hhigh : BinKind.integer.admits high = true) : n.isKinded = true := by
  cases h with
  | bin bin => simp [NativeCondition.isKinded, Condition.isKinded, Condition.areKinded, hlow, hhigh]
  | key hl hh => rfl

/-- A list compares the bin with each of its operands. -/
lemma OfMember.isKinded {s : Side} {os : List Operand} {n : NativeCondition}
    (h : OfMember s os n) : n.isKinded = true := by
  cases h with
  | bin bin =>
    rw [NativeCondition.isKinded, Condition.isKinded, Condition.areKinded_eq, List.all_map]
    exact List.all_eq_true.mpr fun o _ => Condition.isKinded_ofOperand _ _ o
  | key hks => rfl

/-- **The kinds in compiled conditions fit.** -/
theorem Of.isKinded {scope : Scope} {target : Nat} {e : Expr} {n : NativeCondition}
    (h : Of scope target e n) : n.isKinded = true := by
  induction h with
  | paren h ih => exact ih
  | connective hop hl hr ihl ihr =>
    cases hop <;>
    · simp only [NativeCondition.isKinded, Condition.isKinded, Condition.areKinded, Bool.and_true,
        Bool.and_eq_true] at ihl ihr ⊢
      exact ⟨ihl, ihr⟩
  | compare hs ht hc => exact hc.isKinded
  | between hs hl hh hn =>
    exact hn.isKinded (rangeBound_spec hl).2.admits (rangeBound_spec hh).2.admits
  | member hs hos hn => exact hn.isKinded
  | binQuery q slot hs => rfl
  | keyQuery q slot hs => rfl

end NativeCondition

/-! ## Replaced operands -/

/-- The kind as which a bin is read fits an operand that it is taken from, if need be. -/
lemma BinKind.admits_orOf {kind : BinKind} {o : Operand}
    (h : kind = .unknown ∨ kind.admits o = true) : (kind.orOf o).admits o = true := by
  unfold BinKind.orOf
  split
  · exact o.admits_kind
  · rename_i hkind
    exact h.resolve_left hkind

/-- A value that can stand for an integer is an integer operand. -/
lemma Value.operand?_of_isIntegral {v : Value} {o : Operand} (hv : v.isIntegral = true)
    (h : v.operand? = .ok (some o)) : ∃ i, o = .integer i := by
  unfold isIntegral at hv
  split at hv
  · simp only [operand?, Except.ok.injEq, Option.some.injEq] at h
    exact ⟨_, h.symm⟩
  · simp only [operand?, Except.ok.injEq, Option.some.injEq] at h
    exact ⟨_, h.symm⟩
  · cases hv

/-- The value of a parameter fits the kind as which the bin is read then.

**Proof sketch.** Only a parameter is replaced. A bin of no known kind takes the kind of the value;
a bin of integers takes only values that are read as integers, and others are refused before. -/
lemma Operand.admits_bind {params : List Value} {o o' : Operand} {kind kind' : BinKind}
    (h : o.bind params kind = .ok (o', kind')) (hk : kind.admits o = true) :
    kind'.admits o' = true := by
  unfold Operand.bind at h
  split at h
  · rename_i index
    simp only [bind_eq_ok] at h
    obtain ⟨v, -, h⟩ := h
    split at h
    · simp at h
    · rename_i hinteger
      simp only [bind_eq_ok] at h
      obtain ⟨bound, hbound, h⟩ := h
      split at h
      · rename_i value
        simp only [pure_eq_ok, Prod.mk.injEq] at h
        obtain ⟨rfl, rfl⟩ := h
        refine BinKind.admits_orOf ?_
        cases kind with
        | unknown => exact .inl rfl
        | text => cases hk
        | integer =>
          have hv : v.isIntegral = true := by simpa using hinteger
          obtain ⟨i, rfl⟩ := Value.operand?_of_isIntegral hv hbound
          exact .inr rfl
      · simp only [pure_eq_ok, Prod.mk.injEq] at h
        obtain ⟨rfl, rfl⟩ := h
        exact hk
  · obtain ⟨rfl, rfl⟩ := Prod.mk.inj (Except.ok.inj h)
    exact hk

/-- The value of a row fits the kind as which the bin is read then. -/
lemma Operand.admits_fillOuter {row : Row} {o o' : Operand} {kind kind' : BinKind}
    (h : o.fillOuter row kind = .ok (o', kind')) (hk : kind.admits o = true) :
    kind'.admits o' = true := by
  unfold Operand.fillOuter at h
  split at h
  · split at h
    · simp only [bind_eq_ok, pure_eq_ok, Prod.mk.injEq] at h
      obtain ⟨filled, -, rfl, rfl⟩ := h
      exact Operand.admits_kind _
    · simp only [bind_eq_ok, pure_eq_ok, Prod.mk.injEq] at h
      obtain ⟨filled, -, rfl, rfl⟩ := h
      exact Operand.admits_kind _
  · obtain ⟨rfl, rfl⟩ := Prod.mk.inj (Except.ok.inj h)
    exact hk

namespace Condition

/-- Binding keeps kinds fitting. -/
theorem isKinded_bind {params : List Value} {c d : Condition} (h : c.bind params = .ok d)
    (hk : c.isKinded = true) : d.isKinded = true :=
  isKinded_mapOperands (fun _ _ _ _ => Operand.admits_bind) c d h hk

/-- The values of a row keep kinds fitting. -/
theorem isKinded_fillOuter {row : Row} {c d : Condition} (h : c.fillOuter row = .ok d)
    (hk : c.isKinded = true) : d.isKinded = true :=
  isKinded_mapOperands (fun _ _ _ _ => Operand.admits_fillOuter) c d h hk

/-- A bin of unknown kind is read as the kind of each value that it is compared with. -/
lemma areKinded_equalities {bin : String} {vs : List Value} {cs : List Condition}
    (h : equalities bin .unknown vs = .ok cs) : areKinded cs = true := by
  induction vs generalizing cs with
  | nil =>
    obtain rfl := Except.ok.inj h
    rfl
  | cons v vs ih =>
    simp only [equalities, bind_eq_ok, pure_eq_ok] at h
    obtain ⟨o, -, ds, hds, rfl⟩ := h
    rw [areKinded, ih hds, Bool.and_true]
    exact BinKind.admits_orOf (.inl rfl)

mutual

/-- **The results of sub-queries keep kinds fitting.**

**Proof sketch.** By induction on the condition. A comparison with a result and a list of results
are of no known kind before, so the values that are put in give the kind; conjunctions and
disjunctions follow from their parts. -/
theorem isKinded_substitute {rs : SlotResults} :
    (c d : Condition) → c.substitute rs = .ok d → c.isKinded = true → d.isKinded = true
  | compare bin kind c (.slot slot), d, h, hk => by
    simp only [substitute, bind_eq_ok, pure_eq_ok] at h
    obtain ⟨v, -, o, -, rfl⟩ := h
    rw [isKinded, BinKind.admits, beq_iff_eq] at hk
    exact BinKind.admits_orOf (.inl hk)
  | compare bin kind c (.integer _), d, h, hk | compare bin kind c (.text _), d, h, hk
  | compare bin kind c .null, d, h, hk | compare bin kind c (.param _), d, h, hk
  | compare bin kind c (.outer _), d, h, hk => by
    obtain rfl := Except.ok.inj h
    exact hk
  | inSlot bin kind slot, d, h, hk => by
    simp only [substitute, bind_eq_ok, pure_eq_ok] at h
    obtain ⟨vs, -, cs, hcs, rfl⟩ := h
    rw [isKinded, beq_iff_eq] at hk
    subst hk
    exact areKinded_equalities hcs
  | all cs, d, h, hk | any cs, d, h, hk => by
    simp only [substitute, bind_eq_ok, pure_eq_ok] at h
    obtain ⟨ds, hds, rfl⟩ := h
    exact areKinded_substituteList cs ds hds hk

/-- The results of sub-queries keep kinds in several conditions fitting. -/
theorem areKinded_substituteList {rs : SlotResults} :
    (cs ds : List Condition) → substituteList rs cs = .ok ds → areKinded cs = true →
      areKinded ds = true
  | [], ds, h, _ => by
    obtain rfl := Except.ok.inj h
    rfl
  | c :: cs, ds, h, hk => by
    simp only [substituteList, bind_eq_ok, pure_eq_ok] at h
    obtain ⟨d, hd, ds', hds, rfl⟩ := h
    rw [areKinded, Bool.and_eq_true] at hk ⊢
    exact ⟨isKinded_substitute c d hd hk.1, areKinded_substituteList cs ds' hds hk.2⟩

end

end Condition

end RecordQuery
