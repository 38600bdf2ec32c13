import RecordQuery.Plan.Binding
import RecordQuery.Proofs.Outcome
import RecordQuery.Proofs.Predicate.KeyCondition

set_option autoImplicit false

/-!
# Binding of conditions

Named keys are intersected as soon as two conditions on the key are put together, others only when
their parameters have values. It makes no difference when that happens: binding a conjunction is
putting together what binding makes of its sides.

## Main definitions

* `KeyCondition.isSimple` — conditions that are not put together from others.

## Main results

* `KeyCondition.bind_and` — binding goes through conjunctions.
* `Condition.bind_of_params`, `KeyCondition.bind_bind` — what is bound stays as it is.
-/

namespace RecordQuery

open Outcome

variable {params : List Value}

/-! ## Conditions on bins -/

namespace Condition

mutual

/-- A condition without parameters stays as it is. -/
lemma bind_of_params : (c : Condition) → c.params = [] → c.bind params = .ok c
  | compare bin kind c o, h => by
    cases o with
    | param index => cases h
    | integer _ | text _ | null | outer _ | slot _ => rfl
  | inSlot _ _ _, _ => rfl
  | all cs, h | any cs, h => by
    have hcs := bindList_of_params cs h
    simp only [bind, mapOperands, hcs, ok_bind, pure, Except.pure]

/-- Several conditions without parameters stay as they are. -/
lemma bindList_of_params : (cs : List Condition) → paramsIn cs = [] →
    mapOperandsList (Operand.bind params) cs = .ok cs
  | [], _ => rfl
  | c :: cs, h => by
    rw [paramsIn, List.append_eq_nil_iff] at h
    have hc : c.mapOperands (Operand.bind params) = .ok c := bind_of_params c h.1
    have hcs := bindList_of_params cs h.2
    simp only [mapOperandsList, hc, hcs, ok_bind, pure, Except.pure]

end

/-- Two conditions that are put together are bound one after the other.

**Proof sketch.** A list of two conditions is bound to the list of the two bound ones; the
parameters that are left are those of both, for conjunctions and disjunctions alike. -/
lemma bind_pair {f : List Condition → Condition} (hf : f = all ∨ f = any) {c d e : Condition}
    (h : (f [c, d]).bind params = .ok e) :
    ∃ c' d', c.bind params = .ok c' ∧ d.bind params = .ok d' ∧ e = f [c', d'] ∧
      e.params = c'.params ++ d'.params := by
  have hlist : ∀ cs, mapOperandsList (Operand.bind params) [c, d] = .ok cs →
      ∃ c' d', c.bind params = .ok c' ∧ d.bind params = .ok d' ∧ cs = [c', d'] := by
    intro cs hcs
    obtain ⟨c', hc, hcs⟩ := bind_eq_ok.mp hcs
    obtain ⟨rest, hrest, hcs⟩ := bind_eq_ok.mp hcs
    obtain ⟨d', hd, hrest⟩ := bind_eq_ok.mp hrest
    obtain rfl := Except.ok.inj hrest
    obtain rfl := Except.ok.inj hcs
    exact ⟨c', d', hc, hd, rfl⟩
  rcases hf with rfl | rfl
  · obtain ⟨cs, hcs, h⟩ := bind_eq_ok.mp h
    obtain ⟨c', d', hc, hd, rfl⟩ := hlist cs hcs
    obtain rfl := Except.ok.inj h
    exact ⟨c', d', hc, hd, rfl, by simp [Condition.params, paramsIn]⟩
  · obtain ⟨cs, hcs, h⟩ := bind_eq_ok.mp h
    obtain ⟨c', d', hc, hd, rfl⟩ := hlist cs hcs
    obtain rfl := Except.ok.inj h
    exact ⟨c', d', hc, hd, rfl, by simp [Condition.params, paramsIn]⟩

end Condition

/-! ## Conditions on the key -/

/-- A key that is known stays as it is. -/
lemma KeyOperand.bind_of_isKey {k : KeyOperand} (h : k.isKey = true) :
    k.bind params = .ok (some k) := by
  cases k with
  | key _ => rfl
  | param _ | slot _ => cases h

/-- What a key becomes stays as it is. -/
lemma KeyOperand.bind_bind {k k' : KeyOperand} (h : k.bind params = .ok (some k')) :
    k'.bind params = .ok (some k') := by
  cases k with
  | key _ | slot _ =>
    obtain rfl := Option.some.inj (Except.ok.inj h)
    rfl
  | param index =>
    simp only [bind, bind_eq_ok] at h
    obtain ⟨v, -, h⟩ := h
    split at h
    · cases h
    · simp only [bind_eq_ok, pure_eq_ok, Option.some.injEq] at h
      obtain ⟨k, -, rfl⟩ := h
      rfl

namespace KeyCondition

/-- Whether a condition is not put together from others. -/
def isSimple : KeyCondition → Bool
  | all _ => false
  | _ => true

/-- Known keys stay as they are. -/
lemma bindKeys_of_isKey {ks : List KeyOperand} (h : ks.all KeyOperand.isKey = true) :
    bindKeys params ks = .ok ks := by
  induction ks with
  | nil => rfl
  | cons k ks ih =>
    rw [List.all_cons, Bool.and_eq_true] at h
    simp only [bindKeys, KeyOperand.bind_of_isKey h.1, ih h.2, ok_bind, Option.toList_some, pure,
      Except.pure, List.singleton_append]

/-- What keys become stays as it is. -/
lemma bindKeys_bindKeys {ks ks' : List KeyOperand} (h : bindKeys params ks = .ok ks') :
    bindKeys params ks' = .ok ks' := by
  induction ks generalizing ks' with
  | nil =>
    obtain rfl := Except.ok.inj h
    rfl
  | cons k ks ih =>
    simp only [bindKeys, bind_eq_ok, pure_eq_ok] at h
    obtain ⟨bound, hbound, rest, hrest, rfl⟩ := h
    cases bound with
    | none => exact ih hrest
    | some k' =>
      simp only [Option.toList_some, List.singleton_append, bindKeys, KeyOperand.bind_bind hbound,
        ih hrest, ok_bind, pure, Except.pure]

/-- A condition that names its keys stays as it is. -/
lemma bind_of_namedKeys? {c : KeyCondition} {ks : List KeyOperand} (h : c.namedKeys? = some ks) :
    c.bind params = .ok c := by
  obtain ⟨hkeys, ⟨k, rfl, rfl⟩ | rfl⟩ := eq_of_namedKeys? h
  · have hk : k.isKey = true := by simpa using hkeys
    simp only [bind, KeyOperand.bind_of_isKey hk, ok_bind, pure, Except.pure, Option.map_some,
      Option.getD_some]
  · simp only [bind, bindKeys_of_isKey hkeys, ok_bind, pure, Except.pure]

/-- Keys that are all known are named. -/
lemma namedKeys?_ofKeys {ks : List KeyOperand} (h : ks.all KeyOperand.isKey = true) :
    (ofKeys ks).namedKeys? = some ks := by
  unfold ofKeys
  split
  · rename_i k
    have hk : k.isKey = true := by simpa using h
    rw [namedKeys?, if_pos hk]
  · rw [namedKeys?, if_pos h]

/-- Binding several conditions one after the other. -/
lemma bindList_append {cs ds cs' ds' : List KeyCondition} (hcs : bindList params cs = .ok cs')
    (hds : bindList params ds = .ok ds') : bindList params (cs ++ ds) = .ok (cs' ++ ds') := by
  induction cs generalizing cs' with
  | nil =>
    obtain rfl := Except.ok.inj hcs
    exact hds
  | cons c cs ih =>
    simp only [bindList, bind_eq_ok, pure_eq_ok] at hcs
    obtain ⟨b, hb, rest, hrest, rfl⟩ := hcs
    simp only [List.cons_append, bindList, hb, ih hrest, ok_bind, pure, Except.pure]

/-- One more condition is put to a conjunction last. -/
lemma conjunction_concat {cs : List KeyCondition} (h : cs ≠ []) (c : KeyCondition) :
    conjunction (cs ++ [c]) = (conjunction cs).and c := by
  cases cs with
  | nil => exact absurd rfl h
  | cons d cs => simp [conjunction, List.foldl_append]

/-- Binding keeps the number of conditions. -/
lemma bindList_ne_nil {cs cs' : List KeyCondition} (h : bindList params cs = .ok cs')
    (hne : cs ≠ []) : cs' ≠ [] := by
  cases cs with
  | nil => exact absurd rfl hne
  | cons c cs =>
    simp only [bindList, bind_eq_ok, pure_eq_ok] at h
    obtain ⟨b, -, rest, -, rfl⟩ := h
    exact List.cons_ne_nil b rest

/-- What binding makes of the conjuncts of a condition makes up what it makes of the condition. -/
lemma bind_eq_conjunction {c c' : KeyCondition} (hc : c.conjuncts ≠ [])
    (h : c.bind params = .ok c') :
    ∃ cs, bindList params c.conjuncts = .ok cs ∧ cs ≠ [] ∧ conjunction cs = c' := by
  have hsimple : c.conjuncts = [c] →
      ∃ cs, bindList params c.conjuncts = .ok cs ∧ cs ≠ [] ∧ conjunction cs = c' := by
    intro hone
    refine ⟨[c'], ?_, List.cons_ne_nil c' [], rfl⟩
    rw [hone]
    simp only [bindList, h, ok_bind, pure, Except.pure]
  cases c with
  | all cs =>
    simp only [bind, bind_eq_ok, pure_eq_ok] at h
    obtain ⟨cs', hcs, rfl⟩ := h
    exact ⟨cs', hcs, bindList_ne_nil hcs hc, rfl⟩
  | equal _ | among _ | inSlot _ | notEqual _ | range _ _ => exact hsimple rfl

/-- The condition that no key satisfies stays as it is. -/
lemma bind_of_isNone {c c' : KeyCondition} (hc : c.isNone = true) (h : c.bind params = .ok c') :
    c' = none := by
  rw [eq_none_of_isNone hc] at h
  exact (Except.ok.inj h).symm

/-- Nothing that is put to the condition that no key satisfies changes it. -/
lemma and_none (c : KeyCondition) : c.and none = none := by
  rw [KeyCondition.and]
  split
  · rename_i hc
    exact eq_none_of_isNone hc
  · rfl

/-- Conditions that stand side by side are put together when they are bound. -/
lemma bind_all {a b a' b' : KeyCondition} (hconjuncts : a.conjuncts ≠ [])
    (hsimple : b.isSimple = true) (ha : a.bind params = .ok a') (hb : b.bind params = .ok b') :
    (all (a.conjuncts ++ b.conjuncts)).bind params = .ok (a'.and b') := by
  obtain ⟨cs, hcs, hne, rfl⟩ := bind_eq_conjunction hconjuncts ha
  have hlast : bindList params b.conjuncts = .ok [b'] := by
    cases b with
    | all _ => cases hsimple
    | equal _ | among _ | inSlot _ | notEqual _ | range _ _ =>
      simp only [conjuncts, bindList, hb, ok_bind, pure, Except.pure]
  simp only [bind, bindList_append hcs hlast, ok_bind, conjunction_concat hne, pure, Except.pure]

/-- **Binding goes through conjunctions.** Named keys that are intersected at once stay as they are,
and other conditions are put together in the same order.

**Proof sketch.** By the form of the conjunction. A condition that finds nothing stays so, and the
conjunction is the other one. Keys that are named on both sides are known, so binding leaves them
and their intersection. In all other cases the conditions are put together and bound in turn. -/
theorem bind_and {a b a' b' : KeyCondition} (hconjuncts : a.conjuncts ≠ [])
    (hsimple : b.isSimple = true) (ha : a.bind params = .ok a') (hb : b.bind params = .ok b') :
    (a.and b).bind params = .ok (a'.and b') := by
  by_cases hnone : a.isNone = true
  · rw [KeyCondition.and, if_pos hnone, ha, bind_of_isNone hnone ha]
    rfl
  by_cases hnone' : b.isNone = true
  · rw [KeyCondition.and, if_neg hnone, if_pos hnone', hb, bind_of_isNone hnone' hb, and_none]
  rw [KeyCondition.and, if_neg hnone, if_neg hnone']
  cases hleft : a.namedKeys? with
  | some left =>
    cases hright : b.namedKeys? with
    | some right =>
      obtain rfl : a = a' := Except.ok.inj ((bind_of_namedKeys? hleft).symm.trans ha)
      obtain rfl : b = b' := Except.ok.inj ((bind_of_namedKeys? hright).symm.trans hb)
      have hkeys : (intersect left right).all KeyOperand.isKey = true :=
        List.all_eq_true.mpr fun k hk => List.all_eq_true.mp (eq_of_namedKeys? hleft).1 k
          (mem_intersect.mp hk).1
      rw [KeyCondition.and, if_neg hnone, if_neg hnone', hleft, hright]
      exact bind_of_namedKeys? (namedKeys?_ofKeys hkeys)
    | none => exact bind_all hconjuncts hsimple ha hb
  | none => exact bind_all hconjuncts hsimple ha hb

/-- What is bound without parameters stays as it is.

**Proof sketch.** By the form of the condition: every key that was bound is bound to itself, and a
null has become the condition that finds nothing. -/
theorem bind_bind {c c' : KeyCondition} (hsimple : c.isSimple = true)
    (h : c.bind params = .ok c') : c'.bind params = .ok c' := by
  have hnone : (none : KeyCondition).bind params = .ok none := rfl
  cases c with
  | all _ => cases hsimple
  | inSlot slot =>
    obtain rfl := Except.ok.inj h
    rfl
  | equal k =>
    simp only [bind, bind_eq_ok, pure_eq_ok] at h
    obtain ⟨bound, hbound, rfl⟩ := h
    cases bound with
    | none => exact hnone
    | some k' =>
      simp only [Option.map_some, Option.getD_some, bind, KeyOperand.bind_bind hbound, ok_bind,
        pure, Except.pure]
  | notEqual k =>
    simp only [bind, bind_eq_ok, pure_eq_ok] at h
    obtain ⟨bound, hbound, rfl⟩ := h
    cases bound with
    | none => exact hnone
    | some k' =>
      simp only [Option.map_some, Option.getD_some, bind, KeyOperand.bind_bind hbound, ok_bind,
        pure, Except.pure]
  | range low high =>
    simp only [bind, bind_eq_ok] at h
    obtain ⟨l, hl, u, hu, h⟩ := h
    cases l with
    | none =>
      obtain rfl := Except.ok.inj h
      exact hnone
    | some low' =>
      cases u with
      | none =>
        obtain rfl := Except.ok.inj h
        exact hnone
      | some high' =>
        obtain rfl := Except.ok.inj h
        simp only [bind, KeyOperand.bind_bind hl, KeyOperand.bind_bind hu, ok_bind, pure,
          Except.pure]
  | among ks =>
    simp only [bind, bind_eq_ok, pure_eq_ok] at h
    obtain ⟨ks', hks, rfl⟩ := h
    simp only [bind, bindKeys_bindKeys hks, ok_bind, pure, Except.pure]

/-- A condition that is not put together from others has itself as its conjunct. -/
lemma conjuncts_of_isSimple {c : KeyCondition} (h : c.isSimple = true) : c.conjuncts = [c] := by
  cases c with
  | all _ => cases h
  | equal _ | among _ | inSlot _ | notEqual _ | range _ _ => rfl

/-- Binding puts together nothing by itself. -/
lemma isSimple_bind {c c' : KeyCondition} (hsimple : c.isSimple = true)
    (h : c.bind params = .ok c') : c'.isSimple = true := by
  cases c with
  | all _ => cases hsimple
  | inSlot slot =>
    obtain rfl := Except.ok.inj h
    rfl
  | equal k | notEqual k =>
    simp only [bind, bind_eq_ok, pure_eq_ok] at h
    obtain ⟨bound, -, rfl⟩ := h
    cases bound <;> rfl
  | range low high =>
    simp only [bind, bind_eq_ok] at h
    obtain ⟨l, -, u, -, h⟩ := h
    cases l <;> cases u <;> obtain rfl := Except.ok.inj h <;> rfl
  | among ks =>
    simp only [bind, bind_eq_ok, pure_eq_ok] at h
    obtain ⟨ks', -, rfl⟩ := h
    rfl

/-- A conjunction of conditions has conjuncts. -/
lemma conjuncts_and_ne_nil {a b : KeyCondition} (ha : a.conjuncts ≠ []) (hb : b.conjuncts ≠ []) :
    (a.and b).conjuncts ≠ [] := by
  rw [KeyCondition.and]
  split
  · exact ha
  split
  · exact hb
  split
  · unfold ofKeys
    split <;> exact List.cons_ne_nil _ _
  · exact List.append_ne_nil_of_left_ne_nil ha _

end KeyCondition

end RecordQuery
