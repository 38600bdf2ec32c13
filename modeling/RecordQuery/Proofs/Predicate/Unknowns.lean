import RecordQuery.Pipeline.Join
import RecordQuery.Plan.Subquery
import RecordQuery.Proofs.Fault.Basic
import RecordQuery.Proofs.Predicate.KeyCondition

set_option autoImplicit false

/-!
# Unknowns in conditions

A compiled condition may hold operands whose values are not known yet: parameters, values of an
enclosing row, results of sub-queries. One step after the other replaces them. Which of them a
condition may still hold says how far that has come; a condition without unknowns can be decided.

## Main definitions

* `Unknowns` — which unknowns there may be.
* `Condition.isWithin`, `KeyCondition.isWithin` — a condition holds no others.

## Main results

* `Condition.isResolved_iff`, `KeyCondition.isComparable_of_program` — conditions without unknowns
  are decided by their programs.
* `KeyCondition.isWithin_and` — conjunction brings in no unknowns.
* `Condition.isWithin_bind`, `Condition.isWithin_of_params`, `KeyCondition.isWithin_bind` — binding
  replaces the parameters.
* `Condition.isWithin_fillOuter` — a row replaces the values of an enclosing row.
* `Condition.safe_substitute`, `KeyCondition.safe_substitute` — the results of sub-queries replace
  their slots.
-/

namespace RecordQuery

open Outcome

/-- Which unknowns there may be. -/
structure Unknowns where
  /-- Which parameters there may be. -/
  params : Nat → Bool
  /-- Whether there may be values of an enclosing row. -/
  outers : Bool
  /-- Of how many sub-queries there may be results. -/
  slots : Nat

namespace Unknowns

/-- There are no unknowns. -/
def none : Unknowns := ⟨fun _ => false, false, 0⟩

variable (u : Unknowns)

/-- Whether an operand is none of the other unknowns. -/
def allows : Operand → Bool
  | .param index => u.params index
  | .outer _ => u.outers
  | .slot index => decide (index < u.slots)
  | _ => true

/-- Whether a key is none of the other unknowns. -/
def allowsKey : KeyOperand → Bool
  | .key _ => true
  | .param index => u.params index
  | .slot index => decide (index < u.slots)

/-- The same without results of sub-queries. -/
def withoutSlots : Unknowns := { u with slots := 0 }

/-- The same without parameters. -/
def withoutParams : Unknowns := { u with params := fun _ => false }

/-- The same without values of an enclosing row. -/
def withoutOuters : Unknowns := { u with outers := false }

variable {u}

/-- Without unknowns an operand is known. -/
lemma allows_none {o : Operand} : none.allows o = o.isResolved := by
  cases o <;> simp [allows, none, Operand.isResolved]

/-- A known operand is no unknown. -/
lemma allows_of_isResolved {o : Operand} (h : o.isResolved = true) : u.allows o = true := by
  cases o <;> simp_all [allows, Operand.isResolved]

/-- Without unknowns a key is known. -/
lemma allowsKey_none {k : KeyOperand} : none.allowsKey k = k.isKey := by
  cases k <;> simp [allowsKey, none, KeyOperand.isKey]

/-- A known key is no unknown. -/
lemma allowsKey_of_isKey {k : KeyOperand} (h : k.isKey = true) : u.allowsKey k = true := by
  cases k <;> simp_all [allowsKey, KeyOperand.isKey]

/-- There may be results of more sub-queries. -/
lemma allows_of_le {params : Nat → Bool} {outers : Bool} {n m : Nat} (hle : n ≤ m) {o : Operand}
    (h : allows ⟨params, outers, n⟩ o = true) : allows ⟨params, outers, m⟩ o = true := by
  cases o <;> simp_all [allows]
  omega

/-- There may be results of more sub-queries, and keys are no values of enclosing rows. -/
lemma allowsKey_of_le {params : Nat → Bool} {outers outers' : Bool} {n m : Nat} (hle : n ≤ m)
    {k : KeyOperand} (h : allowsKey ⟨params, outers, n⟩ k = true) :
    allowsKey ⟨params, outers', m⟩ k = true := by
  cases k <;> simp_all [allowsKey]
  omega

end Unknowns

/-! ## Conditions on bins -/

namespace Condition

variable {u v : Unknowns}

mutual

/-- Whether a condition holds no other unknowns. -/
def isWithin (u : Unknowns) : Condition → Bool
  | compare _ _ _ o => u.allows o
  | inSlot _ _ slot => u.allows (.slot slot)
  | all cs => areWithin u cs
  | any cs => areWithin u cs

/-- Whether several conditions hold no other unknowns. -/
def areWithin (u : Unknowns) : List Condition → Bool
  | [] => true
  | c :: cs => isWithin u c && areWithin u cs

end

/-- Several conditions hold no other unknowns if none of them does. -/
lemma areWithin_eq (cs : List Condition) : areWithin u cs = cs.all (isWithin u) := by
  induction cs with
  | nil => rfl
  | cons c cs ih => rw [areWithin, ih, List.all_cons]

mutual

/-- **A condition without unknowns is one whose operands are known.** -/
theorem isResolved_iff : (c : Condition) → (c.unresolved? = none ↔ c.isWithin .none = true)
  | compare bin kind c o => by
    rw [unresolved?, isWithin, Unknowns.allows_none]
    cases o.isResolved <;> simp
  | inSlot bin kind slot => by simp [unresolved?, isWithin, Unknowns.allows, Unknowns.none]
  | all cs | any cs => by
    rw [unresolved?, isWithin]
    exact areResolved_iff cs

/-- Conditions without unknowns are those whose operands are known. -/
theorem areResolved_iff : (cs : List Condition) →
    (unresolvedIn? cs = none ↔ areWithin .none cs = true)
  | [] => by simp [unresolvedIn?, areWithin]
  | c :: cs => by
    rw [unresolvedIn?, Option.or_eq_none_iff, isResolved_iff c, areResolved_iff cs, areWithin,
      Bool.and_eq_true]

end

mutual

/-- There may be results of more sub-queries. -/
theorem isWithin_of_le {params : Nat → Bool} {outers : Bool} {n m : Nat} (hle : n ≤ m) :
    (c : Condition) → c.isWithin ⟨params, outers, n⟩ = true → c.isWithin ⟨params, outers, m⟩ = true
  | compare _ _ _ _, h => Unknowns.allows_of_le hle h
  | inSlot _ _ slot, h => Unknowns.allows_of_le (o := .slot slot) hle h
  | all cs, h | any cs, h => areWithin_of_le hle cs h

/-- There may be results of more sub-queries. -/
theorem areWithin_of_le {params : Nat → Bool} {outers : Bool} {n m : Nat} (hle : n ≤ m) :
    (cs : List Condition) → areWithin ⟨params, outers, n⟩ cs = true →
      areWithin ⟨params, outers, m⟩ cs = true
  | [], _ => rfl
  | c :: cs, h => by
    rw [areWithin, Bool.and_eq_true] at h ⊢
    exact ⟨isWithin_of_le hle c h.1, areWithin_of_le hle cs h.2⟩

end

section

variable {f : Operand → BinKind → Except QueryError (Operand × BinKind)}

mutual

/-- **Replacing operands** changes which unknowns there may be as it does in every comparison. -/
theorem isWithin_mapOperands
    (hf : ∀ o kind o' kind', f o kind = .ok (o', kind') → u.allows o = true → v.allows o' = true)
    (hslots : u.slots ≤ v.slots) :
    (c d : Condition) → c.mapOperands f = .ok d → c.isWithin u = true → d.isWithin v = true
  | compare bin kind c o, d, h, hu => by
    simp only [mapOperands, bind_eq_ok, pure_eq_ok] at h
    obtain ⟨⟨o', kind'⟩, hok, rfl⟩ := h
    exact hf o kind o' kind' hok hu
  | inSlot bin kind slot, d, h, hu => by
    simp only [mapOperands, pure_eq_ok] at h
    subst h
    simp only [isWithin, Unknowns.allows, decide_eq_true_eq] at hu ⊢
    omega
  | all cs, d, h, hu | any cs, d, h, hu => by
    simp only [mapOperands, bind_eq_ok, pure_eq_ok] at h
    obtain ⟨ds, hds, rfl⟩ := h
    exact areWithin_mapOperandsList hf hslots cs ds hds hu

/-- Replacing operands in several conditions. -/
theorem areWithin_mapOperandsList
    (hf : ∀ o kind o' kind', f o kind = .ok (o', kind') → u.allows o = true → v.allows o' = true)
    (hslots : u.slots ≤ v.slots) :
    (cs ds : List Condition) → mapOperandsList f cs = .ok ds → areWithin u cs = true →
      areWithin v ds = true
  | [], ds, h, _ => by
    simp only [mapOperandsList, pure_eq_ok] at h
    rw [← h]
    rfl
  | c :: cs, ds, h, hu => by
    simp only [mapOperandsList, bind_eq_ok, pure_eq_ok] at h
    obtain ⟨d, hd, ds', hds, rfl⟩ := h
    rw [areWithin, Bool.and_eq_true] at hu ⊢
    exact ⟨isWithin_mapOperands hf hslots c d hd hu.1,
      areWithin_mapOperandsList hf hslots cs ds' hds hu.2⟩

end

end

mutual

/-- A condition in which no parameter is left. -/
theorem isWithin_of_params : (c : Condition) → c.isWithin u = true → c.params = [] →
    c.isWithin u.withoutParams = true
  | compare bin kind c o, h, hparams => by
    cases o with
    | param index => simp [params] at hparams
    | integer i => rfl
    | text s => rfl
    | null => rfl
    | outer label => exact h
    | slot slot => exact h
  | inSlot bin kind slot, h, _ => h
  | all cs, h, hparams | any cs, h, hparams => areWithin_of_params cs h hparams

/-- Conditions in which no parameter is left. -/
theorem areWithin_of_params : (cs : List Condition) → areWithin u cs = true → paramsIn cs = [] →
    areWithin u.withoutParams cs = true
  | [], _, _ => rfl
  | c :: cs, h, hparams => by
    rw [areWithin, Bool.and_eq_true] at h ⊢
    rw [paramsIn, List.append_eq_nil_iff] at hparams
    exact ⟨isWithin_of_params c h.1 hparams.1, areWithin_of_params cs h.2 hparams.2⟩

end

end Condition

/-- The operand that a value is for the store is known. -/
lemma Value.isResolved_operand? {v : Value} {o : Operand} (h : v.operand? = .ok (some o)) :
    o.isResolved = true := by
  cases v <;> simp only [operand?, Except.ok.injEq, Option.some.injEq, reduceCtorEq] at h <;>
    subst h <;> rfl

/-- Binding brings in no unknowns. -/
lemma Unknowns.allows_bind {u : Unknowns} {params : List Value} {o o' : Operand}
    {kind kind' : BinKind} (h : o.bind params kind = .ok (o', kind')) (hu : u.allows o = true) :
    u.allows o' = true := by
  unfold Operand.bind at h
  split at h
  · simp only [bind_eq_ok] at h
    obtain ⟨v, -, h⟩ := h
    split at h
    · simp at h
    · simp only [bind_eq_ok] at h
      obtain ⟨bound, hbound, h⟩ := h
      split at h
      · simp only [pure_eq_ok, Prod.mk.injEq] at h
        rw [← h.1]
        exact Unknowns.allows_of_isResolved (Value.isResolved_operand? hbound)
      · simp only [pure_eq_ok, Prod.mk.injEq] at h
        rw [← h.1]
        exact hu
  · rw [← (Prod.mk.inj (Except.ok.inj h)).1]
    exact hu

/-- A value of a row takes the place of the unknown.

**Proof sketch.** Only a reference to the row is replaced, by the operand for its value or by null,
and both are known. Every other operand stays and is no reference to the row. -/
lemma Unknowns.allows_fillOuter {u : Unknowns} {row : Row} {o o' : Operand} {kind kind' : BinKind}
    (h : o.fillOuter row kind = .ok (o', kind')) (hu : u.allows o = true) :
    u.withoutOuters.allows o' = true := by
  have hjoin : ∀ {v : Value} {filled : Operand}, v.joinOperand = .ok filled →
      filled.isResolved = true := by
    intro v filled hv
    cases v <;> simp only [Value.joinOperand, Except.ok.injEq, reduceCtorEq] at hv <;>
      subst hv <;> rfl
  unfold Operand.fillOuter at h
  split at h
  · split at h
    · simp only [bind_eq_ok, pure_eq_ok, Prod.mk.injEq] at h
      obtain ⟨filled, hfilled, rfl, -⟩ := h
      rw [← hfilled]
      rfl
    · simp only [bind_eq_ok, pure_eq_ok, Prod.mk.injEq] at h
      obtain ⟨filled, hfilled, rfl, -⟩ := h
      exact Unknowns.allows_of_isResolved (hjoin hfilled)
  · rename_i houter
    rw [← (Prod.mk.inj (Except.ok.inj h)).1]
    cases o with
    | outer label => exact absurd rfl (houter label)
    | _ => exact hu

namespace Condition

variable {u : Unknowns} {c d : Condition}

/-- **Binding brings in no unknowns.** It leaves the parameters that are floats. -/
theorem isWithin_bind {params : List Value} (h : c.bind params = .ok d)
    (hc : c.isWithin u = true) : d.isWithin u = true :=
  isWithin_mapOperands (fun _ _ _ _ => Unknowns.allows_bind) (Nat.le_refl _) c d h hc

/-- **A row replaces the values of an enclosing row.** -/
theorem isWithin_fillOuter {row : Row} (h : c.fillOuter row = .ok d) (hc : c.isWithin u = true) :
    d.isWithin u.withoutOuters = true :=
  isWithin_mapOperands (fun _ _ _ _ => Unknowns.allows_fillOuter) (Nat.le_refl _) c d h hc

end Condition

/-! ## Results of sub-queries -/

/-- The operand that a value of a sub-query is for the store is known. -/
lemma Value.safe_slotOperand (v : Value) :
    Safe (fun o => o.isResolved = true) v.slotOperand := by
  unfold slotOperand
  cases hv : v.operand? with
  | error e =>
    cases v <;> simp only [operand?, Except.error.injEq, reduceCtorEq] at hv <;> subst hv <;> rfl
  | ok o =>
    cases o with
    | none => rfl
    | some o => exact isResolved_operand? hv

namespace SlotResults

variable {rs : SlotResults} {slot : Nat}

/-- There are values for every slot. -/
lemma all_benign (h : slot < rs.length) : Benign (rs.all slot) := by
  rw [all, List.getElem?_eq_getElem h]
  trivial

/-- There are values for every slot. -/
lemma present_benign (h : slot < rs.length) : Benign (rs.present slot) :=
  (all_benign h).bind fun _ _ => .pure trivial

/-- There is a value for every slot. -/
lemma scalar_benign (h : slot < rs.length) : Benign (rs.scalar slot) :=
  (all_benign h).bind fun _ _ => .pure trivial

end SlotResults

namespace Condition

variable {rs : SlotResults}

/-- The comparisons with the values of a slot. -/
lemma safe_equalities (bin : String) (kind : BinKind) (vs : List Value) :
    Safe (fun cs => areWithin .none cs = true) (equalities bin kind vs) := by
  induction vs with
  | nil => rfl
  | cons v vs ih =>
    refine v.safe_slotOperand.bind fun o ho => ih.bind fun cs hcs => ?_
    change areWithin .none (_ :: cs) = true
    rw [areWithin, isWithin, Unknowns.allows_none, ho, hcs]
    rfl

mutual

/-- **The results of sub-queries replace their slots.** -/
theorem safe_substitute : (c : Condition) → c.isWithin ⟨fun _ => false, false, rs.length⟩ = true →
    Safe (fun d => d.isWithin .none = true) (c.substitute rs)
  | compare bin kind c (.slot slot), h => by
    have hslot : slot < rs.length := by simpa [isWithin, Unknowns.allows] using h
    refine (SlotResults.scalar_benign hslot).bind fun v _ => ?_
    refine v.safe_slotOperand.bind fun o ho => ?_
    change Unknowns.none.allows o = true
    rw [Unknowns.allows_none, ho]
  | compare bin kind c (.integer _), _ | compare bin kind c (.text _), _
  | compare bin kind c .null, _ => rfl
  | compare bin kind c (.param _), h | compare bin kind c (.outer _), h => by cases h
  | inSlot bin kind slot, h => by
    have hslot : slot < rs.length := by simpa [isWithin, Unknowns.allows] using h
    exact (SlotResults.present_benign hslot).bind fun vs _ =>
      (safe_equalities bin kind vs).bind fun cs hcs => hcs
  | all cs, h | any cs, h => (safe_substituteList cs h).bind fun ds hds => hds

/-- The results of sub-queries replace the slots of several conditions. -/
theorem safe_substituteList : (cs : List Condition) →
    areWithin ⟨fun _ => false, false, rs.length⟩ cs = true →
    Safe (fun ds => areWithin .none ds = true) (substituteList rs cs)
  | [], _ => rfl
  | c :: cs, h => by
    rw [areWithin, Bool.and_eq_true] at h
    refine (safe_substitute c h.1).bind fun d hd => (safe_substituteList cs h.2).bind
      fun ds hds => ?_
    change areWithin .none (d :: ds) = true
    rw [areWithin, hd, hds]
    rfl

end

end Condition

/-! ## Conditions on keys -/

/-- The key that a value stands for. -/
lemma UserKey.ofValue?_benign (v : Value) : Benign (ofValue? v) := by
  cases v <;> first | rfl | trivial

namespace KeyCondition

variable {u v : Unknowns}

mutual

/-- Whether a condition holds no other unknowns. Sub-queries take the place of single keys only. -/
def isWithin (u : Unknowns) : KeyCondition → Bool
  | equal k => u.allowsKey k
  | among ks => ks.all u.withoutSlots.allowsKey
  | inSlot slot => u.allowsKey (.slot slot)
  | notEqual k => u.allowsKey k
  | range low high => u.withoutSlots.allowsKey low && u.withoutSlots.allowsKey high
  | all cs => areWithin u cs

/-- Whether several conditions hold no other unknowns. -/
def areWithin (u : Unknowns) : List KeyCondition → Bool
  | [] => true
  | c :: cs => isWithin u c && areWithin u cs

end

/-- Several conditions hold no other unknowns if none of them does. -/
lemma areWithin_eq (cs : List KeyCondition) : areWithin u cs = cs.all (isWithin u) := by
  induction cs with
  | nil => rfl
  | cons c cs ih => rw [areWithin, ih, List.all_cons]

mutual

/-- There may be results of more sub-queries, and keys are no values of enclosing rows. -/
theorem isWithin_of_le {params : Nat → Bool} {outers outers' : Bool} {n m : Nat} (hle : n ≤ m) :
    (c : KeyCondition) → c.isWithin ⟨params, outers, n⟩ = true →
      c.isWithin ⟨params, outers', m⟩ = true
  | equal _, h | notEqual _, h => Unknowns.allowsKey_of_le hle h
  | inSlot slot, h => Unknowns.allowsKey_of_le (k := .slot slot) hle h
  | among _, h => h
  | range _ _, h => h
  | all cs, h => areWithin_of_le hle cs h

/-- There may be results of more sub-queries. -/
theorem areWithin_of_le {params : Nat → Bool} {outers outers' : Bool} {n m : Nat} (hle : n ≤ m) :
    (cs : List KeyCondition) → areWithin ⟨params, outers, n⟩ cs = true →
      areWithin ⟨params, outers', m⟩ cs = true
  | [], _ => rfl
  | c :: cs, h => by
    rw [areWithin, Bool.and_eq_true] at h ⊢
    exact ⟨isWithin_of_le hle c h.1, areWithin_of_le hle cs h.2⟩

end

/-- Known keys are no unknowns. -/
lemma isWithin_ofKeys {ks : List KeyOperand} (h : ∀ k ∈ ks, k.isKey = true) :
    (ofKeys ks).isWithin u = true := by
  cases ks with
  | nil => rfl
  | cons k ks =>
    cases ks with
    | nil => exact Unknowns.allowsKey_of_isKey (h k (by simp))
    | cons l ks => exact List.all_eq_true.mpr fun m hm => Unknowns.allowsKey_of_isKey (h m hm)

/-- A condition holds no other unknowns if none of its conjuncts does. -/
lemma areWithin_conjuncts (c : KeyCondition) : areWithin u c.conjuncts = c.isWithin u := by
  cases c <;> simp [conjuncts, isWithin, areWithin]

/-- **Conjunction brings in no unknowns.** -/
theorem isWithin_and {a b : KeyCondition} (ha : a.isWithin u = true) (hb : b.isWithin u = true) :
    (a.and b).isWithin u = true := by
  unfold KeyCondition.and
  split
  · exact ha
  split
  · exact hb
  split
  · rename_i left right hleft hright
    have hkeys := List.all_eq_true.mp (eq_of_namedKeys? hleft).1
    exact isWithin_ofKeys fun k hk => hkeys k (mem_intersect.mp hk).1
  · rw [isWithin, areWithin_eq, List.all_append, ← areWithin_eq, ← areWithin_eq,
      areWithin_conjuncts, areWithin_conjuncts, ha, hb]
    rfl

/-- Several conjunctions bring in no unknowns. -/
lemma isWithin_conjunction {cs : List KeyCondition} (h : areWithin u cs = true) :
    (conjunction cs).isWithin u = true := by
  rw [areWithin_eq, List.all_eq_true] at h
  exact conjunction_induction (P := fun c => c.isWithin u = true) rfl (fun _ _ => isWithin_and) h

/-! ## Programs -/

/-- A key that stands in a program is one that the store compares with, if it is known. -/
lemma isComparable_of_compareProgram_known {k : KeyOperand} {c : Comparison} {p : Program}
    (h : compareProgram c k = .ok p) (hk : k.isKey = true) : k.isComparable = true := by
  simp only [compareProgram, bind_eq_ok] at h
  obtain ⟨o, ho, -⟩ := h
  cases k with
  | key k =>
    cases k with
    | integer i => rfl
    | text s => rfl
    | blob bs => cases ho
  | param index => cases hk
  | slot index => cases hk

/-- Keys that stand in programs are such that the store compares with, if they are known. -/
lemma isComparable_of_equalPrograms_known {ks : List KeyOperand} {p : Program}
    (h : equalPrograms ks = .ok p) (hks : ks.all KeyOperand.isKey = true) :
    ks.all KeyOperand.isComparable = true := by
  induction ks generalizing p with
  | nil => rfl
  | cons k ks ih =>
    simp only [equalPrograms, bind_eq_ok] at h
    obtain ⟨q, hq, q', hq', -⟩ := h
    rw [List.all_cons, Bool.and_eq_true] at hks ⊢
    exact ⟨isComparable_of_compareProgram_known hq hks.1, ih hq' hks.2⟩

mutual

/-- **The program of a condition without unknowns decides it**: all its keys are such that the store
compares with.

**Proof sketch.** By induction on the condition. A key that is known has a program only if it can be
compared; results do not occur. -/
theorem isComparable_of_program : (c : KeyCondition) → c.isWithin .none = true → (p : Program) →
    c.program = .ok p → c.isComparable = true
  | equal k, hc, p, h | notEqual k, hc, p, h => by
    rw [isWithin, Unknowns.allowsKey_none] at hc
    exact isComparable_of_compareProgram_known h hc
  | inSlot slot, hc, p, h => by
    rw [isWithin, Unknowns.allowsKey_none] at hc
    cases hc
  | among ks, hc, p, h => by
    simp only [program, bind_eq_ok] at h
    obtain ⟨q, hq, -⟩ := h
    refine isComparable_of_equalPrograms_known hq (List.all_eq_true.mpr fun k hk => ?_)
    rw [← Unknowns.allowsKey_none]
    exact List.all_eq_true.mp hc k hk
  | range low high, hc, p, h => by
    simp only [program, bind_eq_ok] at h
    obtain ⟨q, hq, q', hq', -⟩ := h
    rw [isWithin, Bool.and_eq_true] at hc
    rw [isComparable, Bool.and_eq_true]
    exact ⟨isComparable_of_compareProgram_known hq (Unknowns.allowsKey_none ▸ hc.1),
      isComparable_of_compareProgram_known hq' (Unknowns.allowsKey_none ▸ hc.2)⟩
  | all cs, hc, p, h => by
    simp only [program, bind_eq_ok] at h
    obtain ⟨q, hq, -⟩ := h
    exact areComparable_of_programs cs hc q hq

/-- The programs of conditions without unknowns decide them. -/
theorem areComparable_of_programs : (cs : List KeyCondition) → areWithin .none cs = true →
    (p : Program) → programs cs = .ok p → areComparable cs = true
  | [], _, _, _ => rfl
  | c :: cs, hcs, p, h => by
    simp only [programs, bind_eq_ok] at h
    obtain ⟨q, hq, q', hq', -⟩ := h
    rw [areWithin, Bool.and_eq_true] at hcs
    rw [areComparable, Bool.and_eq_true]
    exact ⟨isComparable_of_program c hcs.1 q hq, areComparable_of_programs cs hcs.2 q' hq'⟩

end

/-- A program that is not found is missing for a key of bytes. -/
lemma compareProgram_benign (c : Comparison) (k : KeyOperand) : Benign (compareProgram c k) := by
  have hoperand : Benign k.operand := by
    cases k with
    | key k => cases k <;> trivial
    | param index => trivial
    | slot index => trivial
  exact hoperand.bind fun _ _ => .pure trivial

/-- Programs that are not found are missing for keys of bytes. -/
lemma equalPrograms_benign (ks : List KeyOperand) : Benign (equalPrograms ks) := by
  induction ks with
  | nil => trivial
  | cons k ks ih =>
    exact (compareProgram_benign .eq k).bind fun _ _ => ih.bind fun _ _ => .pure trivial

mutual

/-- A program that is not found is missing for a key of bytes. -/
theorem program_benign : (c : KeyCondition) → Benign c.program
  | equal k => compareProgram_benign .eq k
  | notEqual k => compareProgram_benign .ne k
  | inSlot slot => compareProgram_benign .eq (.slot slot)
  | among ks => (equalPrograms_benign ks).bind fun _ _ => .pure trivial
  | range low high => (compareProgram_benign .ge low).bind fun _ _ =>
      (compareProgram_benign .le high).bind fun _ _ => .pure trivial
  | all cs => (programs_benign cs).bind fun _ _ => .pure trivial

/-- Programs that are not found are missing for keys of bytes. -/
theorem programs_benign : (cs : List KeyCondition) → Benign (programs cs)
  | [] => trivial
  | c :: cs => (program_benign c).bind fun _ _ => (programs_benign cs).bind
      fun _ _ => .pure trivial

end

/-! ## Binding -/

/-- A key with its parameter replaced is no parameter.

**Proof sketch.** Only a parameter is replaced, by a key or by none. Every other key stays and is no
parameter. -/
lemma allowsKey_bind {params : List Value} {k : KeyOperand} {k' : Option KeyOperand}
    (h : k.bind params = .ok k') (hk : u.allowsKey k = true) :
    ∀ l ∈ k', u.withoutParams.allowsKey l = true := by
  unfold KeyOperand.bind at h
  split at h
  · simp only [bind_eq_ok] at h
    obtain ⟨v, -, h⟩ := h
    split at h
    · simp only [pure_eq_ok] at h
      subst h
      intro l hl
      cases hl
    · simp only [bind_eq_ok, pure_eq_ok] at h
      obtain ⟨key, -, rfl⟩ := h
      intro l hl
      obtain rfl := Option.some.inj hl
      rfl
  · rename_i hparam
    obtain rfl := Except.ok.inj h
    intro l hl
    obtain rfl := Option.some.inj hl
    cases k with
    | param index => exact absurd rfl (hparam index)
    | key key => rfl
    | slot slot => exact hk

/-- Keys with their parameters replaced are no parameters. -/
lemma allowsKey_bindKeys {params : List Value} {ks ls : List KeyOperand}
    (h : bindKeys params ks = .ok ls) (hks : ks.all u.allowsKey = true) :
    ls.all u.withoutParams.allowsKey = true := by
  induction ks generalizing ls with
  | nil =>
    obtain rfl := Except.ok.inj h
    rfl
  | cons k ks ih =>
    simp only [bindKeys, bind_eq_ok, pure_eq_ok] at h
    obtain ⟨bound, hbound, rest, hrest, rfl⟩ := h
    rw [List.all_cons, Bool.and_eq_true] at hks
    rw [List.all_append, ih hrest hks.2, Bool.and_true]
    exact List.all_eq_true.mpr fun l hl =>
      allowsKey_bind hbound hks.1 l (Option.mem_toList.mp hl)

mutual

/-- **Binding replaces the parameters.**

**Proof sketch.** By induction on the condition: its keys are bound one by one, and where one of
them is null, the condition that finds nothing has no unknowns. -/
theorem isWithin_bind {params : List Value} :
    (c d : KeyCondition) → c.bind params = .ok d → c.isWithin u = true →
      d.isWithin u.withoutParams = true
  | equal k, d, h, hc => by
    simp only [KeyCondition.bind, bind_eq_ok, pure_eq_ok] at h
    obtain ⟨bound, hbound, rfl⟩ := h
    have hk := allowsKey_bind hbound hc
    cases bound with
    | none => rfl
    | some l => exact hk l rfl
  | notEqual k, d, h, hc => by
    simp only [KeyCondition.bind, bind_eq_ok, pure_eq_ok] at h
    obtain ⟨bound, hbound, rfl⟩ := h
    have hk := allowsKey_bind hbound hc
    cases bound with
    | none => rfl
    | some l => exact hk l rfl
  | range low high, d, h, hc => by
    simp only [KeyCondition.bind, bind_eq_ok] at h
    obtain ⟨l, hl, h', hh, h⟩ := h
    rw [isWithin, Bool.and_eq_true] at hc
    have hlow := allowsKey_bind hl hc.1
    have hhigh := allowsKey_bind hh hc.2
    split at h
    · rename_i l u
      simp only [pure_eq_ok] at h
      subst h
      rw [isWithin, Bool.and_eq_true]
      exact ⟨hlow l rfl, hhigh u rfl⟩
    · simp only [pure_eq_ok] at h
      subst h
      rfl
  | among ks, d, h, hc => by
    simp only [KeyCondition.bind, bind_eq_ok, pure_eq_ok] at h
    obtain ⟨ls, hls, rfl⟩ := h
    exact allowsKey_bindKeys hls hc
  | all cs, d, h, hc => by
    simp only [KeyCondition.bind, bind_eq_ok, pure_eq_ok] at h
    obtain ⟨ds, hds, rfl⟩ := h
    exact isWithin_conjunction (areWithin_bindList cs ds hds hc)
  | inSlot slot, d, h, hc => by
    simp only [KeyCondition.bind, Except.ok.injEq] at h
    subst h
    exact hc

/-- Binding replaces the parameters of several conditions. -/
theorem areWithin_bindList {params : List Value} :
    (cs ds : List KeyCondition) → bindList params cs = .ok ds → areWithin u cs = true →
      areWithin u.withoutParams ds = true
  | [], ds, h, _ => by
    simp only [bindList, pure_eq_ok] at h
    subst h
    rfl
  | c :: cs, ds, h, hcs => by
    simp only [bindList, bind_eq_ok, pure_eq_ok] at h
    obtain ⟨d, hd, ds', hds, rfl⟩ := h
    rw [areWithin, Bool.and_eq_true] at hcs ⊢
    exact ⟨isWithin_bind c d hd hcs.1, areWithin_bindList cs ds' hds hcs.2⟩

end

/-! ## Results of sub-queries -/

variable {rs : SlotResults}

/-- A key with the value of its slot is known. -/
lemma safe_substituteKey {k : KeyOperand}
    (hk : (⟨fun _ => false, false, rs.length⟩ : Unknowns).allowsKey k = true) :
    Safe (fun k' => ∀ l ∈ k', l.isKey = true) (k.substitute rs) := by
  cases k with
  | slot slot =>
    have hslot : slot < rs.length := by simpa [Unknowns.allowsKey] using hk
    refine (SlotResults.scalar_benign hslot).bind fun v _ => ?_
    split
    · refine .pure fun l hl => ?_
      cases hl
    · refine (UserKey.ofValue?_benign v).bind fun key _ => .pure fun l hl => ?_
      obtain rfl := Option.some.inj hl
      rfl
  | key key =>
    refine .ok fun l hl => ?_
    obtain rfl := Option.some.inj hl
    rfl
  | param index => cases hk

/-- The keys that values stand for are known. -/
lemma safe_keysOf (vs : List Value) :
    Safe (fun ks => ks.all KeyOperand.isKey = true) (keysOf vs) := by
  induction vs with
  | nil => rfl
  | cons v vs ih =>
    exact (UserKey.ofValue?_benign v).bind fun k _ => ih.bind fun ks hks => .pure (by
      rw [List.all_cons, hks]
      rfl)

mutual

/-- **The results of sub-queries replace their slots.** -/
theorem safe_substitute : (c : KeyCondition) →
    c.isWithin ⟨fun _ => false, false, rs.length⟩ = true →
    Safe (fun d => d.isWithin .none = true) (c.substitute rs)
  | equal k, h | notEqual k, h => by
    refine (safe_substituteKey h).bind fun k' hk' => .pure ?_
    cases k' with
    | none => rfl
    | some l => exact Unknowns.allowsKey_of_isKey (hk' l rfl)
  | inSlot slot, h => by
    have hslot : slot < rs.length := by simpa [isWithin, Unknowns.allowsKey] using h
    refine (SlotResults.present_benign hslot).bind fun vs _ =>
      (safe_keysOf vs).bind fun ks hks => .pure ?_
    exact List.all_eq_true.mpr fun k hk => Unknowns.allowsKey_of_isKey
      (List.all_eq_true.mp hks k hk)
  | among ks, h => h
  | range low high, h => h
  | all cs, h => (safe_substituteList cs h).bind fun ds hds => .pure (isWithin_conjunction hds)

/-- The results of sub-queries replace the slots of several conditions. -/
theorem safe_substituteList : (cs : List KeyCondition) →
    areWithin ⟨fun _ => false, false, rs.length⟩ cs = true →
    Safe (fun ds => areWithin .none ds = true) (substituteList rs cs)
  | [], _ => rfl
  | c :: cs, h => by
    rw [areWithin, Bool.and_eq_true] at h
    refine (safe_substitute c h.1).bind fun d hd => (safe_substituteList cs h.2).bind
      fun ds hds => .pure ?_
    rw [areWithin, hd, hds]
    rfl

end

end KeyCondition

end RecordQuery
