import RecordQuery.Proofs.Predicate.Binding
import RecordQuery.Proofs.Predicate.Kinds
import RecordQuery.Proofs.Predicate.Outer

set_option autoImplicit false

/-!
# Meaning of bound conditions

Binding puts the values of the parameters into a condition and changes the kinds as which bins are
read. It does not change what the condition means, and neither does it matter when the values of a
row are put in: a condition decides the same records if all its unknowns are known from the start.

## Main definitions

* `Resolution.Gives` — the values of the parameters are given ones.
* `Resolution.ofRow` — what is known when a table is joined to a row.

## Main results

* `Condition.holdsIn_bind`, `KeyCondition.holdsIn_bind` — binding keeps what a condition means.
* `Condition.holdsFor_eq` — what a condition means for a row is what it means given the values of
  the row.
* `KeyOperand.exists_bind` — a key with a suitable value is bound to one that can be compared.
-/

namespace RecordQuery

open Outcome

/-- The values of the parameters are given ones. -/
def Resolution.Gives (ρ : Resolution) (params : List Value) : Prop :=
  ∀ index v, param? params index = .ok v → ρ.param index = v

/-- What is known when a table is joined to a row: the parameters and the values of the row. -/
def Resolution.ofRow (params : List Value) (row : Row) : Resolution :=
  ⟨fun index => (param? params index).toOption.getD .null,
    fun source => (row.get? source).getD .null, fun _ => .null, fun _ => []⟩

/-- What a row and parameters resolve gives the parameters their values. -/
lemma Resolution.gives_ofRow (params : List Value) (row : Row) :
    (ofRow params row).Gives params := by
  intro index v hv
  simp only [ofRow, hv]
  rfl

section

variable {ρ : Resolution} {params : List Value}

/-! ## Conditions on bins -/

/-- A bin is compared with the value of a parameter, whatever kind it is then read as.

**Proof sketch.** Only a parameter is replaced, by the operand for its value or, without one, by
itself. The resolution gives the parameter the same operand, and reading the bin as the kind of the
operand makes no difference to it. -/
lemma Operand.accepts_bind (hρ : ρ.Gives params) {o o' : Operand} {kind kind' : BinKind}
    (h : o.bind params kind = .ok (o', kind')) (c : Comparison) (stored : Option Value) :
    (ρ.operand o').accepts kind' c stored = (ρ.operand o).accepts kind c stored := by
  unfold bind at h
  split at h
  · rename_i index
    obtain ⟨v, hv, h⟩ := bind_eq_ok.mp h
    split at h
    · simp at h
    · obtain ⟨bound, hbound, h⟩ := bind_eq_ok.mp h
      cases bound with
      | none =>
        obtain ⟨rfl, rfl⟩ := Prod.mk.inj (Except.ok.inj h)
        rfl
      | some bound =>
        obtain ⟨rfl, rfl⟩ := Prod.mk.inj (Except.ok.inj h)
        have hvalue : ρ.operand (.param index) = bound := by
          rw [Resolution.operand, hρ index v hv]
          exact Value.asOperand_of_operand? hbound
        have hresolved : bound.isResolved = true := by
          rw [← Value.asOperand_of_operand? hbound]
          exact v.isResolved_asOperand
        rw [hvalue, Resolution.operand_of_isResolved hresolved, accepts_orOf]
  · obtain ⟨rfl, rfl⟩ := Prod.mk.inj (Except.ok.inj h)
    rfl

namespace Condition

mutual

/-- **Binding keeps what a condition means.** -/
theorem holdsIn_bind (hρ : ρ.Gives params) (r : Record) : (c d : Condition) →
    c.bind params = .ok d → d.holdsIn ρ r = c.holdsIn ρ r
  | compare bin kind c o, d, h => by
    obtain ⟨⟨o', kind'⟩, ho, h⟩ := bind_eq_ok.mp h
    obtain rfl := Except.ok.inj h
    exact Operand.accepts_bind hρ ho c (r.bin? bin)
  | inSlot bin kind slot, d, h => by
    obtain rfl := Except.ok.inj h
    rfl
  | all cs, d, h => by
    obtain ⟨ds, hds, h⟩ := bind_eq_ok.mp h
    obtain rfl := Except.ok.inj h
    rw [holdsIn, holdsIn, holdsAllIn_eq, holdsAllIn_eq, map_holdsIn_bindList hρ r cs ds hds]
  | any cs, d, h => by
    obtain ⟨ds, hds, h⟩ := bind_eq_ok.mp h
    obtain rfl := Except.ok.inj h
    rw [holdsIn, holdsIn, holdsAnyIn_eq, holdsAnyIn_eq, map_holdsIn_bindList hρ r cs ds hds]

/-- Binding keeps what several conditions mean. -/
theorem map_holdsIn_bindList (hρ : ρ.Gives params) (r : Record) : (cs ds : List Condition) →
    mapOperandsList (Operand.bind params) cs = .ok ds →
    ds.map (holdsIn ρ r) = cs.map (holdsIn ρ r)
  | [], ds, h => by
    obtain rfl := Except.ok.inj h
    rfl
  | c :: cs, ds, h => by
    obtain ⟨d, hd, h⟩ := bind_eq_ok.mp h
    obtain ⟨ds', hds, h⟩ := bind_eq_ok.mp h
    obtain rfl := Except.ok.inj h
    rw [List.map_cons, List.map_cons, holdsIn_bind hρ r c d hd,
      map_holdsIn_bindList hρ r cs ds' hds]

end

end Condition

/-! ## Conditions on the key -/

/-- A parameter stands for the key of its value. -/
lemma KeyOperand.key?_bind (hρ : ρ.Gives params) {k : KeyOperand} {bound : Option KeyOperand}
    (h : k.bind params = .ok bound) : ρ.key? k = bound.bind ρ.key? := by
  unfold bind at h
  split at h
  · rename_i index
    obtain ⟨v, hv, h⟩ := bind_eq_ok.mp h
    rw [Resolution.key?, hρ index v hv]
    split at h
    · rename_i hnull
      obtain rfl := Except.ok.inj h
      cases v <;> first | rfl | cases hnull
    · obtain ⟨key, hkey, h⟩ := bind_eq_ok.mp h
      obtain rfl := Except.ok.inj h
      rw [hkey]
      rfl
  · obtain rfl := Except.ok.inj h
    rfl

namespace KeyCondition

/-- The conjunction of several conditions holds if each of them does. -/
lemma holdsIn_conjunction (k : UserKey) (cs : List KeyCondition) :
    (conjunction cs).holdsIn ρ k = (cs.map (holdsIn ρ k)).all id := by
  have hfold : ∀ (cs : List KeyCondition) (c : KeyCondition), (cs.foldl and c).holdsIn ρ k =
      (c.holdsIn ρ k && (cs.map (holdsIn ρ k)).all id) := by
    intro cs
    induction cs with
    | nil => simp
    | cons d cs ih =>
      intro c
      rw [List.foldl_cons, ih, holdsIn_and, List.map_cons, List.all_cons, Bool.and_assoc]
      rfl
  cases cs with
  | nil => rfl
  | cons c cs => exact hfold cs c

/-- Comparing with a key that is bound. -/
lemma accepts_bind (hρ : ρ.Gives params) {k : KeyOperand} {bound : Option KeyOperand}
    (h : k.bind params = .ok bound) (c : Comparison) (key : UserKey) :
    ρ.accepts c key k = bound.any (ρ.accepts c key) := by
  rw [Resolution.accepts, KeyOperand.key?_bind hρ h]
  cases bound <;> rfl

/-- Looking for the key among keys that are bound. -/
lemma any_bindKeys (hρ : ρ.Gives params) (key : UserKey) {ks ks' : List KeyOperand}
    (h : bindKeys params ks = .ok ks') :
    ks'.any (ρ.accepts .eq key) = ks.any (ρ.accepts .eq key) := by
  induction ks generalizing ks' with
  | nil =>
    obtain rfl := Except.ok.inj h
    rfl
  | cons k ks ih =>
    obtain ⟨bound, hbound, h⟩ := bind_eq_ok.mp h
    obtain ⟨rest, hrest, h⟩ := bind_eq_ok.mp h
    obtain rfl := Except.ok.inj h
    rw [List.any_append, List.any_cons, ih hrest, accepts_bind hρ hbound]
    cases bound <;> simp

mutual

/-- **Binding keeps what a condition on the key means.** A null among the keys finds nothing.

**Proof sketch.** By induction on the condition. Bound keys are accepted as the parameters were; a
null among the bounds makes both sides false, and conjunctions follow from their parts. -/
theorem holdsIn_bind (hρ : ρ.Gives params) (key : UserKey) : (c d : KeyCondition) →
    c.bind params = .ok d → d.holdsIn ρ key = c.holdsIn ρ key
  | equal k, d, h => by
    obtain ⟨bound, hbound, h⟩ := bind_eq_ok.mp h
    obtain rfl := Except.ok.inj h
    rw [holdsIn, accepts_bind hρ hbound]
    cases bound <;> rfl
  | notEqual k, d, h => by
    obtain ⟨bound, hbound, h⟩ := bind_eq_ok.mp h
    obtain rfl := Except.ok.inj h
    rw [holdsIn, accepts_bind hρ hbound]
    cases bound <;> rfl
  | range low high, d, h => by
    obtain ⟨l, hl, h⟩ := bind_eq_ok.mp h
    obtain ⟨u, hu, h⟩ := bind_eq_ok.mp h
    rw [holdsIn, accepts_bind hρ hl, accepts_bind hρ hu]
    cases l <;> cases u <;> obtain rfl := Except.ok.inj h <;> simp [holdsIn, holdsIn_none]
  | among ks, d, h => by
    obtain ⟨ks', hks, h⟩ := bind_eq_ok.mp h
    obtain rfl := Except.ok.inj h
    rw [holdsIn, holdsIn, any_bindKeys hρ key hks]
  | all cs, d, h => by
    obtain ⟨ds, hds, h⟩ := bind_eq_ok.mp h
    obtain rfl := Except.ok.inj h
    rw [holdsIn_conjunction, holdsIn, holdsAllIn_eq, map_holdsIn_bindList hρ key cs ds hds]
  | inSlot slot, d, h => by
    obtain rfl := Except.ok.inj h
    rfl

/-- Binding keeps what several conditions on the key mean. -/
theorem map_holdsIn_bindList (hρ : ρ.Gives params) (key : UserKey) : (cs ds : List KeyCondition) →
    bindList params cs = .ok ds → ds.map (holdsIn ρ key) = cs.map (holdsIn ρ key)
  | [], ds, h => by
    obtain rfl := Except.ok.inj h
    rfl
  | c :: cs, ds, h => by
    obtain ⟨d, hd, h⟩ := bind_eq_ok.mp h
    obtain ⟨ds', hds, h⟩ := bind_eq_ok.mp h
    obtain rfl := Except.ok.inj h
    rw [List.map_cons, List.map_cons, holdsIn_bind hρ key c d hd,
      map_holdsIn_bindList hρ key cs ds' hds]

end

end KeyCondition

end

/-! ## Keys that can be compared -/

/-- A key that can be compared stands for the same key in all circumstances. -/
lemma KeyCondition.holdsIn_of_isComparable {c : KeyCondition} (h : c.isComparable = true)
    (ρ σ : Resolution) (key : UserKey) : c.holdsIn ρ key = c.holdsIn σ key := by
  let r : Record := ⟨⟨"", "", key⟩, OrderedMap.empty⟩
  obtain ⟨p, hp, -, hρ⟩ := program_run ρ h
  obtain ⟨q, hq, -, hσ⟩ := program_run σ h
  obtain rfl := Except.ok.inj (hp.symm.trans hq)
  exact Except.ok.inj ((hρ r).symm.trans (hσ r))

/-- Whether a key is known and can be compared, or a parameter whose value is null or one with
which the store compares. -/
def KeyOperand.isBindable (params : List Value) : KeyOperand → Bool
  | key k => k.isComparable
  | param index => (param? params index).toOption.any Value.isJoinable
  | slot _ => false

/-- Such a key is bound to one that can be compared, or to none.

**Proof sketch.** By the value of the parameter: null is bound to no key, truth values, integers and
texts to keys that can be compared, and the others are excluded. -/
lemma KeyOperand.exists_bind {params : List Value} {k : KeyOperand}
    (h : k.isBindable params = true) :
    ∃ bound, k.bind params = .ok bound ∧ bound.all KeyOperand.isComparable = true := by
  cases k with
  | key k => exact ⟨some (.key k), rfl, h⟩
  | slot slot => cases h
  | param index =>
    cases hv : param? params index with
    | error e => simp [isBindable, hv, Except.toOption] at h
    | ok v =>
      have hjoinable : v.isJoinable = true := by
        simpa [isBindable, hv, Except.toOption] using h
      simp only [bind, hv, ok_bind]
      cases v with
      | null => exact ⟨none, rfl, rfl⟩
      | boolean b => exact ⟨some (.key (.integer (boolInt b))), rfl, rfl⟩
      | integer i => exact ⟨some (.key (.integer i)), rfl, rfl⟩
      | text s => exact ⟨some (.key (.text s)), rfl, rfl⟩
      | float x => cases hjoinable
      | blob bs => cases hjoinable
      | list vs => cases hjoinable

/-- Several such keys are bound to keys that can be compared. -/
lemma KeyCondition.exists_bindKeys {params : List Value} {ks : List KeyOperand}
    (h : ∀ k ∈ ks, k.isBindable params = true) :
    ∃ ks', bindKeys params ks = .ok ks' ∧ ks'.all KeyOperand.isComparable = true := by
  induction ks with
  | nil => exact ⟨[], rfl, rfl⟩
  | cons k ks ih =>
    obtain ⟨bound, hbound, hk⟩ := KeyOperand.exists_bind (h k List.mem_cons_self)
    obtain ⟨ks', hks, hall⟩ := ih fun l hl => h l (List.mem_cons_of_mem k hl)
    refine ⟨bound.toList ++ ks', ?_, ?_⟩
    · simp only [bindKeys, hbound, hks, ok_bind, pure, Except.pure]
    · rw [List.all_append, hall, Bool.and_true]
      cases bound with
      | none => rfl
      | some l => simpa using hk

/-! ## Conditions for a row -/

/-- A bin is compared with a value of a row as with the operand that the value is. -/
lemma Value.asOperand_accepts (v : Value) (c : Comparison) (stored : Option Value) :
    v.asOperand.accepts .unknown c stored = stored.any (fun w => w.meets c v) := by
  cases stored with
  | none => cases v <;> rfl
  | some w => cases v <;> cases w <;> rfl

namespace Condition

variable {params : List Value} {row : Row}

mutual

/-- **What a condition means for a row** is what it means given the values of the row, if no other
values are missing and bins that are compared with values of the row are read as any kind.

**Proof sketch.** By induction on the condition. A comparison with a value of the row reads it as an
operand on both sides, since the bin is read as any kind; parameters and results do not occur. -/
theorem holdsFor_eq (r : Record) : (c : Condition) → c.isWithin .outersOnly = true →
    c.isKinded = true → c.holdsFor row r = c.holdsIn (.ofRow params row) r
  | compare bin kind c o, hwithin, hkinded => by
    cases o with
    | outer source =>
      obtain rfl : kind = .unknown := by simpa [isKinded, BinKind.admits] using hkinded
      rw [holdsFor, holdsIn]
      change _ = (((row.get? source).getD .null).asOperand).accepts .unknown c (r.bin? bin)
      rw [Value.asOperand_accepts]
      cases row.get? source with
      | some v => rfl
      | none => cases r.bin? bin <;> simp
    | integer i => rfl
    | text s => rfl
    | null => rfl
    | param index => cases hwithin
    | slot slot => simp [isWithin, Unknowns.allows, Unknowns.outersOnly] at hwithin
  | inSlot bin kind slot, hwithin, _ => by
    simp [isWithin, Unknowns.allows, Unknowns.outersOnly] at hwithin
  | all cs, hwithin, hkinded => (holdsFor_list_eq r cs hwithin hkinded).1
  | any cs, hwithin, hkinded => (holdsFor_list_eq r cs hwithin hkinded).2

/-- What several conditions mean for a row. -/
theorem holdsFor_list_eq (r : Record) : (cs : List Condition) → areWithin .outersOnly cs = true →
    areKinded cs = true → holdsAllFor row r cs = holdsAllIn (.ofRow params row) r cs ∧
      holdsAnyFor row r cs = holdsAnyIn (.ofRow params row) r cs
  | [], _, _ => ⟨rfl, rfl⟩
  | c :: cs, hwithin, hkinded => by
    rw [areWithin, Bool.and_eq_true] at hwithin
    rw [areKinded, Bool.and_eq_true] at hkinded
    have hfirst := holdsFor_eq r c hwithin.1 hkinded.1
    obtain ⟨hall, hany⟩ := holdsFor_list_eq r cs hwithin.2 hkinded.2
    rw [holdsAllFor, holdsAnyFor, holdsAllIn, holdsAnyIn, hfirst, hall, hany]
    exact ⟨rfl, rfl⟩

end

mutual

/-- The values of a row that take their places in a condition are ones with which the store can
compare. -/
theorem isJoinable_of_fillOuter : (c d : Condition) → c.fillOuter row = .ok d →
    ∀ s ∈ c.outers, (row.get? s).all Value.isJoinable = true
  | compare bin kind c o, d, h, s, hs => by
    cases o with
    | outer source =>
      obtain rfl : s = source := List.mem_singleton.mp hs
      obtain ⟨⟨o', kind'⟩, ho, -⟩ := bind_eq_ok.mp h
      cases hrow : row.get? s with
      | none => rfl
      | some v =>
        simp only [Operand.fillOuter, hrow] at ho
        cases v <;> first | rfl | (simp [Value.joinOperand] at ho)
    | _ => cases hs
  | inSlot _ _ _, _, _, _, hs => by cases hs
  | all cs, d, h, s, hs => by
    obtain ⟨ds, hds, -⟩ := bind_eq_ok.mp h
    exact isJoinable_of_fillOuterList cs ds hds s hs
  | any cs, d, h, s, hs => by
    obtain ⟨ds, hds, -⟩ := bind_eq_ok.mp h
    exact isJoinable_of_fillOuterList cs ds hds s hs

/-- The values of a row that take their places in several conditions. -/
theorem isJoinable_of_fillOuterList : (cs ds : List Condition) →
    mapOperandsList (Operand.fillOuter row) cs = .ok ds →
    ∀ s ∈ outersIn cs, (row.get? s).all Value.isJoinable = true
  | [], _, _, _, hs => by cases hs
  | c :: cs, ds, h, s, hs => by
    obtain ⟨d, hd, h⟩ := bind_eq_ok.mp h
    obtain ⟨ds', hds, -⟩ := bind_eq_ok.mp h
    rcases List.mem_append.mp hs with hs | hs
    · exact isJoinable_of_fillOuter c d hd s hs
    · exact isJoinable_of_fillOuterList cs ds' hds s hs

end

end Condition

end RecordQuery
