import RecordQuery.Proofs.Predicate.Meaning

set_option autoImplicit false

/-!
# Results of sub-queries in conditions

A condition with slots for sub-queries has a meaning as soon as their values are known: a list of
values is looked through, and a comparison takes the first one, null if there is none. Putting the
values into the condition changes its shape: a slot becomes several comparisons, a null none, and
conditions on the key are merged anew. It does not change the meaning.

## Main definitions

* `Resolution.ofSlots` — what is known when the sub-queries have run.
* `SlotResults.IsJoinable` — the store can compare with all values, or they are null.

## Main results

* `Condition.exists_substitute`, `KeyCondition.exists_substitute` — the values of sub-queries take
  the places of their slots, and the store decides what the condition means.
-/

namespace RecordQuery

open Outcome

/-- What is known when the sub-queries have run. -/
def Resolution.ofSlots (rs : SlotResults) : Resolution :=
  ⟨fun _ => .null, fun _ => .null, fun slot => ((rs[slot]?.getD []).head?).getD .null,
    fun slot => rs[slot]?.getD []⟩

/-- The store can compare with all values of sub-queries, or they are null. -/
def SlotResults.IsJoinable (rs : SlotResults) : Prop :=
  ∀ vs ∈ rs, ∀ v ∈ vs, v.isJoinable = true

namespace SlotResults

variable {rs : SlotResults} {slot : Nat}

/-- The values of a slot. -/
lemma all_eq (h : slot < rs.length) : rs.all slot = .ok ((Resolution.ofSlots rs).members slot) := by
  simp only [all, Resolution.ofSlots, List.getElem?_eq_getElem h, Option.getD_some]

/-- The values of a slot that are not null. -/
lemma present_eq (h : slot < rs.length) :
    rs.present slot = .ok (((Resolution.ofSlots rs).members slot).filter fun v => !v.isNull) := by
  rw [present, all_eq h]
  rfl

/-- The one value of a slot. -/
lemma scalar_eq (h : slot < rs.length) :
    rs.scalar slot = .ok ((Resolution.ofSlots rs).slot slot) := by
  rw [scalar, all_eq h]
  rfl

/-- The store can compare with the values of a slot. -/
lemma IsJoinable.members (h : rs.IsJoinable) :
    ∀ v ∈ (Resolution.ofSlots rs).members slot, v.isJoinable = true := by
  intro v hv
  simp only [Resolution.ofSlots] at hv
  cases hvs : rs[slot]? with
  | none => simp [hvs] at hv
  | some vs =>
    rw [hvs, Option.getD_some] at hv
    exact h vs (List.mem_of_getElem? hvs) v hv

/-- The store can compare with the one value of a slot. -/
lemma IsJoinable.scalar (h : rs.IsJoinable) :
    ((Resolution.ofSlots rs).slot slot).isJoinable = true := by
  have hmembers : ∀ v ∈ (Resolution.ofSlots rs).members slot, v.isJoinable = true := h.members
  simp only [Resolution.ofSlots] at hmembers ⊢
  cases hvs : rs[slot]?.getD [] with
  | nil => rfl
  | cons v vs => exact hmembers v (by simp [hvs])

end SlotResults

variable {rs : SlotResults}

/-! ## Conditions on bins -/

/-- A value with which the store can compare is the operand that it stands for. -/
lemma Value.slotOperand_eq {v : Value} (hv : v.isJoinable = true) :
    v.slotOperand = .ok v.asOperand := by
  cases v <;> first | rfl | cases hv

namespace Condition

/-- The comparisons of a bin with values with which the store can compare. -/
lemma equalities_eq (bin : String) (kind : BinKind) {vs : List Value}
    (h : ∀ v ∈ vs, v.isJoinable = true) :
    equalities bin kind vs =
      .ok (vs.map fun v => compare bin (kind.orOf v.asOperand) .eq v.asOperand) := by
  induction vs with
  | nil => rfl
  | cons v vs ih =>
    rw [equalities, Value.slotOperand_eq (h v List.mem_cons_self),
      ih fun w hw => h w (List.mem_cons_of_mem v hw)]
    rfl

/-- A null equals nothing that is stored. -/
lemma any_present (kind : BinKind) (stored : Option Value) (vs : List Value) :
    (vs.filter fun v => !v.isNull).any (fun v => v.asOperand.accepts kind .eq stored) =
      vs.any fun v => v.asOperand.accepts kind .eq stored := by
  rw [List.any_filter]
  congr 1
  funext v
  cases v with
  | null => exact (Operand.accepts_null kind .eq stored).symm
  | _ => rfl

mutual

/-- **The values of sub-queries take the places of their slots**, and the condition keeps its
meaning.

**Proof sketch.** Induction on the condition. A slot in a comparison becomes an operand, and as
which kind the bin is then read makes no difference (`Operand.accepts_orOf`). A slot with a list
becomes one comparison for every value but null, and null would equal nothing. -/
theorem exists_substitute (hrs : rs.IsJoinable) :
    (c : Condition) → c.isWithin ⟨fun _ => false, false, rs.length⟩ = true →
      ∃ d, c.substitute rs = .ok d ∧ ∀ r : Record, d.holds r = c.holdsIn (.ofSlots rs) r
  | compare bin kind c (.slot slot), h => by
    have hslot : slot < rs.length := by simpa [isWithin, Unknowns.allows] using h
    let v := (Resolution.ofSlots rs).slot slot
    refine ⟨compare bin (kind.orOf v.asOperand) c v.asOperand, ?_, fun r => ?_⟩
    · rw [substitute, SlotResults.scalar_eq hslot, ok_bind, Value.slotOperand_eq hrs.scalar]
      rfl
    · exact Operand.accepts_orOf kind c (r.bin? bin) v.asOperand
  | compare bin kind c (.integer _), _ | compare bin kind c (.text _), _
  | compare bin kind c .null, _ => ⟨_, rfl, fun r => rfl⟩
  | compare bin kind c (.param _), h | compare bin kind c (.outer _), h => by cases h
  | inSlot bin kind slot, h => by
    have hslot : slot < rs.length := by simpa [isWithin, Unknowns.allows] using h
    let vs := ((Resolution.ofSlots rs).members slot).filter fun v => !v.isNull
    have hvs : ∀ v ∈ vs, v.isJoinable = true := fun v hv =>
      hrs.members v (List.mem_filter.mp hv).1
    refine ⟨any (vs.map fun v => compare bin (kind.orOf v.asOperand) .eq v.asOperand), ?_,
      fun r => ?_⟩
    · rw [substitute, SlotResults.present_eq hslot, ok_bind, equalities_eq bin kind hvs]
      rfl
    · rw [holds, holdsAny_eq, holdsIn, ← any_present, List.map_map, List.any_map]
      simp only [Function.comp_def, holds, Operand.accepts_orOf, id_eq]
      rfl
  | all cs, h => by
    obtain ⟨ds, hds, hholds⟩ := exists_substituteList hrs cs h
    refine ⟨all ds, by rw [substitute, hds]; rfl, fun r => ?_⟩
    rw [holds, holdsIn, holdsAll_eq, holdsAllIn_eq, hholds]
  | any cs, h => by
    obtain ⟨ds, hds, hholds⟩ := exists_substituteList hrs cs h
    refine ⟨any ds, by rw [substitute, hds]; rfl, fun r => ?_⟩
    rw [holds, holdsIn, holdsAny_eq, holdsAnyIn_eq, hholds]

/-- The values of sub-queries take the places of their slots in several conditions. -/
theorem exists_substituteList (hrs : rs.IsJoinable) :
    (cs : List Condition) → areWithin ⟨fun _ => false, false, rs.length⟩ cs = true →
      ∃ ds, substituteList rs cs = .ok ds ∧
        ∀ r : Record, ds.map (holds r) = cs.map (holdsIn (.ofSlots rs) r)
  | [], _ => ⟨[], rfl, fun r => rfl⟩
  | c :: cs, h => by
    rw [areWithin, Bool.and_eq_true] at h
    obtain ⟨d, hd, hholds⟩ := exists_substitute hrs c h.1
    obtain ⟨ds, hds, hholdss⟩ := exists_substituteList hrs cs h.2
    refine ⟨d :: ds, by rw [substituteList, hd, hds]; rfl, fun r => ?_⟩
    rw [List.map_cons, List.map_cons, hholds, hholdss]

end

end Condition

/-! ## Conditions on the key -/

/-- A value with which the store can compare is a key with which it can, unless it is null. -/
lemma UserKey.exists_ofValue? {v : Value} (hv : v.isJoinable = true) (hnull : v.isNull = false) :
    ∃ k, ofValue? v = .ok k ∧ k.isComparable = true := by
  cases v with
  | boolean b => exact ⟨_, rfl, rfl⟩
  | integer i => exact ⟨_, rfl, rfl⟩
  | text s => exact ⟨_, rfl, rfl⟩
  | null => cases hnull
  | float x => cases hv
  | blob bs => cases hv
  | list vs => cases hv

/-- Null is no key. -/
lemma UserKey.ofValue?_of_isNull {v : Value} (hnull : v.isNull = true) :
    (ofValue? v).toOption = none := by
  cases v <;> first | rfl | cases hnull

/-- The value of a slot is a key with which the store can compare, or none if it is null; other keys
stay as they are.

**Proof sketch.** A key stays, and can be compared since it has a program. A slot is within the
results, and its value is either null, which is no key, or becomes a key, as results that can be
joined do. -/
lemma KeyOperand.exists_substitute (hrs : rs.IsJoinable) {k : KeyOperand}
    (h : Unknowns.allowsKey ⟨fun _ => false, false, rs.length⟩ k = true) {c : Comparison}
    {p : Program} (hp : KeyCondition.compareProgram c k = .ok p) :
    ∃ k', k.substitute rs = .ok k' ∧ k'.all KeyOperand.isComparable = true ∧
      ∀ (c : Comparison) (key : UserKey), k'.any ((Resolution.ofSlots rs).accepts c key) =
        (Resolution.ofSlots rs).accepts c key k := by
  cases k with
  | param index => cases h
  | key l =>
    refine ⟨some (.key l), rfl, ?_, fun c key => rfl⟩
    exact KeyCondition.isComparable_of_compareProgram_known hp rfl
  | slot slot =>
    have hslot : slot < rs.length := by simpa [Unknowns.allowsKey] using h
    rw [KeyOperand.substitute, SlotResults.scalar_eq hslot, ok_bind]
    cases hnull : ((Resolution.ofSlots rs).slot slot).isNull with
    | true =>
      refine ⟨none, rfl, rfl, fun c key => ?_⟩
      rw [Resolution.accepts, Resolution.key?, UserKey.ofValue?_of_isNull hnull]
      rfl
    | false =>
      obtain ⟨l, hl, hcomparable⟩ := UserKey.exists_ofValue? hrs.scalar hnull
      have hkey : (Resolution.ofSlots rs).key? (.slot slot) = some l := by
        rw [Resolution.key?, hl]
        rfl
      exact ⟨some (.key l), by rw [hl]; rfl, hcomparable,
        fun c key => (congrArg (Option.any (key.satisfies c)) hkey).symm⟩

namespace KeyCondition

/-- The keys that values other than null stand for, if the store can compare with the values. -/
lemma exists_keysOf {vs : List Value} (h : ∀ v ∈ vs, v.isJoinable = true)
    (hnull : ∀ v ∈ vs, v.isNull = false) :
    ∃ ks, keysOf vs = .ok ks ∧ ks.all KeyOperand.isComparable = true ∧
      ∀ (ρ : Resolution) (key : UserKey), ks.any (ρ.accepts .eq key) =
        vs.any fun v => (UserKey.ofValue? v).toOption.any (key.satisfies .eq) := by
  induction vs with
  | nil => exact ⟨[], rfl, rfl, fun ρ key => rfl⟩
  | cons v vs ih =>
    obtain ⟨k, hk, hcomparable⟩ :=
      UserKey.exists_ofValue? (h v List.mem_cons_self) (hnull v List.mem_cons_self)
    obtain ⟨ks, hks, hall, hany⟩ := ih (fun w hw => h w (List.mem_cons_of_mem v hw))
      fun w hw => hnull w (List.mem_cons_of_mem v hw)
    refine ⟨.key k :: ks, by rw [keysOf, hk, hks]; rfl, ?_, fun ρ key => ?_⟩
    · rw [List.all_cons, hall, Bool.and_true]
      exact hcomparable
    · rw [List.any_cons, List.any_cons, hany, hk]
      rfl

/-- A null is no key, so that it does not matter among values that one looks through. -/
lemma any_present (key : UserKey) (vs : List Value) :
    ((vs.filter fun v => !v.isNull).any fun v =>
        (UserKey.ofValue? v).toOption.any (key.satisfies .eq)) =
      vs.any fun v => (UserKey.ofValue? v).toOption.any (key.satisfies .eq) := by
  rw [List.any_filter]
  congr 1
  funext v
  cases hnull : v.isNull with
  | true => rw [UserKey.ofValue?_of_isNull hnull]; rfl
  | false => rfl

/-- Several conjunctions keep keys that can be compared. -/
lemma isComparable_conjunction {cs : List KeyCondition} (h : areComparable cs = true) :
    (conjunction cs).isComparable = true := by
  rw [areComparable_eq, List.all_eq_true] at h
  exact conjunction_induction (P := fun c => c.isComparable = true) rfl
    (fun _ _ => isComparable_and) h

/-- A condition that names its keys has no slots. -/
lemma substitute_of_namedKeys? {c : KeyCondition} {ks : List KeyOperand}
    (h : c.namedKeys? = some ks) : c.substitute rs = .ok c := by
  obtain ⟨hkeys, ⟨o, rfl, rfl⟩ | rfl⟩ := eq_of_namedKeys? h
  · cases o with
    | key k => rfl
    | param index => cases hkeys
    | slot slot => cases hkeys
  · rfl

mutual

/-- **The values of sub-queries take the places of their slots** in a condition on the key that has
a program, and the condition keeps its meaning; the store can compare with all keys of what comes
out.

**Proof sketch.** Induction on the condition. A slot becomes a key and a slot with a list becomes
several; a null leaves the condition that no key satisfies. Conjuncts are put together anew, which
is exact (`holdsIn_conjunction`). -/
theorem exists_substitute (hrs : rs.IsJoinable) :
    (c : KeyCondition) → c.isWithin ⟨fun _ => false, false, rs.length⟩ = true → (p : Program) →
      c.program = .ok p →
      ∃ d, c.substitute rs = .ok d ∧ d.isComparable = true ∧
        ∀ key : UserKey, d.holdsIn (.ofSlots rs) key = c.holdsIn (.ofSlots rs) key
  | equal k, h, p, hp => by
    obtain ⟨k', hk', hcomparable, haccepts⟩ := KeyOperand.exists_substitute hrs h hp
    rw [substitute, hk']
    cases k' with
    | none => exact ⟨none, rfl, rfl, haccepts .eq⟩
    | some l => exact ⟨equal l, rfl, hcomparable, haccepts .eq⟩
  | notEqual k, h, p, hp => by
    obtain ⟨k', hk', hcomparable, haccepts⟩ := KeyOperand.exists_substitute hrs h hp
    rw [substitute, hk']
    cases k' with
    | none => exact ⟨none, rfl, rfl, haccepts .ne⟩
    | some l => exact ⟨notEqual l, rfl, hcomparable, haccepts .ne⟩
  | inSlot slot, h, p, hp => by
    have hslot : slot < rs.length := by simpa [isWithin, Unknowns.allowsKey] using h
    let vs := ((Resolution.ofSlots rs).members slot).filter fun v => !v.isNull
    have hvs : ∀ v ∈ vs, v.isJoinable = true := fun v hv =>
      hrs.members v (List.mem_filter.mp hv).1
    have hnull : ∀ v ∈ vs, v.isNull = false := fun v hv => by
      simpa using (List.mem_filter.mp hv).2
    obtain ⟨ks, hks, hcomparable, hany⟩ := exists_keysOf hvs hnull
    refine ⟨among ks, ?_, hcomparable, fun key => ?_⟩
    · rw [substitute, SlotResults.present_eq hslot, ok_bind, hks]
      rfl
    · rw [holdsIn, hany, any_present]
      rfl
  | among ks, h, p, hp =>
    ⟨among ks, rfl, isComparable_of_program (among ks) h p hp, fun key => rfl⟩
  | range low high, h, p, hp =>
    ⟨range low high, rfl, isComparable_of_program (range low high) h p hp, fun key => rfl⟩
  | all cs, h, p, hp => by
    obtain ⟨q, hq, -⟩ := bind_eq_ok.mp hp
    obtain ⟨ds, hds, hcomparable, hholds⟩ := exists_substituteList hrs cs h q hq
    refine ⟨conjunction ds, by rw [substitute, hds]; rfl, isComparable_conjunction hcomparable,
      fun key => ?_⟩
    rw [holdsIn_conjunction, holdsIn, holdsAllIn_eq, hholds]

/-- The values of sub-queries take the places of their slots in several conditions on the key. -/
theorem exists_substituteList (hrs : rs.IsJoinable) :
    (cs : List KeyCondition) → areWithin ⟨fun _ => false, false, rs.length⟩ cs = true →
      (p : Program) → programs cs = .ok p →
      ∃ ds, substituteList rs cs = .ok ds ∧ areComparable ds = true ∧
        ∀ key : UserKey, ds.map (holdsIn (.ofSlots rs) key) = cs.map (holdsIn (.ofSlots rs) key)
  | [], _, _, _ => ⟨[], rfl, rfl, fun key => rfl⟩
  | c :: cs, h, p, hp => by
    rw [areWithin, Bool.and_eq_true] at h
    obtain ⟨q, hq, hp⟩ := bind_eq_ok.mp hp
    obtain ⟨q', hq', -⟩ := bind_eq_ok.mp hp
    obtain ⟨d, hd, hcomparable, hholds⟩ := exists_substitute hrs c h.1 q hq
    obtain ⟨ds, hds, hcomparables, hholdss⟩ := exists_substituteList hrs cs h.2 q' hq'
    refine ⟨d :: ds, by rw [substituteList, hd, hds]; rfl, ?_, fun key => ?_⟩
    · rw [areComparable, hcomparable, hcomparables]
      rfl
    · rw [List.map_cons, List.map_cons, hholds, hholdss]

end

end KeyCondition

end RecordQuery
