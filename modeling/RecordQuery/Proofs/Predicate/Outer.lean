import RecordQuery.Proofs.Predicate.Resolution
import RecordQuery.Proofs.Predicate.Unknowns

set_option autoImplicit false

/-!
# Conditions for a row

The condition on a joined table may compare bins with values of the row to which the table is
joined. Before the store decides it, the values take their places and the bins are read as the kinds
of these values. What it then decides can be said without any of this: a bin and a value of the row
are compared as integers, truth values counting as `0` and `1`, or as texts, and what is absent or
null satisfies no comparison.

## Main definitions

* `Value.meets` — the comparison of two values as integers or as texts.
* `Value.isJoinable` — a value with which the store can compare, or null.
* `Condition.outers` — the places of the row to which a condition refers.
* `Condition.holdsFor` — whether a record satisfies a condition, for a row.

## Main results

* `Condition.exists_fillOuter` — the values of a row take their places, and the store decides what
  the condition means for this row.
-/

namespace RecordQuery

namespace Value

/-- Whether two values, in this order, satisfy a comparison: as integers, truth values counting as
`0` and `1`, or as texts. -/
def meets (c : Comparison) : Value → Value → Bool
  | text s, text t => c.admits (compare s t)
  | v, w =>
    match v.asInt?, w.asInt? with
    | some a, some b => c.admits (compare a.toInt b.toInt)
    | _, _ => false

/-- Whether the store can compare with a value, or the value is null. -/
def isJoinable : Value → Bool
  | null | boolean _ | integer _ | text _ => true
  | float _ | blob _ | list _ => false

/-- Null satisfies no comparison. -/
@[simp]
lemma meets_null (c : Comparison) (v : Value) : v.meets c null = false := by
  cases v <;> rfl

/-- A value with which the store can compare is an operand, and null is null.

**Proof sketch.** By the value. Truth values become integers, integers and texts stay, and each is
compared with a stored value of any kind as the value is; null is an operand that meets nothing. -/
lemma exists_joinOperand {v : Value} (hv : v.isJoinable = true) :
    ∃ o, v.joinOperand = .ok o ∧ o.isResolved = true ∧
      ∀ (c : Comparison) (stored : Option Value),
        o.accepts o.kind c stored = stored.any (fun w => w.meets c v) := by
  cases v with
  | null => exact ⟨.null, rfl, rfl, fun c stored => by simp⟩
  | boolean b =>
    refine ⟨.integer (boolInt b), rfl, rfl, fun c stored => ?_⟩
    cases stored with
    | none => rfl
    | some w => cases w <;> rfl
  | integer i =>
    refine ⟨.integer i, rfl, rfl, fun c stored => ?_⟩
    cases stored with
    | none => rfl
    | some w => cases w <;> rfl
  | text s =>
    refine ⟨.text s, rfl, rfl, fun c stored => ?_⟩
    cases stored with
    | none => rfl
    | some w => cases w <;> rfl
  | float x => cases hv
  | blob bs => cases hv
  | list vs => cases hv

end Value

/-- There are no unknowns but the values of an enclosing row. -/
def Unknowns.outersOnly : Unknowns := ⟨fun _ => false, true, 0⟩

namespace Condition

mutual

/-- The places of the row to which a condition refers. -/
def outers : Condition → List String
  | compare _ _ _ (.outer source) => [source]
  | compare .. => []
  | inSlot .. => []
  | all cs => outersIn cs
  | any cs => outersIn cs

/-- The places of the row to which several conditions refer. -/
def outersIn : List Condition → List String
  | [] => []
  | c :: cs => outers c ++ outersIn cs

end

mutual

/-- Whether a record satisfies a condition, for the row to which its table is joined. -/
def holdsFor (row : Row) (r : Record) : Condition → Bool
  | compare bin _ c (.outer source) =>
    (r.bin? bin).any fun v => (row.get? source).any fun w => v.meets c w
  | compare bin kind c o => o.accepts kind c (r.bin? bin)
  | inSlot .. => false
  | all cs => holdsAllFor row r cs
  | any cs => holdsAnyFor row r cs

/-- Whether a record satisfies all of several conditions, for the row to which its table is
joined. -/
def holdsAllFor (row : Row) (r : Record) : List Condition → Bool
  | [] => true
  | c :: cs => holdsFor row r c && holdsAllFor row r cs

/-- Whether a record satisfies one of several conditions, for the row to which its table is
joined. -/
def holdsAnyFor (row : Row) (r : Record) : List Condition → Bool
  | [] => false
  | c :: cs => holdsFor row r c || holdsAnyFor row r cs

end

end Condition

/-- **The value of a row takes its place**, and the bin is read as its kind. -/
lemma Operand.exists_fillOuter {row : Row} {source : String}
    (hrow : ∀ v, row.get? source = some v → v.isJoinable = true) (kind : BinKind) :
    ∃ o, (Operand.outer source).fillOuter row kind = .ok (o, o.kind) ∧
      ∀ (c : Comparison) (stored : Option Value), o.accepts o.kind c stored =
        stored.any (fun v => (row.get? source).any (fun w => v.meets c w)) := by
  cases hget : row.get? source with
  | none =>
    refine ⟨.null, by simp [fillOuter, hget, pure, Except.pure], fun c stored => ?_⟩
    cases stored <;> simp
  | some w =>
    obtain ⟨o, ho, -, haccepts⟩ := Value.exists_joinOperand (hrow w hget)
    refine ⟨o, by simp [fillOuter, hget, ho, pure, Except.pure], fun c stored => ?_⟩
    rw [haccepts]
    rfl

namespace Condition

variable {row : Row}

mutual

/-- **The values of a row take their places**, and the store decides what the condition means for
this row.

**Proof sketch.** Induction on the condition. Only comparisons with values of the row change; there
`Operand.exists_fillOuter` applies. -/
theorem exists_fillOuter : (c : Condition) → c.isWithin .outersOnly = true →
    (∀ s ∈ c.outers, ∀ v, row.get? s = some v → v.isJoinable = true) →
      ∃ d, c.fillOuter row = .ok d ∧ ∀ r, d.holds r = c.holdsFor row r
  | compare bin kind c o, h, hrow => by
    cases o with
    | outer source =>
      obtain ⟨o, ho, haccepts⟩ := Operand.exists_fillOuter (hrow source (by simp [outers])) kind
      refine ⟨compare bin o.kind c o, ?_, fun r => haccepts c (r.bin? bin)⟩
      simp only [fillOuter, mapOperands, ho, Outcome.ok_bind]
      rfl
    | integer i => exact ⟨compare bin kind c (.integer i), rfl, fun r => rfl⟩
    | text s => exact ⟨compare bin kind c (.text s), rfl, fun r => rfl⟩
    | null => exact ⟨compare bin kind c .null, rfl, fun r => rfl⟩
    | param index => cases h
    | slot index => simp [isWithin, Unknowns.allows, Unknowns.outersOnly] at h
  | inSlot bin kind slot, h, _ => by simp [isWithin, Unknowns.allows, Unknowns.outersOnly] at h
  | all cs, h, hrow => by
    obtain ⟨ds, hds, hholds⟩ := exists_fillOuterList cs h hrow
    refine ⟨all ds, ?_, fun r => (hholds r).1⟩
    simp only [fillOuter, mapOperands, hds, Outcome.ok_bind]
    rfl
  | any cs, h, hrow => by
    obtain ⟨ds, hds, hholds⟩ := exists_fillOuterList cs h hrow
    refine ⟨any ds, ?_, fun r => (hholds r).2⟩
    simp only [fillOuter, mapOperands, hds, Outcome.ok_bind]
    rfl

/-- The values of a row take their places in several conditions. -/
theorem exists_fillOuterList : (cs : List Condition) → areWithin .outersOnly cs = true →
    (∀ s ∈ outersIn cs, ∀ v, row.get? s = some v → v.isJoinable = true) →
      ∃ ds, mapOperandsList (Operand.fillOuter row) cs = .ok ds ∧
        ∀ r, holdsAll r ds = holdsAllFor row r cs ∧ holdsAny r ds = holdsAnyFor row r cs
  | [], _, _ => ⟨[], rfl, fun r => ⟨rfl, rfl⟩⟩
  | c :: cs, h, hrow => by
    simp only [areWithin, Bool.and_eq_true] at h
    simp only [outersIn, List.mem_append] at hrow
    obtain ⟨d, hd, hfirst⟩ := exists_fillOuter c h.1 fun s hs => hrow s (.inl hs)
    obtain ⟨ds, hds, hrest⟩ := exists_fillOuterList cs h.2 fun s hs => hrow s (.inr hs)
    refine ⟨d :: ds, ?_, fun r => ?_⟩
    · rw [fillOuter] at hd
      simp only [mapOperandsList, hd, hds, Outcome.ok_bind]
      rfl
    · simp only [holdsAll, holdsAny, holdsAllFor, holdsAnyFor, hfirst r, (hrest r).1, (hrest r).2,
        and_self]

end

end Condition

end RecordQuery
