import RecordQuery.Proofs.Outcome
import RecordQuery.Proofs.Predicate.Condition

set_option autoImplicit false

/-!
# Kinds in conditions

The kind as which a bin is read fits what it is compared with, and still does when parameters,
values of other rows and results of sub-queries come in the place of unknown operands. A comparison
whose kind does not fit would be false on every record.

## Main definitions

* `BinKind.admits` — a kind fits an operand, whatever the operand turns out to be.
* `Condition.isKinded` — all kinds in a condition fit.

## Main results

* `Condition.isKinded_ofOperand` — the kind of the operand fits.
* `Condition.isKinded_mapOperands` — replacing operands keeps kinds fitting.
-/

namespace RecordQuery

/-- Whether a bin read as a kind can be compared with an operand. A bin that is read as an integer
is compared with parameters that are integers. -/
def BinKind.admits (kind : BinKind) : Operand → Bool
  | .integer _ => kind != .text
  | .text _ => kind != .integer
  | .null => true
  | .param _ => kind != .text
  | .outer _ => kind == .unknown
  | .slot _ => kind == .unknown

/-- The kind of an operand fits it. -/
lemma Operand.admits_kind (o : Operand) : o.kind.admits o = true := by
  cases o <;> rfl

namespace Condition

mutual

/-- Whether the kinds in a condition fit their operands. -/
def isKinded : Condition → Bool
  | compare _ kind _ o => kind.admits o
  | inSlot _ kind _ => kind == .unknown
  | all cs => areKinded cs
  | any cs => areKinded cs

/-- Whether the kinds in several conditions fit their operands. -/
def areKinded : List Condition → Bool
  | [] => true
  | c :: cs => isKinded c && areKinded cs

end

/-- The kinds in several conditions fit if those in each of them do. -/
lemma areKinded_eq (cs : List Condition) : areKinded cs = cs.all isKinded := by
  induction cs with
  | nil => rfl
  | cons c cs ih => rw [areKinded, ih, List.all_cons]

/-- A bin that is read as the kind of an operand can be compared with it. -/
lemma isKinded_ofOperand (bin : String) (c : Comparison) (o : Operand) :
    (ofOperand bin c o).isKinded = true := by
  rw [ofOperand, isKinded]
  exact o.admits_kind

section

variable {f : Operand → BinKind → Except QueryError (Operand × BinKind)}

mutual

/-- **Replacing operands keeps kinds fitting** if it does in every comparison. -/
theorem isKinded_mapOperands
    (hf : ∀ o kind o' kind', f o kind = .ok (o', kind') → kind.admits o = true →
      kind'.admits o' = true) :
    (c d : Condition) → c.mapOperands f = .ok d → c.isKinded = true → d.isKinded = true
  | compare bin kind c o, d, h, hk => by
    simp only [mapOperands, Outcome.bind_eq_ok, Outcome.pure_eq_ok] at h
    obtain ⟨⟨o', kind'⟩, hok, rfl⟩ := h
    exact hf o kind o' kind' hok hk
  | inSlot bin kind slot, d, h, hk => by
    simp only [mapOperands, Outcome.pure_eq_ok] at h
    rw [← h]
    exact hk
  | all cs, d, h, hk | any cs, d, h, hk => by
    simp only [mapOperands, Outcome.bind_eq_ok, Outcome.pure_eq_ok] at h
    obtain ⟨ds, hds, rfl⟩ := h
    exact areKinded_mapOperandsList hf cs ds hds hk

/-- Replacing operands in several conditions keeps kinds fitting. -/
theorem areKinded_mapOperandsList
    (hf : ∀ o kind o' kind', f o kind = .ok (o', kind') → kind.admits o = true →
      kind'.admits o' = true) :
    (cs ds : List Condition) → mapOperandsList f cs = .ok ds → areKinded cs = true →
      areKinded ds = true
  | [], ds, h, _ => by
    simp only [mapOperandsList, Outcome.pure_eq_ok] at h
    rw [← h]
    rfl
  | c :: cs, ds, h, hk => by
    simp only [mapOperandsList, Outcome.bind_eq_ok, Outcome.pure_eq_ok] at h
    obtain ⟨d, hd, ds', hds, rfl⟩ := h
    rw [areKinded, Bool.and_eq_true] at hk ⊢
    exact ⟨isKinded_mapOperands hf c d hd hk.1, areKinded_mapOperandsList hf cs ds' hds hk.2⟩

end

end

end Condition

end RecordQuery
