import Mathlib.Data.String.Basic
import Mathlib.Order.Compare
import RecordQuery.Proofs.Predicate.KeyCondition

set_option autoImplicit false

/-!
# What comparisons mean

The store compares by the place of two values in an order. Here it is said without an order of
places what each comparison asks of what is stored: equality or the order of integers where both
sides are integers, of texts where both are texts, and nothing else can be compared.

## Main definitions

* `Comparison.Relates` — what a comparison says of two values of an ordered type.
* `Operand.Meets` — what it says of a stored value and an operand.
* `UserKey.Relates` — what it says of a key and a key of a condition.

## Main results

* `Operand.accepts_iff`, `UserKey.satisfies_iff` — this is what the store decides.
-/

namespace RecordQuery

/-- What a comparison says of two values of an ordered type. -/
def Comparison.Relates {α : Type} [LT α] [LE α] (c : Comparison) (a b : α) : Prop :=
  match c with
  | .eq => a = b
  | .ne => a ≠ b
  | .lt => a < b
  | .le => a ≤ b
  | .gt => b < a
  | .ge => b ≤ a

/-- A comparison admits the place of two values if it relates them. -/
lemma Comparison.admits_compare_iff {α : Type} [LinearOrder α] (c : Comparison) (a b : α) :
    c.admits (compare a b) = true ↔ c.Relates a b := by
  cases c <;> simp [admits, Relates, compare_lt_iff_lt, compare_gt_iff_gt]

/-- A truth value stands for `0` or `1`. -/
lemma toInt_boolInt (b : Bool) : (boolInt b).toInt = if b then 1 else 0 := by
  cases b <;> rfl

/-- What a comparison says of a stored value, read as a kind, and an operand. A truth value counts
as an integer; a bin that is read as a text holds no integer, and one that is read as an integer no
text. -/
inductive Operand.Meets (kind : BinKind) (c : Comparison) : Value → Operand → Prop
  /-- Integers are compared with integers. -/
  | integer (a b : Int64) : kind ≠ .text → c.Relates a.toInt b.toInt →
      Meets kind c (.integer a) (.integer b)
  /-- A truth value is compared as `0` or `1`. -/
  | boolean (a : Bool) (b : Int64) : kind ≠ .text → c.Relates (if a then 1 else 0) b.toInt →
      Meets kind c (.boolean a) (.integer b)
  /-- Texts are compared with texts. -/
  | text (s t : String) : kind ≠ .integer → c.Relates s t → Meets kind c (.text s) (.text t)

/-- **The store accepts what meets the comparison.** An absent value meets none.

**Proof sketch.** From left to right the branches are followed; the three that accept are the three
ways of meeting a comparison. From right to left each of them takes its branch. -/
lemma Operand.accepts_iff {kind : BinKind} {c : Comparison} {stored : Option Value}
    {o : Operand} : o.accepts kind c stored = true ↔ ∃ v, stored = some v ∧ o.Meets kind c v := by
  constructor
  · intro h
    unfold accepts at h
    split at h
    · rename_i a b
      rw [Bool.and_eq_true, bne_iff_ne, Comparison.admits_compare_iff] at h
      exact ⟨_, rfl, .integer a b h.1 h.2⟩
    · rename_i a b
      rw [Bool.and_eq_true, bne_iff_ne, Comparison.admits_compare_iff, toInt_boolInt] at h
      exact ⟨_, rfl, .boolean a b h.1 h.2⟩
    · rename_i s t
      rw [Bool.and_eq_true, bne_iff_ne, Comparison.admits_compare_iff] at h
      exact ⟨_, rfl, .text s t h.1 h.2⟩
    · cases h
  · rintro ⟨v, rfl, hv⟩
    cases hv with
    | integer a b hkind hab => simp [accepts, Comparison.admits_compare_iff, hkind, hab]
    | boolean a b hkind hab =>
      simp [accepts, Comparison.admits_compare_iff, toInt_boolInt, hkind, hab]
    | text s t hkind hst => simp [accepts, Comparison.admits_compare_iff, hkind, hst]

/-- What a comparison says of a key and a key of a condition. Keys of different kinds are not
compared, and bytes not at all. -/
inductive UserKey.Relates (c : Comparison) : UserKey → UserKey → Prop
  /-- Integers are compared with integers. -/
  | integer (a b : Int64) : c.Relates a.toInt b.toInt → Relates c (.integer a) (.integer b)
  /-- Texts are compared with texts. -/
  | text (s t : String) : c.Relates s t → Relates c (.text s) (.text t)

/-- A key satisfies the comparison with a key that can be compared if the comparison relates
them. -/
lemma UserKey.satisfies_iff {c : Comparison} {k l : UserKey} (hl : l.isComparable = true) :
    k.satisfies c l = true ↔ k.Relates c l := by
  constructor
  · intro h
    unfold satisfies at h
    split at h
    · exact .integer _ _ ((Comparison.admits_compare_iff _ _ _).mp h)
    · exact .text _ _ ((Comparison.admits_compare_iff _ _ _).mp h)
    · cases hl
    · cases h
  · intro h
    cases h with
    | integer a b hab => exact (Comparison.admits_compare_iff _ _ _).mpr hab
    | text s t hst => exact (Comparison.admits_compare_iff _ _ _).mpr hst

/-- What a key is compared with can be compared. -/
lemma UserKey.Relates.isComparable {c : Comparison} {k l : UserKey} (h : k.Relates c l) :
    l.isComparable = true := by
  cases h <;> rfl

/-- Keys that are related by equality are the same. -/
lemma UserKey.relates_eq_iff {k l : UserKey} (hl : l.isComparable = true) :
    k.Relates .eq l ↔ k = l := by
  rw [← satisfies_iff hl, satisfies_eq_iff]

end RecordQuery
