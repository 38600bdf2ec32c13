import Mathlib.Tactic.Common
import RecordQuery.Expr.Reference

set_option autoImplicit false

/-!
# Occurrences in expressions

`Expr.any` looks for something among the parts of an expression. The columns and the highest
parameter of an expression are computed on their own; here they are traced back to its parts, so
that what is known of all parts can be carried through an induction in one form.

## Main definitions

* `Expr.parts` — an expression and all expressions below it, queries not entered.
* `Expr.isParam` — parameters.

## Main results

* `Expr.any_eq_parts` — looking for something is looking for it among the parts.
* `Expr.mem_columns` — the columns of an expression are those among its parts.
-/

namespace RecordQuery

namespace Expr

mutual

/-- An expression and all expressions below it. Queries are not entered. -/
def parts : Expr → List Expr
  | e@(literal _) | e@(column _) | e@(param _) | e@(scalarQuery _) | e@star => [e]
  | e@(binary _ l r) => e :: (parts l ++ parts r)
  | e@(negative a) | e@(not a) | e@(isNull a _) | e@(inQuery a _ _) | e@(paren a) => e :: parts a
  | e@(between a low high _) => e :: (parts a ++ (parts low ++ parts high))
  | e@(inList a items _) => e :: (parts a ++ partsList items)
  | e@(call _ args _) => e :: partsList args
  | e@(array items) => e :: partsList items
  | e@(element a key) => e :: (parts a ++ parts key)

/-- Several expressions and all expressions below them. -/
def partsList : List Expr → List Expr
  | [] => []
  | e :: es => parts e ++ partsList es

end

/-- Whether an expression is a parameter. -/
def isParam : Expr → Bool
  | param _ => true
  | _ => false

variable {p : Expr → Bool}

/-! ## Looking for something -/

mutual

/-- **Looking for something is looking for it among the parts.** -/
theorem any_eq_parts : (e : Expr) → e.any p = e.parts.any p
  | literal _ | column _ | param _ | scalarQuery _ | star => by simp [any, parts]
  | binary _ l r => by simp [any, parts, any_eq_parts l, any_eq_parts r]
  | negative a | not a | isNull a _ | inQuery a _ _ | paren a => by
    simp [any, parts, any_eq_parts a]
  | between a low high _ => by
    simp [any, parts, any_eq_parts a, any_eq_parts low, any_eq_parts high]
  | inList a items _ => by simp [any, parts, any_eq_parts a, anyList_eq_parts items]
  | call _ args _ => by simp [any, parts, anyList_eq_parts args]
  | array items => by simp [any, parts, anyList_eq_parts items]
  | element a key => by simp [any, parts, any_eq_parts a, any_eq_parts key]

/-- Looking for something in several expressions is looking for it among their parts. -/
theorem anyList_eq_parts : (es : List Expr) → anyList p es = (partsList es).any p
  | [] => rfl
  | e :: es => by simp [anyList, partsList, any_eq_parts e, anyList_eq_parts es]

end

/-- Something is not found if no part is it. -/
lemma any_eq_false {e : Expr} : e.any p = false ↔ ∀ s ∈ e.parts, p s = false := by
  rw [any_eq_parts, List.any_eq_false]
  simp only [Bool.not_eq_true]

/-- An expression is a part of itself. -/
lemma self_mem_parts (e : Expr) : e ∈ e.parts := by
  cases e <;> simp [parts]

/-- The parts of several expressions are those of each of them. -/
lemma mem_partsList {es : List Expr} {s : Expr} : s ∈ partsList es ↔ ∃ e ∈ es, s ∈ e.parts := by
  induction es with
  | nil => simp [partsList]
  | cons e es ih => simp [partsList, ih]

/-- An expression without its parentheses has no part that it did not have. -/
lemma parts_unwrap : (e : Expr) → e.unwrap.parts ⊆ e.parts
  | paren e => by
    rw [unwrap, parts]
    exact List.subset_cons_of_subset _ (parts_unwrap e)
  | literal _ | column _ | param _ | scalarQuery _ | star | binary _ _ _ | negative _ | not _
  | isNull _ _ | inQuery _ _ _ | between _ _ _ _ | inList _ _ _ | call _ _ _ | array _
  | element _ _ => List.Subset.refl _

mutual

/-- The parts of a part are parts.

**Proof sketch.** By induction on the expression that is outermost. A part of it is itself or lies
in an operand; in the latter case the hypothesis for that operand applies. -/
theorem parts_trans {s u : Expr} : (e : Expr) → s ∈ e.parts → u ∈ s.parts → u ∈ e.parts
  | literal _, hs, hu | column _, hs, hu | param _, hs, hu | scalarQuery _, hs, hu
  | star, hs, hu => by
    simp only [parts, List.mem_singleton] at hs
    rwa [hs] at hu
  | binary _ l r, hs, hu => by
    simp only [parts, List.mem_cons, List.mem_append] at hs ⊢
    rcases hs with rfl | hs | hs
    · simpa only [parts, List.mem_cons, List.mem_append] using hu
    · exact .inr (.inl (parts_trans l hs hu))
    · exact .inr (.inr (parts_trans r hs hu))
  | negative a, hs, hu | not a, hs, hu | isNull a _, hs, hu | inQuery a _ _, hs, hu
  | paren a, hs, hu => by
    simp only [parts, List.mem_cons] at hs ⊢
    rcases hs with rfl | hs
    · simpa only [parts, List.mem_cons] using hu
    · exact .inr (parts_trans a hs hu)
  | between a low high _, hs, hu => by
    simp only [parts, List.mem_cons, List.mem_append] at hs ⊢
    rcases hs with rfl | hs | hs | hs
    · simpa only [parts, List.mem_cons, List.mem_append] using hu
    · exact .inr (.inl (parts_trans a hs hu))
    · exact .inr (.inr (.inl (parts_trans low hs hu)))
    · exact .inr (.inr (.inr (parts_trans high hs hu)))
  | inList a items _, hs, hu => by
    simp only [parts, List.mem_cons, List.mem_append] at hs ⊢
    rcases hs with rfl | hs | hs
    · simpa only [parts, List.mem_cons, List.mem_append] using hu
    · exact .inr (.inl (parts_trans a hs hu))
    · exact .inr (.inr (partsList_trans items hs hu))
  | call _ args _, hs, hu => by
    simp only [parts, List.mem_cons] at hs ⊢
    rcases hs with rfl | hs
    · simpa only [parts, List.mem_cons] using hu
    · exact .inr (partsList_trans args hs hu)
  | array items, hs, hu => by
    simp only [parts, List.mem_cons] at hs ⊢
    rcases hs with rfl | hs
    · simpa only [parts, List.mem_cons] using hu
    · exact .inr (partsList_trans items hs hu)
  | element a key, hs, hu => by
    simp only [parts, List.mem_cons, List.mem_append] at hs ⊢
    rcases hs with rfl | hs | hs
    · simpa only [parts, List.mem_cons, List.mem_append] using hu
    · exact .inr (.inl (parts_trans a hs hu))
    · exact .inr (.inr (parts_trans key hs hu))

/-- The parts of a part of several expressions are parts of them. -/
theorem partsList_trans {s u : Expr} :
    (es : List Expr) → s ∈ partsList es → u ∈ s.parts → u ∈ partsList es
  | [], hs, _ => by simp [partsList] at hs
  | e :: es, hs, hu => by
    simp only [partsList, List.mem_append] at hs ⊢
    rcases hs with hs | hs
    · exact .inl (parts_trans e hs hu)
    · exact .inr (partsList_trans es hs hu)

end

/-- The parts of an item are parts of the list. -/
lemma mem_parts_inList {e item s : Expr} {items : List Expr} {negated : Bool}
    (hitem : item ∈ items) (hs : s ∈ item.parts) : s ∈ (inList e items negated).parts := by
  simp only [parts, List.mem_cons, List.mem_append]
  exact .inr (.inr (mem_partsList.mpr ⟨item, hitem, hs⟩))

/-! ## Columns -/

/-- A column is among others with one more. -/
lemma mem_addColumn {seen : List ColumnRef} {c d : ColumnRef} :
    d ∈ addColumn seen c ↔ d ∈ seen ∨ d = c := by
  unfold addColumn
  split
  · rename_i h
    constructor
    · exact .inl
    · rintro (hd | rfl)
      · exact hd
      · exact h
  · simp

mutual

/-- The columns that an expression adds are those among its parts. -/
theorem mem_addColumns (d : ColumnRef) (seen : List ColumnRef) :
    (e : Expr) → (d ∈ addColumns seen e ↔ d ∈ seen ∨ column d ∈ e.parts)
  | literal _ | param _ | scalarQuery _ | star => by simp [addColumns, parts]
  | column c => by simp [addColumns, parts, mem_addColumn]
  | binary _ l r => by
    simp [addColumns, parts, mem_addColumns d _ l, mem_addColumns d _ r, or_assoc]
  | negative a | not a | isNull a _ | inQuery a _ _ | paren a => by
    simp [addColumns, parts, mem_addColumns d _ a]
  | between a low high _ => by
    simp [addColumns, parts, mem_addColumns d _ a, mem_addColumns d _ low,
      mem_addColumns d _ high, or_assoc]
  | inList a items _ => by
    simp [addColumns, parts, mem_addColumns d _ a, mem_addColumnsList d _ items, or_assoc]
  | call _ args _ => by simp [addColumns, parts, mem_addColumnsList d _ args]
  | array items => by simp [addColumns, parts, mem_addColumnsList d _ items]
  | element a key => by
    simp [addColumns, parts, mem_addColumns d _ a, mem_addColumns d _ key, or_assoc]

/-- The columns that several expressions add are those among their parts. -/
theorem mem_addColumnsList (d : ColumnRef) (seen : List ColumnRef) :
    (es : List Expr) → (d ∈ addColumnsList seen es ↔ d ∈ seen ∨ column d ∈ partsList es)
  | [] => by simp [addColumnsList, partsList]
  | e :: es => by
    simp [addColumnsList, partsList, mem_addColumns d _ e, mem_addColumnsList d _ es, or_assoc]

end

/-- **The columns of an expression are those among its parts.** -/
theorem mem_columns {e : Expr} {c : ColumnRef} : c ∈ e.columns ↔ column c ∈ e.parts := by
  rw [columns, mem_addColumns]
  simp

end Expr

end RecordQuery
