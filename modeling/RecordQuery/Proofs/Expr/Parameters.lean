import RecordQuery.Proofs.Expr.Occurrence
import RecordQuery.Statement
import Mathlib.Order.MinMax

set_option autoImplicit false

/-!
# Parameters of statements

Parameters stand in all clauses of a statement and of the queries nested in it. Here they are listed
as they are met; the highest parameter of a statement is the highest one in the list.

## Main definitions

* `Expr.paramNumbers`, `Query.paramNumbers`, `Statement.paramNumbers` — the numbers of all
  parameters, queries entered.

## Main results

* `Statement.le_maxParam` — the highest parameter is the highest one.
* `Expr.paramNumbers_subset` — the parameters of a part of an expression, be it a query, are
  parameters of the expression.
-/

namespace RecordQuery

mutual

/-- The numbers of the parameters of an expression, queries included. -/
def Expr.paramNumbers : Expr → List Nat
  | .param index => [index]
  | .literal _ | .column _ | .star => []
  | .binary _ l r => l.paramNumbers ++ r.paramNumbers
  | .negative e | .not e | .isNull e _ | .paren e => e.paramNumbers
  | .between e low high _ => e.paramNumbers ++ (low.paramNumbers ++ high.paramNumbers)
  | .inList e items _ => e.paramNumbers ++ paramNumbersExprs items
  | .inQuery e q _ => e.paramNumbers ++ q.paramNumbers
  | .scalarQuery q => q.paramNumbers
  | .call _ args _ => paramNumbersExprs args
  | .array items => paramNumbersExprs items
  | .element e key => e.paramNumbers ++ key.paramNumbers

/-- The numbers of the parameters of several expressions. -/
def paramNumbersExprs : List Expr → List Nat
  | [] => []
  | e :: es => e.paramNumbers ++ paramNumbersExprs es

/-- The numbers of the parameters of an expression that may be missing. -/
def paramNumbersOption : Option Expr → List Nat
  | none => []
  | some e => e.paramNumbers

/-- The numbers of the parameters of a query. -/
def Query.paramNumbers : Query → List Nat
  | ⟨body, orderBy, limit, offset⟩ =>
    body.paramNumbers ++ (paramNumbersOrder orderBy ++ (paramNumbersOption limit ++
      paramNumbersOption offset))

/-- The numbers of the parameters of a sort key. -/
def OrderItem.paramNumbers : OrderItem → List Nat
  | ⟨e, _⟩ => e.paramNumbers

/-- The numbers of the parameters of several sort keys. -/
def paramNumbersOrder : List OrderItem → List Nat
  | [] => []
  | o :: os => o.paramNumbers ++ paramNumbersOrder os

/-- The numbers of the parameters of a query's body. -/
def QueryBody.paramNumbers : QueryBody → List Nat
  | .select s => s.paramNumbers
  | .combine _ l r => l.paramNumbers ++ r.paramNumbers

/-- The numbers of the parameters of a selection. Only the main table may be derived, so joined
tables contribute their conditions alone. -/
def Select.paramNumbers : Select → List Nat
  | ⟨_, items, source, joins, condition, groupBy, having⟩ =>
    paramNumbersItems items ++ (source.paramNumbers ++ (paramNumbersJoins joins ++
      (paramNumbersOption condition ++ (paramNumbersExprs groupBy ++ paramNumbersOption having))))

/-- The numbers of the parameters of a selected item. -/
def SelectItem.paramNumbers : SelectItem → List Nat
  | .all => []
  | .expr e _ => e.paramNumbers

/-- The numbers of the parameters of several selected items. -/
def paramNumbersItems : List SelectItem → List Nat
  | [] => []
  | i :: is => i.paramNumbers ++ paramNumbersItems is

/-- The numbers of the parameters of a table. -/
def TableExpr.paramNumbers : TableExpr → List Nat
  | .named .. => []
  | .derived q _ => q.paramNumbers

/-- The numbers of the parameters of a join's condition. -/
def Join.paramNumbers : Join → List Nat
  | ⟨_, _, condition⟩ => paramNumbersOption condition

/-- The numbers of the parameters of several joins' conditions. -/
def paramNumbersJoins : List Join → List Nat
  | [] => []
  | j :: js => j.paramNumbers ++ paramNumbersJoins js

end

/-- The parameters of a sort key are those of its expression. -/
lemma OrderItem.paramNumbers_eq (o : OrderItem) : o.paramNumbers = o.expr.paramNumbers := by
  cases o
  rfl

/-- The parameters of a selection are those of its clauses. -/
lemma Select.paramNumbers_eq (s : Select) : s.paramNumbers =
    paramNumbersItems s.items ++ (s.source.paramNumbers ++ (paramNumbersJoins s.joins ++
      (paramNumbersOption s.condition ++ (paramNumbersExprs s.groupBy ++
        paramNumbersOption s.having)))) := by
  cases s
  rfl

/-- The numbers of the parameters of a statement. -/
def Statement.paramNumbers : Statement → List Nat
  | .query q => q.paramNumbers
  | .insert s => paramNumbersExprs s.rows.flatten
  | .update s =>
    paramNumbersExprs (s.assignments.map Prod.snd) ++
      (paramNumbersOption s.condition ++ paramNumbersOption s.limit)
  | .delete s => paramNumbersOption s.condition ++ paramNumbersOption s.limit
  | .truncate _ | .createIndex _ | .dropIndex .. => []

/-! ## The highest parameter -/

section Highest

variable {i : Nat}

mutual

/-- **No parameter of an expression is higher than the highest one.**

**Proof sketch.** By induction on the expression, together with the statements on queries and lists.
The numbers of an expression are those of its operands, and the highest one is the maximum of
theirs. -/
theorem Expr.le_maxParam_of_mem : (e : Expr) → i ∈ e.paramNumbers → i ≤ e.maxParam
  | .param index, h => by
    rw [Expr.paramNumbers, List.mem_singleton] at h
    exact Nat.le_of_eq h
  | .literal _, h | .column _, h | .star, h => by cases h
  | .binary _ l r, h | .element l r, h => by
    rw [Expr.paramNumbers, List.mem_append] at h
    exact le_max_iff.mpr (h.imp (Expr.le_maxParam_of_mem l) (Expr.le_maxParam_of_mem r))
  | .negative e, h | .not e, h | .isNull e _, h | .paren e, h => by
    rw [Expr.paramNumbers] at h
    rw [Expr.maxParam]
    exact Expr.le_maxParam_of_mem e h
  | .between e low high _, h => by
    rw [Expr.paramNumbers, List.mem_append, List.mem_append] at h
    rw [Expr.maxParam, le_max_iff, le_max_iff]
    exact h.imp (Expr.le_maxParam_of_mem e)
      (Or.imp (Expr.le_maxParam_of_mem low) (Expr.le_maxParam_of_mem high))
  | .inList e items _, h => by
    rw [Expr.paramNumbers, List.mem_append] at h
    rw [Expr.maxParam, le_max_iff]
    exact h.imp (Expr.le_maxParam_of_mem e) (le_maxParamExprs_of_mem items)
  | .inQuery e q _, h => by
    rw [Expr.paramNumbers, List.mem_append] at h
    rw [Expr.maxParam, le_max_iff]
    exact h.imp (Expr.le_maxParam_of_mem e) (Query.le_maxParam q)
  | .scalarQuery q, h => by
    rw [Expr.paramNumbers] at h
    rw [Expr.maxParam]
    exact Query.le_maxParam q h
  | .call _ args _, h | .array args, h => by
    rw [Expr.paramNumbers] at h
    rw [Expr.maxParam]
    exact le_maxParamExprs_of_mem args h

/-- No parameter of several expressions is. -/
theorem le_maxParamExprs_of_mem : (es : List Expr) → i ∈ paramNumbersExprs es →
    i ≤ maxParamExprs es
  | [], h => by cases h
  | e :: es, h => by
    rw [paramNumbersExprs, List.mem_append] at h
    rw [maxParamExprs, le_max_iff]
    exact h.imp (Expr.le_maxParam_of_mem e) (le_maxParamExprs_of_mem es)

/-- No parameter of an expression that may be missing is. -/
theorem le_maxParamOption : (e : Option Expr) → i ∈ paramNumbersOption e → i ≤ maxParamOption e
  | none, h => by cases h
  | some e, h => by
    rw [paramNumbersOption] at h
    rw [maxParamOption]
    exact Expr.le_maxParam_of_mem e h

/-- No parameter of a query is. -/
theorem Query.le_maxParam : (q : Query) → i ∈ q.paramNumbers → i ≤ q.maxParam
  | ⟨body, orderBy, limit, offset⟩, h => by
    rw [Query.paramNumbers, List.mem_append, List.mem_append, List.mem_append] at h
    rw [Query.maxParam, le_max_iff, le_max_iff, le_max_iff]
    exact h.imp (QueryBody.le_maxParam body) (Or.imp (le_maxParamOrder orderBy)
      (Or.imp (le_maxParamOption limit) (le_maxParamOption offset)))

/-- No parameter of several sort keys is. -/
theorem le_maxParamOrder : (os : List OrderItem) → i ∈ paramNumbersOrder os →
    i ≤ maxParamOrder os
  | [], h => by cases h
  | ⟨e, _⟩ :: os, h => by
    rw [paramNumbersOrder, OrderItem.paramNumbers, List.mem_append] at h
    rw [maxParamOrder, OrderItem.maxParam, le_max_iff]
    exact h.imp (Expr.le_maxParam_of_mem e) (le_maxParamOrder os)

/-- No parameter of a query's body is. -/
theorem QueryBody.le_maxParam : (b : QueryBody) → i ∈ b.paramNumbers → i ≤ b.maxParam
  | .select s, h => by
    rw [QueryBody.paramNumbers] at h
    rw [QueryBody.maxParam]
    exact Select.le_maxParam s h
  | .combine _ l r, h => by
    rw [QueryBody.paramNumbers, List.mem_append] at h
    rw [QueryBody.maxParam, le_max_iff]
    exact h.imp (QueryBody.le_maxParam l) (QueryBody.le_maxParam r)

/-- No parameter of a selection is. -/
theorem Select.le_maxParam : (s : Select) → i ∈ s.paramNumbers → i ≤ s.maxParam
  | ⟨_, items, source, joins, condition, groupBy, having⟩, h => by
    rw [Select.paramNumbers] at h
    simp only [List.mem_append] at h
    rw [Select.maxParam]
    simp only [le_max_iff]
    exact h.imp (le_maxParamItems items) (Or.imp (TableExpr.le_maxParam source)
      (Or.imp (le_maxParamJoins joins) (Or.imp (le_maxParamOption condition)
        (Or.imp (le_maxParamExprs_of_mem groupBy) (le_maxParamOption having)))))

/-- No parameter of several selected items is. -/
theorem le_maxParamItems : (is : List SelectItem) → i ∈ paramNumbersItems is →
    i ≤ maxParamItems is
  | [], h => by cases h
  | .all :: is, h => by
    rw [paramNumbersItems, SelectItem.paramNumbers, List.nil_append] at h
    rw [maxParamItems, le_max_iff]
    exact .inr (le_maxParamItems is h)
  | .expr e _ :: is, h => by
    rw [paramNumbersItems, SelectItem.paramNumbers, List.mem_append] at h
    rw [maxParamItems, SelectItem.maxParam, le_max_iff]
    exact h.imp (Expr.le_maxParam_of_mem e) (le_maxParamItems is)

/-- No parameter of a table is. -/
theorem TableExpr.le_maxParam : (t : TableExpr) → i ∈ t.paramNumbers → i ≤ t.maxParam
  | .named .., h => by cases h
  | .derived q _, h => by
    rw [TableExpr.paramNumbers] at h
    rw [TableExpr.maxParam]
    exact Query.le_maxParam q h

/-- No parameter of several joins' conditions is. -/
theorem le_maxParamJoins : (js : List Join) → i ∈ paramNumbersJoins js → i ≤ maxParamJoins js
  | [], h => by cases h
  | ⟨_, _, condition⟩ :: js, h => by
    rw [paramNumbersJoins, Join.paramNumbers, List.mem_append] at h
    rw [maxParamJoins, Join.maxParam, le_max_iff]
    exact h.imp (le_maxParamOption condition) (le_maxParamJoins js)

end

/-- **No parameter of a statement is higher than the highest one.** -/
theorem Statement.le_maxParam {s : Statement} (h : i ∈ s.paramNumbers) : i ≤ s.maxParam := by
  cases s with
  | query q => exact Query.le_maxParam q h
  | insert s => exact le_maxParamExprs_of_mem _ h
  | update s =>
    rw [paramNumbers, List.mem_append, List.mem_append] at h
    rw [maxParam, le_max_iff, le_max_iff]
    exact h.imp (le_maxParamExprs_of_mem _) (Or.imp (le_maxParamOption _) (le_maxParamOption _))
  | delete s =>
    rw [paramNumbers, List.mem_append] at h
    rw [maxParam, le_max_iff]
    exact h.imp (le_maxParamOption _) (le_maxParamOption _)
  | truncate _ | createIndex _ | dropIndex _ _ => cases h

end Highest

/-! ## Parts of expressions -/

namespace Expr

/-- The parameters of several expressions are those of each of them. -/
lemma mem_paramNumbersExprs {i : Nat} {es : List Expr} :
    i ∈ paramNumbersExprs es ↔ ∃ e ∈ es, i ∈ e.paramNumbers := by
  induction es with
  | nil => simp [paramNumbersExprs]
  | cons e es ih => simp [paramNumbersExprs, ih]

mutual

/-- **The parameters of a part of an expression** are parameters of the expression.

**Proof sketch.** By induction on the expression. A part is the expression itself or a part of an
operand, and the parameters of an operand are among those of the expression. -/
theorem paramNumbers_subset {s : Expr} : (e : Expr) → s ∈ e.parts →
    s.paramNumbers ⊆ e.paramNumbers
  | literal _, h | column _, h | param _, h | scalarQuery _, h | star, h => by
    rw [parts, List.mem_singleton] at h
    rw [h]
    exact List.Subset.refl _
  | binary _ l r, h | element l r, h => by
    simp only [parts, List.mem_cons, List.mem_append] at h
    rcases h with rfl | h | h
    · exact List.Subset.refl _
    · rw [paramNumbers]
      exact List.subset_append_of_subset_left _ (paramNumbers_subset l h)
    · rw [paramNumbers]
      exact List.subset_append_of_subset_right _ (paramNumbers_subset r h)
  | negative a, h | not a, h | isNull a _, h | paren a, h => by
    simp only [parts, List.mem_cons] at h
    rcases h with rfl | h
    · exact List.Subset.refl _
    · rw [paramNumbers]
      exact paramNumbers_subset a h
  | inQuery a _ _, h => by
    simp only [parts, List.mem_cons] at h
    rcases h with rfl | h
    · exact List.Subset.refl _
    · rw [paramNumbers]
      exact List.subset_append_of_subset_left _ (paramNumbers_subset a h)
  | between a low high _, h => by
    simp only [parts, List.mem_cons, List.mem_append] at h
    rcases h with rfl | h | h | h
    · exact List.Subset.refl _
    · rw [paramNumbers]
      exact List.subset_append_of_subset_left _ (paramNumbers_subset a h)
    · rw [paramNumbers]
      exact List.subset_append_of_subset_right _
        (List.subset_append_of_subset_left _ (paramNumbers_subset low h))
    · rw [paramNumbers]
      exact List.subset_append_of_subset_right _
        (List.subset_append_of_subset_right _ (paramNumbers_subset high h))
  | inList a items _, h => by
    simp only [parts, List.mem_cons, List.mem_append] at h
    rcases h with rfl | h | h
    · exact List.Subset.refl _
    · rw [paramNumbers]
      exact List.subset_append_of_subset_left _ (paramNumbers_subset a h)
    · rw [paramNumbers]
      exact List.subset_append_of_subset_right _ (paramNumbersExprs_subset items h)
  | call _ items _, h | array items, h => by
    simp only [parts, List.mem_cons] at h
    rcases h with rfl | h
    · exact List.Subset.refl _
    · rw [paramNumbers]
      exact paramNumbersExprs_subset items h

/-- The parameters of a part of several expressions. -/
theorem paramNumbersExprs_subset {s : Expr} : (es : List Expr) → s ∈ partsList es →
    s.paramNumbers ⊆ paramNumbersExprs es
  | [], h => by cases h
  | e :: es, h => by
    rw [partsList, List.mem_append] at h
    rw [paramNumbersExprs]
    rcases h with h | h
    · exact List.subset_append_of_subset_left _ (paramNumbers_subset e h)
    · exact List.subset_append_of_subset_right _ (paramNumbersExprs_subset es h)

end

/-- A parameter among the parts is a parameter of the expression. -/
lemma mem_paramNumbers {e : Expr} {i : Nat} (h : param i ∈ e.parts) : i ∈ e.paramNumbers :=
  paramNumbers_subset e h (List.mem_singleton_self i)

/-- No parameter among the parts is higher than the highest one. -/
lemma le_maxParam {i : Nat} (e : Expr) (h : param i ∈ e.parts) : i ≤ e.maxParam :=
  le_maxParam_of_mem e (mem_paramNumbers h)

end Expr

end RecordQuery
