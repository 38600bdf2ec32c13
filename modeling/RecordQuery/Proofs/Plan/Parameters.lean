import RecordQuery.Proofs.Expr.Parameters
import RecordQuery.Proofs.Plan.Unknowns

set_option autoImplicit false

/-!
# Parameters of plans

The parameters of a plan stand in conditions that the store decides, in expressions that are
evaluated row by row, and in limits. Those in conditions are among the unknowns of a compiled plan;
here the others are described, and with them what binding asks of a plan.

## Main definitions

* `QueryPlan.IsNumbered`, `ChainPlan.IsNumbered` — expressions and limits have given parameters
  only.
* `QueryPlan.IsBindable`, `QueryNode.IsBindable`, `StatementPlan.IsBindable` — so have conditions.
-/

namespace RecordQuery

variable {ok : Nat → Bool}

/-- A limit is, if it is a parameter, a given one. -/
def RowBound.IsNumbered (ok : Nat → Bool) (b : Option RowBound) : Prop :=
  ∀ i, b = some (.param i) → ok i = true

/-- The expressions in sort keys have given parameters only. -/
def OrderSpec.AreNumbered (ok : Nat → Bool) (os : List OrderSpec) : Prop :=
  ∀ o ∈ os, ∀ e, o.key = .expr e → ∀ i ∈ e.paramNumbers, ok i = true

/-- The expressions and the limits of a selection have given parameters only. -/
structure QueryPlan.IsNumbered (ok : Nat → Bool) (p : QueryPlan) : Prop where
  /-- The condition that is decided row by row. -/
  rowFilter : ∀ e ∈ p.rowFilter, ∀ i ∈ e.paramNumbers, ok i = true
  /-- The condition on the main table. -/
  whereClause : ∀ e ∈ p.whereClause, ∀ i ∈ e.paramNumbers, ok i = true
  /-- The condition on groups. -/
  having : ∀ e ∈ p.having, ∀ i ∈ e.paramNumbers, ok i = true
  /-- The computed columns. -/
  columns : ∀ c ∈ p.columns, ∀ e, c.value = .computed e → ∀ i ∈ e.paramNumbers, ok i = true
  /-- The order. -/
  orderBy : OrderSpec.AreNumbered ok p.orderBy
  /-- How many rows are skipped. -/
  offset : RowBound.IsNumbered ok p.offset
  /-- How many rows are kept. -/
  limit : RowBound.IsNumbered ok p.limit

/-- The same of a set operation. -/
structure ChainPlan.IsNumbered (ok : Nat → Bool) (c : ChainPlan) : Prop where
  /-- The order. -/
  orderBy : OrderSpec.AreNumbered ok c.orderBy
  /-- How many rows are skipped. -/
  offset : RowBound.IsNumbered ok c.offset
  /-- How many rows are kept. -/
  limit : RowBound.IsNumbered ok c.limit

/-- There is no limit. -/
lemma RowBound.IsNumbered.none : IsNumbered ok none := fun _ h => by cases h

/-- What binding asks of a selection: its parameters are among given ones, and it waits for nothing
but these and its own sub-queries. -/
structure QueryPlan.IsBindable (ok : Nat → Bool) (p : QueryPlan) : Prop where
  /-- What its conditions wait for. -/
  compiled : p.IsCompiled ok
  /-- The parameters in expressions and limits. -/
  numbered : p.IsNumbered ok

/-- What binding asks of a query. -/
abbrev QueryNode.IsBindable (ok : Nat → Bool) (n : QueryNode) : Prop :=
  n.All (QueryPlan.IsBindable ok) (ChainPlan.IsNumbered ok)

/-- What binding asks of the selection of an update or a deletion. -/
abbrev QueryPlan.AreBindable (ok : Nat → Bool) (p : QueryPlan) : Prop :=
  p.All (QueryPlan.IsBindable ok) (ChainPlan.IsNumbered ok)

end RecordQuery
