import RecordQuery.Compile.Statement
import RecordQuery.Execution.RowStream
import RecordQuery.Execution.Write

set_option autoImplicit false

/-!
# Running statements

A statement is compiled once, bound to parameters as often as one likes, and executed.

## Main definitions

* `Executable`, `Statement.compile` — a compiled statement.
* `BoundStatement`, `Executable.bind` — a statement with values for its parameters.
* `Outcome`, `BoundStatement.execute` — what a statement does.
-/

namespace RecordQuery

/-- A compiled statement. -/
structure Executable where
  /-- The plan. -/
  plan : StatementPlan
  /-- How many parameters the statement has. -/
  paramCount : Nat
  /-- The settings. -/
  config : Config

/-- Compiles a statement for a store with the given indexes. -/
def Statement.compile (config : Config) (indexes : IndexCatalog) (s : Statement) :
    Except QueryError Executable := do
  let plan ← s.plan ⟨config.defaultNamespace, indexes⟩
  return ⟨plan, s.maxParam, config⟩

/-- A statement with values for its parameters. -/
structure BoundStatement where
  /-- The plan. -/
  plan : StatementPlan
  /-- The values. -/
  params : List Value
  /-- The settings. -/
  config : Config

/-- Gives the parameters of a statement their values. There have to be enough of them. -/
def Executable.bind (e : Executable) (params : List Value) : Except QueryError BoundStatement := do
  if params.length < e.paramCount then throw (.parameterUnbound (params.length + 1))
  let plan ← e.plan.bind params
  return ⟨plan, params, e.config⟩

/-- A statement that is bound has enough values, and its plan is bound to them. -/
theorem Executable.of_bind_eq_ok {e : Executable} {params : List Value} {b : BoundStatement}
    (h : e.bind params = .ok b) :
    e.paramCount ≤ params.length ∧
      ∃ plan, e.plan.bind params = .ok plan ∧ b = ⟨plan, params, e.config⟩ := by
  unfold bind at h
  split at h
  · cases h
  · rename_i hcount
    cases hplan : e.plan.bind params with
    | error err =>
      rw [hplan] at h
      cases h
    | ok plan =>
      rw [hplan] at h
      exact ⟨Nat.not_lt.mp hcount, plan, rfl, (Except.ok.inj h).symm⟩

/-- What a statement did. -/
inductive Outcome where
  /-- It returns rows. -/
  | rows (s : RowStream)
  /-- It wrote or removed so many records. -/
  | affected (n : Nat)

/-- The rows of a query. -/
def openQuery (env : ExecutionEnv) (n : QueryNode) : StoreM RowStream := do
  let prepared ← n.prepare env
  let pipeline ← liftM prepared.pipeline
  RowStream.start env prepared.labels pipeline

/-- What is known when the rows of a statement are computed. -/
def BoundStatement.env (b : BoundStatement) : ExecutionEnv :=
  ⟨b.params, b.config.batchSize, b.config.maxSortRows⟩

/-- Does what a statement says. -/
def BoundStatement.execute (b : BoundStatement) : StoreM Outcome :=
  match b.plan with
  | .query n => do return .rows (← openQuery b.env n)
  | .insert p => do return .affected (← p.run b.env)
  | .update p => do return .affected (← p.run b.env)
  | .delete p => do return .affected (← p.run b.env)
  | .truncate ns set => do
    let known ← StoreM.truncate ns set
    if !known then throw (.unknownTable (ns ++ "." ++ set))
    return .affected 0
  | .createIndex i => do
    StoreM.createIndex i
    return .affected 0
  | .dropIndex ns name => do
    StoreM.dropIndex ns name
    return .affected 0

/-- All rows that a statement returns. -/
def Outcome.collect : Outcome → StoreM (List Row)
  | rows s => fun st =>
    let (reading, _, st) := s.readAll st
    (reading.complete, st)
  | affected _ => throw .noRows

end RecordQuery
