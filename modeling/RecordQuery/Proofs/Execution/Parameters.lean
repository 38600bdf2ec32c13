import RecordQuery.Proofs.Execution.Fault

set_option autoImplicit false

/-!
# How many parameters a statement takes

A compiled statement knows its highest parameter. That many values suffice: neither binding nor
carrying out the statement, nor reading its rows, misses a parameter. Fewer do not: binding misses
the first that is not there.

## Main results

* `suppliesParams_isUnbound` — no parameter within the list lacks a value.
* `Statement.bind_parameters` — so many parameters suffice, and fewer do not.
-/

namespace RecordQuery

open Outcome

/-- No parameter that is counted from one and within the list lacks a value. -/
lemma suppliesParams_isUnbound {params : List Value} {n : Nat} (h : n ≤ params.length) :
    SuppliesParams QueryError.isUnbound (fun i => decide (1 ≤ i ∧ i ≤ n)) params := by
  intro i hi
  obtain ⟨hpos, hle⟩ := of_decide_eq_true hi
  exact .of_safe (param?_benign hpos (Nat.le_trans hle h))

/-- **A statement takes as many parameters as its highest one says.** With that many values or more,
neither binding it nor carrying it out on any store fails for want of a parameter, and neither does
reading its rows, however many are asked for, in any state of the stream and of the store. With
fewer, binding fails for the first that is missing.

**Proof sketch.** Every parameter of a plan comes from one that was written
(`Statement.plan_isBindable`), which is no higher than the highest one (`Statement.le_maxParam`).
What binding and carrying out a plan ask for are parameters of the plan
(`StatementPlan.avoids_bind`, `BoundStatement.avoids_execute`). -/
theorem Statement.bind_parameters {config : Config} {catalog : IndexCatalog} {s : Statement}
    {e : Executable} (hs : ∀ i ∈ s.paramNumbers, 1 ≤ i)
    (hcompile : s.compile config catalog = .ok e) (params : List Value) :
    (e.paramCount ≤ params.length →
      (∀ err, e.bind params = .error err → err.isUnbound = false) ∧
      ∀ b, e.bind params = .ok b → ∀ st : Store,
        (∀ err, (b.execute st).1 = .error err → err.isUnbound = false) ∧
        ∀ r, (b.execute st).1 = .ok (.rows r) → r.Avoids QueryError.isUnbound) ∧
    (params.length < e.paramCount →
      e.bind params = .error (.parameterUnbound (params.length + 1))) := by
  simp only [Statement.compile, bind_eq_ok, pure_eq_ok] at hcompile
  obtain ⟨plan, hplan, rfl⟩ := hcompile
  constructor
  · intro hlength
    have hnumbers : ∀ i ∈ s.paramNumbers, decide (1 ≤ i ∧ i ≤ s.maxParam) = true :=
      fun i hi => decide_eq_true ⟨hs i hi, Statement.le_maxParam hi⟩
    have hbound := StatementPlan.avoids_bind (suppliesParams_isUnbound hlength)
      (Statement.plan_isBindable hnumbers hplan)
    have hbind : Avoids QueryError.isUnbound
        (fun b => b.plan.IsReadyFor QueryError.isUnbound b.params)
        (Executable.bind ⟨plan, s.maxParam, config⟩ params) := by
      unfold Executable.bind
      rw [if_neg (Nat.not_lt.mpr hlength)]
      exact hbound.bind fun q hq => .pure hq
    refine ⟨fun err herr => hbind.of_eq_error herr, fun b hb st => ?_⟩
    have hexecute := BoundStatement.avoids_execute (hbind.of_eq_ok hb) st
    exact ⟨fun err herr => hexecute.of_eq_error herr, fun r hr => hexecute.of_eq_ok hr⟩
  · intro hlength
    unfold Executable.bind
    rw [if_pos hlength]
    rfl

/-- Some of the people of an age who are members since a year: the age, the year and the number of
people are parameters, of which two are in places of their own. -/
def Statement.someMembers : Statement :=
  .query ⟨.select ⟨false, [.expr (.column ⟨none, "name"⟩) none], .named ⟨none, "people"⟩ none, [],
    some (.andAlso (.binary (.compare .eq) (.column ⟨none, "age"⟩) (.param 1))
      (.inQuery (.column ⟨none, "name"⟩)
        ⟨.select ⟨false, [.expr (.column ⟨none, "name"⟩) none], .named ⟨none, "members"⟩ none, [],
          some (.binary (.compare .ge) (.column ⟨none, "age"⟩) (.param 2)), [], none⟩,
          [], none, none⟩ false)), [], none⟩,
    [⟨.call "COALESCE" [.column ⟨none, "age"⟩, .param 2] false, true⟩], some (.param 3), none⟩

/-- That statement takes three parameters: with two it is not bound, and with three it returns rows
that are read without missing one.

**Proof sketch.** That the statement compiles, binds and returns rows is evaluated, and so is the
number of its parameters; the rest is `Statement.bind_parameters` for two values and for three. -/
theorem Statement.bind_parameters_someMembers :
    ∃ (e : Executable) (b : BoundStatement) (r : RowStream),
      Statement.someMembers.compile ⟨"test", 5000, none⟩ [] = .ok e ∧
        e.bind [.integer 36, .integer 18] = .error (.parameterUnbound 3) ∧
        e.bind [.integer 36, .integer 18, .integer 10] = .ok b ∧
        (b.execute Store.household).1 = .ok (.rows r) ∧ r.Avoids QueryError.isUnbound := by
  have hnumbers : ∀ i ∈ Statement.someMembers.paramNumbers, 1 ≤ i := by decide
  obtain ⟨e, b, r, he, hb, hr⟩ := @Statement.exists_of_isRows ⟨"test", 5000, none⟩ []
    Statement.someMembers [.integer 36, .integer 18, .integer 10] Store.household (by decide +kernel)
  have hcount : e.paramCount = 3 := by
    simp only [Statement.compile, bind_eq_ok, pure_eq_ok] at he
    obtain ⟨plan, -, rfl⟩ := he
    change Statement.someMembers.maxParam = 3
    decide
  have hshort := (Statement.bind_parameters hnumbers he [.integer 36, .integer 18]).2
    (by rw [hcount]; decide)
  have hlong := (Statement.bind_parameters hnumbers he
    [.integer 36, .integer 18, .integer 10]).1 (by rw [hcount]; decide)
  exact ⟨e, b, r, he, hshort, hb, hr, (hlong.2 b hb Store.household).2 r hr⟩

end RecordQuery
