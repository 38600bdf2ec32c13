import RecordQuery.Proofs.Compile.Side
import RecordQuery.Proofs.Predicate.Condition

set_option autoImplicit false

/-!
# Comparisons of columns with constants

A comparison of a column with a constant is decided by the store, or by the evaluator if something
else in the condition is beyond the store. Each of them compares in its own way. Here the two are
set against each other for whatever a bin may hold: truth values count as integers on both sides,
kinds that do not fit make the evaluator fail and the store reject, but a float is compared with an
integer by the evaluator only. The store rejects every float.

## Main results

* `Operand.accepts_iff_comparison` — the store accepts what is no float and what the evaluator
  finds true.
* `compileConjunct_literal` — what the comparison of a column with a constant becomes.
* `compileConjunct_literal_decides` — what the compiled comparison decides, and what the evaluator.
-/

namespace RecordQuery

section Comparing

variable {l : Literal} {o : Operand} {c : Comparison} {stored : Option Value} {v w x : Value}

/-- What a comparison comes to is null or a truth value. -/
lemma comparison_isTruthy (h : comparison c v w = .ok x) :
    x.isTruthy = true ↔ x = .boolean true := by
  unfold comparison at h
  split at h
  · obtain rfl := Except.ok.inj h
    simp [Value.isTruthy]
  · unfold compareValues at h
    split at h
    all_goals
      obtain ⟨place, -, hplace⟩ := Outcome.bind_eq_ok.mp h
      obtain rfl := Outcome.pure_eq_ok.mp hplace
      simp [Value.isTruthy]

/-- **The store accepts what is no float and what the evaluator finds true.** A float that the
evaluator finds equal to an integer, or above or below it, is rejected all the same.

**Proof sketch.** By cases on the constant and on what is stored. A truth value stands for an
integer on both sides. -/
theorem Operand.accepts_iff_comparison (hl : Side.ofLiteral l = .value o) :
    o.accepts o.kind c (some v) = true ↔
      v.isFloat = false ∧ comparison c v l.value = .ok (.boolean true) := by
  rw [Operand.accepts_kind]
  cases l with
  | float x => cases hl
  | null =>
    obtain rfl := Side.value.inj hl
    simp [comparison, Literal.value, Value.isNull]
  | boolean _ | integer _ | text _ =>
    obtain rfl := Side.value.inj hl
    cases v <;> simp [accepts, Value.isFloat, comparison, Literal.value, Value.isNull,
      compareValues, Value.order, Value.compare?]

/-- The store decides a comparison that has an outcome. -/
lemma Operand.accepts_of_comparison (hl : Side.ofLiteral l = .value o)
    (h : comparison c (stored.getD .null) l.value = .ok x) :
    o.accepts o.kind c stored = (x.isTruthy && !stored.any Value.isFloat) := by
  rw [Bool.eq_iff_iff, Bool.and_eq_true, comparison_isTruthy h]
  cases stored with
  | none =>
    obtain rfl : .null = x := by simpa [comparison, Value.isNull] using h
    simp
  | some v =>
    rw [accepts_iff_comparison hl]
    rw [Option.getD_some] at h
    simp [h, and_comm]

/-- The store rejects what the evaluator cannot compare. -/
lemma Operand.accepts_of_comparison_error {e : QueryError} (hl : Side.ofLiteral l = .value o)
    (h : comparison c (stored.getD .null) l.value = .error e) :
    o.accepts o.kind c stored = false := by
  cases stored with
  | none => exact accepts_absent _ c o
  | some v =>
    rw [Option.getD_some] at h
    rw [Bool.eq_false_iff, Ne, accepts_iff_comparison hl, h]
    simp

end Comparing

section Compiled

variable {compileSub : Query → Except QueryError QueryNode} {scope : Scope} {target : Nat}
  {topLevel : Bool} {slots : List SubquerySlot} {col : ColumnRef} {c : Comparison} {l : Literal}
  {o : Operand}

/-- The evaluator compares what a row holds in a column. -/
lemma Expr.eval_compareLiteral (params : List Value) (row : Row) :
    (Expr.binary (.compare c) (.column col) (.literal l)).eval params row =
      comparison c ((row.lookup? col).getD .null) l.value := rfl

/-- The comparison of a column with a constant becomes the comparison of its bin, read as the kind
of the constant. -/
lemma compileConjunct_literal (hcol : scope.resolve col = .ok target) (hkey : col.name ≠ keyColumn)
    (hdigest : col.name ≠ digestColumn) (hl : Side.ofLiteral l = .value o) :
    (compileConjunct compileSub scope target topLevel
        (.binary (.compare c) (.column col) (.literal l))).run slots =
      .ok (some (.bins (.compare col.name o.kind c o)), slots) := by
  have hleft : side scope target (.column col) = .ok (.bin col.name) := by
    simp [side, Expr.unwrap, hcol, hkey, hdigest, bind, Except.bind, pure, Except.pure]
  have hright : side scope target (.literal l) = .ok (.value o) := by
    rw [← hl]
    rfl
  simp only [compileConjunct, hleft, hright]
  rfl

variable (compileSub topLevel slots c)

/-- **The compiled comparison of a column with a constant agrees with the evaluator on everything
but floats.** On a record and a row in which the column has the same value, the compiled comparison
always decides. If the evaluator has an outcome and no float is stored, the record is accepted if
the outcome is true. A float is rejected, also where the evaluator finds that it is the constant, or
above or below it. Where the evaluator fails, the record is rejected.

**Proof sketch.** The compiled comparison compares what is stored with the constant
(`compileConjunct_literal`); the evaluator compares the same two values. Whether they agree depends
on the stored value only (`Operand.accepts_iff_comparison`). -/
theorem compileConjunct_literal_decides (params : List Value) {row : Row} {r : Record}
    (hcol : scope.resolve col = .ok target) (hkey : col.name ≠ keyColumn)
    (hdigest : col.name ≠ digestColumn) (hl : Side.ofLiteral l = .value o)
    (hread : row.lookup? col = r.bin? col.name) :
    (compileConjunct compileSub scope target topLevel
        (.binary (.compare c) (.column col) (.literal l))).run slots =
      .ok (some (.bins (.compare col.name o.kind c o)), slots) ∧
    (∀ x, (Expr.binary (.compare c) (.column col) (.literal l)).eval params row = .ok x →
      (Condition.compare col.name o.kind c o).program.run r =
        .ok (x.isTruthy && !(r.bin? col.name).any Value.isFloat)) ∧
    ∀ e, (Expr.binary (.compare c) (.column col) (.literal l)).eval params row = .error e →
      (Condition.compare col.name o.kind c o).program.run r = .ok false := by
  rw [Expr.eval_compareLiteral, hread]
  have hresolved : (Condition.compare col.name o.kind c o).isResolved = true := by
    cases l <;> cases hl <;> rfl
  have hrun := Condition.run_program r hresolved
  refine ⟨compileConjunct_literal hcol hkey hdigest hl, fun x hx => ?_, fun e he => ?_⟩
  · rw [hrun, Condition.holds, Operand.accepts_of_comparison hl hx]
  · rw [hrun, Condition.holds, Operand.accepts_of_comparison_error hl he]

/-- The score `7.0` equals `7`, but the store does not accept the record.

**Proof sketch.** The evaluator compares the float with the rounded integer and finds them equal.
The rest is `compileConjunct_literal_decides` at this scope and this record. -/
theorem compileConjunct_literal_decides_score :
    let scope : Scope := [⟨some "games", none⟩]
    let score : ColumnRef := ⟨none, "score"⟩
    let e : Expr := .binary (.compare .eq) (.column score) (.literal (.integer 7))
    let r : Record := ⟨⟨"ns", "games", .integer 1⟩,
      OrderedMap.empty.set "score" (.float ⟨0x401c000000000000⟩)⟩
    e.eval [] (Row.ofRecord r false) = .ok (.boolean true) ∧
      (compileConjunct (fun _ => .error .nestingTooDeep) scope 0 true e).run [] =
        .ok (some (.bins (.compare "score" .integer .eq (.integer 7))), []) ∧
      (Condition.compare "score" .integer .eq (.integer 7)).program.run r = .ok false := by
  intro scope score e r
  have hplace : (⟨0x401c000000000000⟩ : Binary64).compare? (Binary64.ofInt64 7) = some .eq := by
    decide +kernel
  have horder : (Value.float ⟨0x401c000000000000⟩).order (.integer 7) = .ok .eq := by
    rw [Value.order, Value.compare?, hplace]
  have hscore : (Row.ofRecord r false).lookup? score = some (.float ⟨0x401c000000000000⟩) := rfl
  have hx : e.eval [] (Row.ofRecord r false) = .ok (.boolean true) := by
    rw [Expr.eval_compareLiteral, hscore, Option.getD_some, Literal.value, comparison,
      if_neg (by decide), compareValues, horder]
    · rfl
    · intro b i h
      cases h
    · intro i b h
      cases h
  have hcol : scope.resolve score = .ok 0 := rfl
  have hl : Side.ofLiteral (.integer 7) = .value (.integer 7) := rfl
  have hread : (Row.ofRecord r false).lookup? score = r.bin? score.name := rfl
  obtain ⟨hcompiled, hrun, -⟩ := compileConjunct_literal_decides (fun _ => .error .nestingTooDeep)
    true [] .eq [] hcol (by decide) (by decide) hl hread
  exact ⟨hx, hcompiled, hrun _ hx⟩

end Compiled

end RecordQuery
