import RecordQuery.Proofs.Compile.Agreement

set_option autoImplicit false

/-!
# Ranges and lists as comparisons

A range can be written as two comparisons, and a list as a disjunction of equalities. The evaluator
does neither: it has rules of its own for null and, in lists, an equality of its own. Filters ask
for truth only, in both polarities, so here truth and falsity are told apart from null, and the
short forms are set against the long ones.

## Main definitions

* `Expr.TrueIn`, `Expr.FalseIn` — an expression has a value that counts as true, or as false.
* `Expr.explicitRange`, `Expr.anyEqual` — the long forms of a range and of a list.
* `Value.alike` — values of one kind, also element by element.

## Main results

* `Expr.between_explicitRange` — a range is true if its long form is; a negated one asks in addition
  that no bound is null.
* `Value.equal_iff_compare` — equality of values is that of their order, for values of one kind.
* `Expr.inList_anyEqual` — what makes lists and their long forms true.
-/

namespace RecordQuery

/-! ## Truth, falsity and null -/

/-- Whether a value counts as false: it is neither true nor null. -/
def Value.isFalse (v : Value) : Bool := !v.isNull && !v.isTruthy

/-- Only the absent value is null. -/
lemma Value.isNull_iff {v : Value} : v.isNull = true ↔ v = .null := by
  cases v <;> simp [isNull]

namespace Expr

/-- The expression has a value that counts as true. -/
def TrueIn (env : EvalEnv) (e : Expr) : Prop := ∃ v, e.evalIn env = .ok v ∧ v.isTruthy = true

/-- The expression has a value that counts as false. -/
def FalseIn (env : EvalEnv) (e : Expr) : Prop := ∃ v, e.evalIn env = .ok v ∧ v.isFalse = true

section Logic

variable {env : EvalEnv} {c : Comparison} {l r e : Expr} {v x : Value}

/-- The truth of an expression is that of its value. -/
lemma trueIn_iff (h : e.evalIn env = .ok v) : e.TrueIn env ↔ v.isTruthy = true := by
  constructor
  · rintro ⟨w, hw, htrue⟩
    obtain rfl := Except.ok.inj (h.symm.trans hw)
    exact htrue
  · exact fun htrue => ⟨v, h, htrue⟩

/-- The falsity of an expression is that of its value. -/
lemma falseIn_iff (h : e.evalIn env = .ok v) : e.FalseIn env ↔ v.isFalse = true := by
  constructor
  · rintro ⟨w, hw, hfalse⟩
    obtain rfl := Except.ok.inj (h.symm.trans hw)
    exact hfalse
  · exact fun hfalse => ⟨v, h, hfalse⟩

/-- What is true is not false. -/
lemma TrueIn.not_falseIn (h : e.TrueIn env) : ¬ e.FalseIn env := by
  rintro ⟨w, hw, hfalse⟩
  rw [trueIn_iff hw] at h
  simp [Value.isFalse, h] at hfalse

/-- A negation is true if what it negates is false. -/
lemma trueIn_not : (not e).TrueIn env ↔ e.FalseIn env := by
  constructor
  · rintro ⟨x, hx, htrue⟩
    simp only [evalIn, Outcome.bind_eq_ok] at hx
    obtain ⟨v, hv, hx⟩ := hx
    refine ⟨v, hv, ?_⟩
    split at hx
    · rw [Outcome.pure_eq_ok] at hx
      rw [← hx] at htrue
      cases htrue
    · rename_i hnull
      rw [Outcome.pure_eq_ok] at hx
      rw [← hx] at htrue
      simpa [Value.isFalse, hnull, Value.isTruthy] using htrue
  · rintro ⟨v, hv, hfalse⟩
    simp only [Value.isFalse, Bool.and_eq_true, Bool.not_eq_true'] at hfalse
    refine ⟨.boolean true, ?_, rfl⟩
    simp [evalIn, hv, hfalse, pure, Except.pure]

open Classical in
/-- An expression decides whether it is true. -/
lemma decides_trueIn (e : Expr) : Decides (decide (e.TrueIn env)) (e.evalIn env) := by
  intro v hv
  simp [trueIn_iff hv]

/-- A conjunction is true if both sides are. -/
lemma trueIn_and : (binary .and l r).TrueIn env ↔ l.TrueIn env ∧ r.TrueIn env := by
  constructor
  · rintro ⟨x, hx, htrue⟩
    have hboth := Decides.and (decides_trueIn l) (decides_trueIn r) x hx
    rw [htrue] at hboth
    simpa using hboth.symm
  · rintro ⟨⟨v, hv, hvtrue⟩, w, hw, hwtrue⟩
    have hvnull : v.isNull = false := by cases v <;> first | rfl | cases hvtrue
    have hwnull : w.isNull = false := by cases w <;> first | rfl | cases hwtrue
    refine ⟨.boolean true, ?_, rfl⟩
    simp [evalIn, hv, hw, hvtrue, hwtrue, hvnull, hwnull, pure, Except.pure]

/-- A conjunction of truth values. A left side that is false decides it. -/
lemma evalIn_and {a b : Bool} (hl : l.evalIn env = .ok (.boolean a))
    (hr : a = true → r.evalIn env = .ok (.boolean b)) :
    (binary .and l r).evalIn env = .ok (.boolean (a && b)) := by
  cases a with
  | false => simp [evalIn, hl, Value.isNull, Value.isTruthy, pure, Except.pure]
  | true =>
    cases b <;> simp [evalIn, hl, hr, Value.isNull, Value.isTruthy, pure, Except.pure]

/-- A disjunction is false if both sides are.

**Proof sketch.** From left to right the evaluation is followed: every way out but the last one
returns true or null, which are not false, and at the last one both sides are neither true nor null.
From right to left the two values are put into the evaluation. -/
lemma falseIn_or : (binary .or l r).FalseIn env ↔ l.FalseIn env ∧ r.FalseIn env := by
  constructor
  · rintro ⟨x, hx, hfalse⟩
    simp only [evalIn, Outcome.bind_eq_ok] at hx
    obtain ⟨v, hv, hx⟩ := hx
    split at hx
    · rw [Outcome.pure_eq_ok] at hx
      rw [← hx] at hfalse
      cases hfalse
    · rename_i hleft
      simp only [Outcome.bind_eq_ok] at hx
      obtain ⟨w, hw, hx⟩ := hx
      split at hx
      · rw [Outcome.pure_eq_ok] at hx
        rw [← hx] at hfalse
        cases hfalse
      · rename_i hright
        split at hx
        · rw [Outcome.pure_eq_ok] at hx
          rw [← hx] at hfalse
          cases hfalse
        · exact ⟨⟨v, hv, by simp_all [Value.isFalse]⟩, w, hw, by simp_all [Value.isFalse]⟩
  · rintro ⟨⟨v, hv, hvfalse⟩, w, hw, hwfalse⟩
    simp only [Value.isFalse, Bool.and_eq_true, Bool.not_eq_true'] at hvfalse hwfalse
    refine ⟨.boolean false, ?_, rfl⟩
    simp [evalIn, hv, hw, hvfalse, hwfalse, pure, Except.pure]

/-- A disjunction that has a value is true if one of the two sides is. -/
lemma trueIn_or (h : (binary .or l r).evalIn env = .ok x) :
    x.isTruthy = true ↔ l.TrueIn env ∨ r.TrueIn env := by
  rw [Decides.or (decides_trueIn l) (decides_trueIn r) x h]
  simp

/-- What a comparison comes to, if no side is null, is a truth value. -/
lemma comparison_eq_ok {w : Value} (h : comparison c v w = .ok x) :
    ((v.isNull || w.isNull) = true ∧ x = .null) ∨
      ((v.isNull || w.isNull) = false ∧ ∃ b, x = .boolean b) := by
  unfold comparison at h
  split at h
  · rename_i hnull
    exact .inl ⟨hnull, (Except.ok.inj h).symm⟩
  · rename_i hnull
    right
    refine ⟨by simpa using hnull, ?_⟩
    unfold compareValues at h
    split at h
    all_goals
      simp only [Outcome.bind_eq_ok, Outcome.pure_eq_ok] at h
      obtain ⟨o, -, rfl⟩ := h
      exact ⟨_, rfl⟩

/-- Two sides that have values are compared by them. -/
lemma evalIn_compare_eq {w : Value} (hl : l.evalIn env = .ok v) (hr : r.evalIn env = .ok w) :
    (binary (.compare c) l r).evalIn env = comparison c v w := by
  simp only [evalIn, hl, hr, Outcome.ok_bind, comparison]
  rfl

/-- A comparison that has a value, has a truth value or is null. -/
lemma evalIn_compare_cases (h : (binary (.compare c) l r).evalIn env = .ok x) :
    x = .null ∨ ∃ b, x = .boolean b := by
  obtain ⟨v, w, -, -, hx⟩ := evalIn_compare h
  rcases comparison_eq_ok hx with ⟨-, hnull⟩ | ⟨-, hbool⟩
  · exact .inl hnull
  · exact .inr hbool

/-- A comparison is true if its value is the truth value. -/
lemma trueIn_compare : (binary (.compare c) l r).TrueIn env ↔
    (binary (.compare c) l r).evalIn env = .ok (.boolean true) := by
  constructor
  · rintro ⟨x, hx, htrue⟩
    rcases evalIn_compare_cases hx with rfl | ⟨b, rfl⟩
    · cases htrue
    · obtain rfl : b = true := htrue
      exact hx
  · exact fun h => ⟨_, h, rfl⟩

/-- A comparison is false if its value is the other truth value. -/
lemma falseIn_compare : (binary (.compare c) l r).FalseIn env ↔
    (binary (.compare c) l r).evalIn env = .ok (.boolean false) := by
  constructor
  · rintro ⟨x, hx, hfalse⟩
    rcases evalIn_compare_cases hx with rfl | ⟨b, rfl⟩
    · cases hfalse
    · obtain rfl : b = false := by simpa [Value.isFalse, Value.isNull, Value.isTruthy] using hfalse
      exact hx
  · exact fun h => ⟨_, h, rfl⟩

end Logic

end Expr

/-! ## Ranges -/

namespace Expr

/-- The long form of a range: not below the lower bound and not above the upper one. -/
def explicitRange (e low high : Expr) : Expr :=
  binary .and (binary (.compare .ge) e low) (binary (.compare .le) e high)

section Ranges

variable {env : EvalEnv} {e low high : Expr} {v l u x : Value}

/-- A range with a null is null, and every other one has the value of its long form.

**Proof sketch.** By the outcome of the range (`between_eq_ok`). Without a null the lower comparison
has the value of its order. If it fails then it decides the conjunction and the range alike. If it
holds then the upper comparison decides both. -/
lemma explicitRange_of_between {negated : Bool} (he : e.evalIn env = .ok v)
    (hl : low.evalIn env = .ok l) (hu : high.evalIn env = .ok u)
    (h : RecordQuery.between negated v l u = .ok x) :
    ((v.isNull || l.isNull || u.isNull) = true ∧ x = .null) ∨
      ((v.isNull = false ∧ l.isNull = false ∧ u.isNull = false) ∧
        ∃ inside, (explicitRange e low high).evalIn env = .ok (.boolean inside) ∧
          x = .boolean (inside != negated)) := by
  rcases between_eq_ok h with hnull | ⟨⟨hvn, hln, hun⟩, below, hbelow, hrest⟩
  · exact .inl hnull
  refine .inr ⟨⟨hvn, hln, hun⟩, ?_⟩
  have hge := comparison_of_order (c := .ge) hvn hln hbelow
  rw [← evalIn_compare_eq he hl] at hge
  rcases hrest with ⟨rfl, rfl⟩ | ⟨above, habove, hne, rfl⟩
  · -- The lower bound decides, whatever becomes of the upper one.
    have hfalse : (explicitRange e low high).evalIn env = .ok (.boolean false) :=
      evalIn_and (b := true) hge fun hle => by cases hle
    exact ⟨false, hfalse, by rw [Bool.false_bne]⟩
  · have hle := comparison_of_order (c := .le) hvn hun habove
    rw [← evalIn_compare_eq he hu] at hle
    have hbelow' : Comparison.admits .ge below = true := by simpa [Comparison.admits] using hne
    refine ⟨above != .gt, ?_, rfl⟩
    rw [explicitRange, evalIn_and hge fun _ => hle, hbelow']
    rfl

/-- The long form of a range with a null is not true. -/
lemma not_trueIn_explicitRange (he : e.evalIn env = .ok v) (hl : low.evalIn env = .ok l)
    (hu : high.evalIn env = .ok u) (hnull : (v.isNull || l.isNull || u.isNull) = true) :
    ¬ (explicitRange e low high).TrueIn env := by
  rw [explicitRange, trueIn_and, trueIn_compare, trueIn_compare, evalIn_compare_eq he hl,
    evalIn_compare_eq he hu]
  rintro ⟨hge, hle⟩
  rcases comparison_eq_ok hge with ⟨-, hx⟩ | ⟨hvl, -⟩
  · cases hx
  rcases comparison_eq_ok hle with ⟨-, hx⟩ | ⟨hvu, -⟩
  · cases hx
  simp_all

/-- The long form of a range of null is null. -/
lemma explicitRange_of_isNull (he : e.evalIn env = .ok v) (hl : low.evalIn env = .ok l)
    (hu : high.evalIn env = .ok u) (hnull : v.isNull = true) :
    (explicitRange e low high).evalIn env = .ok .null := by
  have hge : (binary (.compare .ge) e low).evalIn env = .ok .null := by
    rw [evalIn_compare_eq he hl, comparison, hnull]
    rfl
  have hle : (binary (.compare .le) e high).evalIn env = .ok .null := by
    rw [evalIn_compare_eq he hu, comparison, hnull]
    rfl
  rw [explicitRange, evalIn, hge, Outcome.ok_bind, hle]
  rfl

/-- **Ranges as comparisons.** On every row, a range is true if and only if its long form is. A
negated range is true if and only if no bound is null and the negation of the long form is true:
one bound may exclude a value while the other is unknown, and only the long form sees that.

**Proof sketch.** Without a null, the range has the value of its long form, or the opposite value if
it is negated. With a null, the range is null in both polarities. Then the long form is not true.
If the null is not a bound, both comparisons are null, and so is the negation of the long form. -/
theorem between_explicitRange (params : List Value) (row : Row) (e low high : Expr) :
    (∀ x y, (between e low high false).eval params row = .ok x →
      (explicitRange e low high).eval params row = .ok y →
      (x.isTruthy = true ↔ y.isTruthy = true)) ∧
    (∀ x y, (between e low high true).eval params row = .ok x →
      (not (explicitRange e low high)).eval params row = .ok y →
      (x.isTruthy = true ↔ low.eval params row ≠ .ok .null ∧ high.eval params row ≠ .ok .null ∧
        y.isTruthy = true)) := by
  constructor
  · intro x y hx hy
    obtain ⟨v, l, u, hv, hl, hu, hx⟩ := evalIn_between hx
    rw [← trueIn_iff hy]
    rcases explicitRange_of_between hv hl hu hx with ⟨hnull, rfl⟩ | ⟨-, inside, hlong, rfl⟩
    · exact iff_of_false Bool.false_ne_true (not_trueIn_explicitRange hv hl hu hnull)
    · rw [trueIn_iff hlong, Bool.bne_false]
  · intro x y hx hy
    obtain ⟨v, l, u, hv, hl, hu, hx⟩ := evalIn_between hx
    rw [← trueIn_iff hy, trueIn_not]
    have hl' : low.eval params row = .ok l := hl
    have hu' : high.eval params row = .ok u := hu
    simp only [hl', hu', ne_eq, Except.ok.injEq, ← Value.isNull_iff, Bool.not_eq_true]
    rcases explicitRange_of_between hv hl hu hx with
      ⟨hnull, rfl⟩ | ⟨⟨-, hln, hun⟩, inside, hlong, rfl⟩
    · refine iff_of_false Bool.false_ne_true fun ⟨hln, hun, hfalse⟩ => ?_
      have hvn : v.isNull = true := by simpa [hln, hun] using hnull
      rw [falseIn_iff (explicitRange_of_isNull hv hl hu hvn)] at hfalse
      cases hfalse
    · rw [falseIn_iff hlong, hln, hun]
      simp [Value.isTruthy, Value.isFalse, Value.isNull]

/-- Thirty does not lie between one and nine, and this is true in the short form and in the long
one. -/
theorem between_explicitRange_age :
    let row : Row := OrderedMap.empty.set "age" (.integer 30)
    let age : Expr := .column ⟨none, "age"⟩
    let one : Expr := .literal (.integer 1)
    let nine : Expr := .literal (.integer 9)
    (between age one nine true).eval [] row = .ok (.boolean true) ∧
      (not (explicitRange age one nine)).eval [] row = .ok (.boolean true) ∧
      one.eval [] row ≠ .ok .null ∧ nine.eval [] row ≠ .ok .null := by
  intro row age one nine
  have hx : (between age one nine true).eval [] row = .ok (.boolean true) := by rfl
  have hy : (not (explicitRange age one nine)).eval [] row = .ok (.boolean true) := by rfl
  obtain ⟨hone, hnine, -⟩ := ((between_explicitRange [] row age one nine).2 _ _ hx hy).mp rfl
  exact ⟨hx, hy, hone, hnine⟩

/-- A null for a bound tells a negated range from the negation of its long form: five is below ten,
whatever the upper bound. -/
theorem not_between_eq_explicitRange :
    ¬ ∀ (params : List Value) (row : Row) (e low high : Expr),
      (∀ x y, (between e low high false).eval params row = .ok x →
        (explicitRange e low high).eval params row = .ok y →
        (x.isTruthy = true ↔ y.isTruthy = true)) ∧
      (∀ x y, (between e low high true).eval params row = .ok x →
        (not (explicitRange e low high)).eval params row = .ok y →
        (x.isTruthy = true ↔ y.isTruthy = true)) := by
  intro h
  have hx : (between (.literal (.integer 5)) (.literal (.integer 10)) (.literal .null) true).eval []
      OrderedMap.empty = .ok .null := by rfl
  have hy : (not (explicitRange (.literal (.integer 5)) (.literal (.integer 10))
      (.literal .null))).eval [] OrderedMap.empty = .ok (.boolean true) := by rfl
  exact Bool.false_ne_true (((h _ _ _ _ _).2 _ _ hx hy).mpr rfl)

end Ranges

end Expr

/-! ## Equality -/

namespace Value

mutual

/-- Whether two values are of one kind, and the elements of two lists in turn. -/
def alike : Value → Value → Bool
  | list vs, list ws => alikeList vs ws
  | v, w => decide (v.kind = w.kind)

/-- Whether the elements of two lists are of one kind in turn, as far as both go. -/
def alikeList : List Value → List Value → Bool
  | v :: vs, w :: ws => alike v w && alikeList vs ws
  | _, _ => true

end

/-- Floating-point numbers are equal if their order says so. -/
lemma equal_float_iff {x y : Binary64} : y.equal x = true ↔ x.compare? y = some .eq := by
  unfold Binary64.equal Binary64.compare?
  cases x.isNaN <;> cases y.isNaN <;> simp
  exact eq_comm

/-- Truth values are equal if the integers are that they stand for. -/
lemma boolInt_inj {a b : Bool} : boolInt a = boolInt b ↔ b = a := by
  cases a <;> cases b <;> decide

mutual

/-- **Equality of values is that of their order**, for values of one kind. The order also compares
integers with floats.

**Proof sketch.** Induction on the values. For values of one kind that are no lists, both are
equality of the content. Two lists have an order that says equal if all pairs of elements have. -/
lemma equal_iff_compare : (v w : Value) →
    (w.equal v = true ↔ v.compare? w = some .eq ∧ v.alike w = true)
  | list vs, list ws => by
    rw [equal, compare?, alike]
    exact equalList_iff_compare vs ws
  | null, w | boolean _, w | integer _, w | float _, w | text _, w | blob _, w => by
    cases w <;>
      simp [equal, compare?, alike, kind, equal_float_iff, compareBytes_eq_iff, boolInt_inj,
        Int64.toInt_inj]
    all_goals exact eq_comm
  | list _, null | list _, boolean _ | list _, integer _ | list _, float _ | list _, text _
  | list _, blob _ => by
    simp [equal, compare?]

/-- Lists of values are equal if their order says so, for elements of one kind in turn. -/
lemma equalList_iff_compare : (vs ws : List Value) →
    (equalList ws vs = true ↔ compareList? vs ws = some .eq ∧ alikeList vs ws = true)
  | [], [] => by simp [equalList, compareList?, alikeList]
  | [], _ :: _ => by simp [equalList, compareList?]
  | _ :: _, [] => by simp [equalList, compareList?]
  | v :: vs, w :: ws => by
    have hhead := equal_iff_compare v w
    have htail := equalList_iff_compare vs ws
    rw [equalList, compareList?, alikeList, Bool.and_eq_true, Bool.and_eq_true, hhead, htail]
    cases v.compare? w with
    | none => simp
    | some o => cases o <;> simp [and_left_comm]

end

/-- Values of one kind are null together. -/
lemma isNull_of_alike {v w : Value} (h : v.alike w = true) : w.isNull = v.isNull := by
  cases v <;> cases w <;> simp_all [isNull, alike, kind]

/-- A comparison of values of one kind asks for their order. -/
lemma compareValues_of_alike {v w : Value} (h : v.alike w = true) (c : Comparison) :
    compareValues c v w = (v.order w).map fun o => .boolean (c.admits o) := by
  unfold compareValues
  split
  · simp [alike, kind] at h
  · simp [alike, kind] at h
  · rfl

/-- **Equality is comparison for values of one kind**: a value equals one that is not null if the
comparison of the two is true and they are of one kind. -/
lemma equal_iff_comparison {v w : Value} (hv : v.isNull = false) :
    w.equal v = true ↔ comparison .eq v w = .ok (.boolean true) ∧ v.alike w = true := by
  rw [equal_iff_compare]
  refine and_congr_left fun halike => ?_
  rw [comparison, isNull_of_alike halike, hv, Bool.or_self, if_neg Bool.false_ne_true,
    compareValues_of_alike halike, order]
  cases v.compare? w with
  | none => simp [Except.map]
  | some o => simp [Except.map, Comparison.admits]

end Value

/-! ## Lists -/

namespace Expr

/-- The disjunction of several expressions, from the left; nothing is false. -/
def anyOf : List Expr → Expr
  | [] => literal (.boolean false)
  | e :: es => es.foldl (binary .or) e

/-- The long form of a list: the subject is equal to one of the items. -/
def anyEqual (e : Expr) (items : List Expr) : Expr :=
  anyOf (items.map (binary (.compare .eq) e))

section Lists

variable {env : EvalEnv} {e d item : Expr} {es items : List Expr} {v x : Value}

/-- A disjunction from the left is false if all of it is. -/
lemma falseIn_foldl_or :
    (es.foldl (binary .or) d).FalseIn env ↔ d.FalseIn env ∧ ∀ e ∈ es, e.FalseIn env := by
  induction es generalizing d with
  | nil => simp
  | cons e es ih => rw [List.foldl_cons, ih, falseIn_or, List.forall_mem_cons, and_assoc]

/-- A disjunction from the left has a value only if its first part has one. -/
lemma exists_value_of_foldl_or (h : (es.foldl (binary .or) d).evalIn env = .ok x) :
    ∃ v, d.evalIn env = .ok v := by
  induction es generalizing d with
  | nil => exact ⟨x, h⟩
  | cons e es ih =>
    obtain ⟨w, hw⟩ := ih h
    simp only [evalIn, Outcome.bind_eq_ok] at hw
    exact hw.imp fun v hv => hv.1

/-- A disjunction from the left that has a value is true if some of it is. -/
lemma trueIn_foldl_or (h : (es.foldl (binary .or) d).evalIn env = .ok x) :
    x.isTruthy = true ↔ d.TrueIn env ∨ ∃ e ∈ es, e.TrueIn env := by
  induction es generalizing d with
  | nil => simp [← trueIn_iff h]
  | cons e es ih =>
    obtain ⟨w, hw⟩ := exists_value_of_foldl_or (d := binary .or d e) h
    rw [ih h, trueIn_iff hw, trueIn_or hw, or_assoc, List.exists_mem_cons_iff]

/-- All parts of a disjunction from the left that is not true have a value.

**Proof sketch.** By induction on the list, the first item being moved into the disjunction on the
left. The disjunction up to an item is evaluated first; it is not true, since otherwise the whole
would be true, and so its right side, the item, has been evaluated. -/
lemma exists_values_of_foldl_or (h : (es.foldl (binary .or) d).evalIn env = .ok x)
    (hx : x.isTruthy = false) : ∀ e ∈ es, ∃ v, e.evalIn env = .ok v := by
  induction es generalizing d with
  | nil => exact fun e he => by cases he
  | cons e es ih =>
    obtain ⟨w, hw⟩ := exists_value_of_foldl_or (d := binary .or d e) h
    have hwfalse : w.isTruthy = false := by
      rw [← Bool.not_eq_true, ← trueIn_iff hw]
      intro htrue
      have := (trueIn_foldl_or (d := binary .or d e) h).mpr (.inl htrue)
      rw [hx] at this
      cases this
    refine List.forall_mem_cons.mpr ⟨?_, ih h⟩
    simp only [evalIn, Outcome.bind_eq_ok] at hw
    obtain ⟨v, -, hw⟩ := hw
    split at hw
    · rw [Outcome.pure_eq_ok] at hw
      rw [← hw] at hwfalse
      cases hwfalse
    · simp only [Outcome.bind_eq_ok] at hw
      exact hw.imp fun u hu => hu.1

/-- The disjunction of several expressions is false if all of them are. -/
lemma falseIn_anyOf : (anyOf es).FalseIn env ↔ ∀ e ∈ es, e.FalseIn env := by
  cases es with
  | nil =>
    have hfalse : (anyOf []).evalIn env = .ok (.boolean false) := by simp only [anyOf, evalIn]; rfl
    rw [falseIn_iff hfalse]
    exact iff_of_true rfl fun e he => by cases he
  | cons e es => rw [anyOf, falseIn_foldl_or, List.forall_mem_cons]

/-- The disjunction of several expressions, if it has a value, is true if one of them is. If it is
not, all of them have a value. -/
lemma trueIn_anyOf (h : (anyOf es).evalIn env = .ok x) :
    (x.isTruthy = true ↔ ∃ e ∈ es, e.TrueIn env) ∧
      (x.isTruthy = false → ∀ e ∈ es, ∃ v, e.evalIn env = .ok v) := by
  cases es with
  | nil =>
    simp only [anyOf, evalIn, Except.ok.injEq] at h
    rw [← h]
    simp [Literal.value, Value.isTruthy]
  | cons e es =>
    refine ⟨by rw [trueIn_foldl_or h, List.exists_mem_cons_iff], fun hx => ?_⟩
    exact List.forall_mem_cons.mpr ⟨exists_value_of_foldl_or h, exists_values_of_foldl_or h hx⟩

/-- A value is among those of several expressions if it is that of one of them. -/
lemma evalMember_iff {found : Bool} (h : evalMember env v items = .ok found) :
    found = true ↔ ∃ item ∈ items, ∃ w, item.evalIn env = .ok w ∧ w.equal v = true := by
  induction items with
  | nil =>
    obtain rfl := Except.ok.inj h
    simp
  | cons item items ih =>
    simp only [evalMember, Outcome.bind_eq_ok] at h
    obtain ⟨w, hw, h⟩ := h
    rw [List.exists_mem_cons_iff]
    split at h
    · rename_i hequal
      rw [Outcome.pure_eq_ok] at h
      exact iff_of_true h.symm (.inl ⟨w, hw, hequal⟩)
    · rename_i hne
      rw [ih h, or_iff_right]
      rintro ⟨w', hw', hequal⟩
      obtain rfl := Except.ok.inj (hw.symm.trans hw')
      exact hne hequal

/-- The values of two expressions are of one kind. -/
def AlikeIn (env : EvalEnv) (e item : Expr) : Prop :=
  ∀ v w, e.evalIn env = .ok v → item.evalIn env = .ok w → v.alike w = true

/-- What a list of items is for a subject that is not null: whether one of the items that are equal
to it is of its kind.

**Proof sketch.** If the subject is null then so is the list. Otherwise the items are searched with
the equality of values, and two values are equal if and only if they compare as equal and are of one
kind (`Value.equal_iff_comparison`). -/
lemma inList_cases {negated : Bool} (h : (inList e items negated).evalIn env = .ok x) :
    (e.evalIn env = .ok .null ∧ x = .null) ∨
      (∃ v, e.evalIn env = .ok v ∧ v.isNull = false) ∧ ∃ found, x = .boolean (found != negated) ∧
        (found = true ↔ ∃ item ∈ items, (binary (.compare .eq) e item).TrueIn env ∧
          e.AlikeIn env item) := by
  obtain ⟨v, hv, ⟨hnull, rfl⟩ | ⟨hnull, found, hfound, rfl⟩⟩ := evalIn_inList h
  · rw [Value.isNull_iff.mp hnull] at hv
    exact .inl ⟨hv, rfl⟩
  · refine .inr ⟨⟨v, hv, hnull⟩, found, rfl, ?_⟩
    rw [evalMember_iff hfound]
    refine exists_congr fun item => and_congr_right fun _ => ?_
    constructor
    · rintro ⟨w, hw, hequal⟩
      rw [Value.equal_iff_comparison hnull] at hequal
      rw [trueIn_compare, evalIn_compare_eq hv hw]
      refine ⟨hequal.1, fun v' w' hv' hw' => ?_⟩
      obtain rfl := Except.ok.inj (hv.symm.trans hv')
      obtain rfl := Except.ok.inj (hw.symm.trans hw')
      exact hequal.2
    · rintro ⟨htrue, halike⟩
      rw [trueIn_compare] at htrue
      obtain ⟨v', w, hv', hw, hx⟩ := evalIn_compare htrue
      obtain rfl := Except.ok.inj (hv.symm.trans hv')
      exact ⟨w, hw, (Value.equal_iff_comparison hnull).mpr ⟨hx, halike v w hv hw⟩⟩

/-- The long form of a list is true if the subject is equal to an item. -/
lemma trueIn_anyEqual (h : (anyEqual e items).evalIn env = .ok x) :
    x.isTruthy = true ↔ ∃ item ∈ items, (binary (.compare .eq) e item).TrueIn env := by
  simp [(trueIn_anyOf h).1]

/-- The long form of a list is false if the subject differs from all items. -/
lemma falseIn_anyEqual : (anyEqual e items).FalseIn env ↔
    ∀ item ∈ items, (binary (.compare .eq) e item).FalseIn env := by
  rw [anyEqual, falseIn_anyOf, List.forall_mem_map]

/-- What is compared and comes to a truth value, is not null. -/
lemma not_null_of_compare {c : Comparison} {b : Bool}
    (h : (binary (.compare c) e item).evalIn env = .ok (.boolean b)) :
    e.evalIn env ≠ .ok .null := by
  intro he
  obtain ⟨v, w, hv, hw, hvw⟩ := evalIn_compare h
  obtain rfl := Except.ok.inj (he.symm.trans hv)
  cases hvw

/-- The long form of a list without a null is false if it is not true. -/
lemma falseIn_anyEqual_of_not_null (h : (anyEqual e items).evalIn env = .ok x)
    (hx : x.isTruthy = false) (he : e.evalIn env ≠ .ok .null)
    (hitems : ∀ item ∈ items, item.evalIn env ≠ .ok .null) : (anyEqual e items).FalseIn env := by
  rw [falseIn_anyEqual]
  intro item hitem
  obtain ⟨y, hy⟩ := (trueIn_anyOf h).2 hx _ (List.mem_map_of_mem hitem)
  have hfalse : y.isTruthy = false := by
    rw [← Bool.not_eq_true, ← trueIn_iff hy]
    intro htrue
    rw [(trueIn_anyEqual h).mpr ⟨item, hitem, htrue⟩] at hx
    cases hx
  obtain ⟨v, w, hv, hw, hvw⟩ := evalIn_compare hy
  rcases comparison_eq_ok hvw with ⟨hnull, -⟩ | ⟨-, b, rfl⟩
  · rcases Bool.or_eq_true_iff.mp hnull with hn | hn
    · rw [Value.isNull_iff.mp hn] at hv
      exact absurd hv he
    · rw [Value.isNull_iff.mp hn] at hw
      exact absurd hw (hitems item hitem)
  · obtain rfl : b = false := hfalse
    exact falseIn_compare.mpr hy

/-- A list is true only if an item is equal to the subject, and exactly then if the items that are
equal to it are of its kind. -/
lemma trueIn_inList (h : (inList e items false).evalIn env = .ok x) :
    (x.isTruthy = true → ∃ item ∈ items, (binary (.compare .eq) e item).TrueIn env) ∧
      ((∀ item ∈ items, (binary (.compare .eq) e item).TrueIn env → e.AlikeIn env item) →
        (x.isTruthy = true ↔ ∃ item ∈ items, (binary (.compare .eq) e item).TrueIn env)) := by
  rcases inList_cases h with ⟨he, rfl⟩ | ⟨-, found, rfl, hfound⟩
  · have hnone : ¬ ∃ item ∈ items, (binary (.compare .eq) e item).TrueIn env :=
      fun ⟨item, _, htrue⟩ => not_null_of_compare (trueIn_compare.mp htrue) he
    exact ⟨fun h => absurd h Bool.false_ne_true, fun _ => iff_of_false Bool.false_ne_true hnone⟩
  · have hsub : found = true → ∃ item ∈ items, (binary (.compare .eq) e item).TrueIn env := by
      intro h
      obtain ⟨item, hitem, htrue, -⟩ := hfound.mp h
      exact ⟨item, hitem, htrue⟩
    rw [Bool.bne_false]
    refine ⟨hsub, fun halike => ⟨hsub, fun ⟨item, hitem, htrue⟩ => ?_⟩⟩
    exact hfound.mpr ⟨item, hitem, htrue, halike item hitem htrue⟩

/-- A negated list with items is true if the subject differs from all of them, and only then if none
of them is null and those that are equal to the subject are of its kind.

**Proof sketch.** For a null subject the list is null; then no item differs from it and the long
form is not false either. Otherwise the list is true if nothing is found. If all items differ then
none is found. Conversely, if none is found, no item equal to the subject is of its kind, so by
assumption none is equal, and without nulls a disjunction that is not true is false. -/
lemma trueIn_inList_negated {z : Value} (h : (inList e items true).evalIn env = .ok x)
    (hz : (anyEqual e items).evalIn env = .ok z)
    (hsubject : items ≠ [] ∨ e.evalIn env ≠ .ok .null) :
    ((anyEqual e items).FalseIn env → x.isTruthy = true) ∧
      ((∀ item ∈ items, item.evalIn env ≠ .ok .null ∧
          ((binary (.compare .eq) e item).TrueIn env → e.AlikeIn env item)) →
        (x.isTruthy = true ↔ (anyEqual e items).FalseIn env)) := by
  rcases inList_cases h with ⟨he, rfl⟩ | ⟨⟨v, hv, hnull⟩, found, rfl, hfound⟩
  · have hnone : ¬ (anyEqual e items).FalseIn env := by
      rw [falseIn_anyEqual]
      intro hall
      obtain ⟨item, hitem⟩ := List.exists_mem_of_ne_nil items (hsubject.resolve_right fun h => h he)
      exact not_null_of_compare (falseIn_compare.mp (hall item hitem)) he
    exact ⟨fun h => absurd h hnone, fun _ => iff_of_false Bool.false_ne_true hnone⟩
  · have hback : (anyEqual e items).FalseIn env →
        (Value.boolean (found != true)).isTruthy = true := by
      intro hfalse
      have hnot : found = false := by
        rw [← Bool.not_eq_true, hfound]
        rintro ⟨item, hitem, htrue, -⟩
        exact htrue.not_falseIn (falseIn_anyEqual.mp hfalse item hitem)
      rw [hnot]
      rfl
    refine ⟨hback, fun hitems => ⟨fun htrue => ?_, hback⟩⟩
    have hnot : found = false := by simpa [Value.isTruthy] using htrue
    have hzfalse : z.isTruthy = false := by
      rw [← Bool.not_eq_true, trueIn_anyEqual hz]
      rintro ⟨item, hitem, hequal⟩
      rw [hfound.mpr ⟨item, hitem, hequal, (hitems item hitem).2 hequal⟩] at hnot
      cases hnot
    have he : e.evalIn env ≠ .ok .null := by
      rw [hv, ne_eq, Except.ok.injEq, ← Value.isNull_iff, hnull]
      exact Bool.false_ne_true
    exact falseIn_anyEqual_of_not_null hz hzfalse he fun item hitem => (hitems item hitem).1

/-- **Lists as disjunctions of equalities.** On every row, a list is true only if its long form is,
and a negated list with items is true if the negation of its long form is. The converses need that
the items that are equal to the subject are of its kind, since a list does not find an integer that
is equal to a float or to a truth value; for a negated list also that no item is null, since a list
takes null for a value that differs from every other.

**Proof sketch.** One lemma for each polarity. A subject that is null makes the list null, and its
long form is not true then. A list finds the items that are equal to the subject and of its kind
(`inList_cases`), the long form those that are equal to it (`trueIn_anyEqual`). Without a null, what
is not true is false (`falseIn_anyEqual_of_not_null`). -/
theorem inList_anyEqual (params : List Value) (row : Row) (e : Expr) (items : List Expr) :
    (∀ x y, (inList e items false).eval params row = .ok x →
      (anyEqual e items).eval params row = .ok y →
      (x.isTruthy = true → y.isTruthy = true) ∧
      ((∀ item ∈ items, (binary (.compare .eq) e item).TrueIn (row.evalEnv params) →
          e.AlikeIn (row.evalEnv params) item) →
        (x.isTruthy = true ↔ y.isTruthy = true))) ∧
    (∀ x y, (inList e items true).eval params row = .ok x →
      (not (anyEqual e items)).eval params row = .ok y →
      (items ≠ [] ∨ e.eval params row ≠ .ok .null) →
      (y.isTruthy = true → x.isTruthy = true) ∧
      ((∀ item ∈ items, item.eval params row ≠ .ok .null ∧
          ((binary (.compare .eq) e item).TrueIn (row.evalEnv params) →
            e.AlikeIn (row.evalEnv params) item)) →
        (x.isTruthy = true ↔ y.isTruthy = true))) := by
  constructor
  · intro x y hx hy
    rw [trueIn_anyEqual hy]
    exact trueIn_inList hx
  · intro x y hx hy hsubject
    obtain ⟨z, hz⟩ : ∃ z, (anyEqual e items).evalIn (row.evalEnv params) = .ok z := by
      simp only [eval, evalIn, Outcome.bind_eq_ok] at hy
      exact hy.imp fun z hz => hz.1
    rw [← trueIn_iff hy, trueIn_not]
    exact trueIn_inList_negated hx hz hsubject

/-- Thirty is neither ten nor twenty, and this is true in the short form and in the long one.

**Proof sketch.** Subject and items are integers, so they are of one kind, and no item is null. The
short form is evaluated, and `inList_anyEqual` carries its truth over to the long form. -/
theorem inList_anyEqual_age :
    let row : Row := OrderedMap.empty.set "age" (.integer 30)
    let age : Expr := .column ⟨none, "age"⟩
    let items : List Expr := [.literal (.integer 10), .literal (.integer 20)]
    (∀ item ∈ items, age.AlikeIn (row.evalEnv []) item) ∧
      (inList age items true).eval [] row = .ok (.boolean true) ∧
      ∃ y, (not (anyEqual age items)).eval [] row = .ok y ∧ y.isTruthy = true := by
  intro row age items
  have halike : ∀ item ∈ items, age.AlikeIn (row.evalEnv []) item := by
    simp only [items, List.forall_mem_cons, List.not_mem_nil, false_implies, implies_true, and_true]
    constructor
    all_goals
      intro v w hv hw
      obtain rfl := Except.ok.inj hv
      obtain rfl := Except.ok.inj hw
      rfl
  have hvalues : ∀ item ∈ items, item.eval [] row ≠ .ok .null := by
    simp [items, eval, evalIn, Literal.value]
  have hx : (inList age items true).eval [] row = .ok (.boolean true) := by rfl
  obtain ⟨y, hy⟩ : ∃ y, (not (anyEqual age items)).eval [] row = .ok y := ⟨_, rfl⟩
  obtain ⟨-, hsame⟩ := (inList_anyEqual [] row age items).2 _ _ hx hy (.inl (List.cons_ne_nil _ _))
  exact ⟨halike, hx, y, hy,
    (hsame fun item hitem => ⟨hvalues item hitem, fun _ => halike item hitem⟩).mp rfl⟩

/-- A truth value is equal to the integer one and not found by it. -/
example :
    let row : Row := OrderedMap.empty.set "flag" (.boolean true)
    let flag : Expr := .column ⟨none, "flag"⟩
    (inList flag [.literal (.integer 1)] false).eval [] row = .ok (.boolean false) ∧
      (anyEqual flag [.literal (.integer 1)]).eval [] row = .ok (.boolean true) :=
  ⟨rfl, rfl⟩

end Lists

end Expr

end RecordQuery
