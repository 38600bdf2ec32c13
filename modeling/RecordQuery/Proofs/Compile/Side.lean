import RecordQuery.Proofs.Compile.Native
import RecordQuery.Proofs.Expr.Eval
import RecordQuery.Proofs.Expr.Parameters
import RecordQuery.Proofs.Predicate.KeyCondition

set_option autoImplicit false

/-!
# Sides of comparisons

What stands on a side of a comparison is seen by the compiler as a bin, a key, a value or a value
of another table. The evaluator computes its value instead. Here both views of a side are brought
together, and with them the two ways to compare: the typed comparison of the store and the
comparison of values.

## Main definitions

* `EvalEnv.ReadsAt` — a reference has the value that the compiler takes it to have.
* `Operand.Denotes`, `Side.Denotes` — what an operand and a side stand for.
* `Expr.comparison` — the outcome of comparing two values.

## Main results

* `side_denotes` — the value of a side is what the compiler takes it for.
* `comparison_accepts`, `comparison_accepts_mirrored` — the store compares with a bin as the
  evaluator does.
* `comparison_satisfies`, `comparison_satisfies_mirrored` — so does it with the key.
-/

namespace RecordQuery

/-! ## Values of sides -/

/-- Whether a value is a floating-point number. -/
def Value.isFloat : Value → Bool
  | .float _ => true
  | _ => false

/-- Whether the store compares with an operand, once its value is in place, as the evaluator does:
it satisfies no comparison with a float. -/
def Resolution.canCompare (ρ : Resolution) : Operand → Bool
  | .param index => !(ρ.param index).isFloat
  | .outer source => !(ρ.outer source).isFloat
  | _ => true

/-- A value for which an operand stands. A truth value becomes an integer when it is compiled, and
a sub-query has no value for the evaluator. -/
def Operand.Denotes (ρ : Resolution) (v : Value) : Operand → Prop
  | .integer i => v = .integer i ∨ ∃ b, v = .boolean b ∧ i = boolInt b
  | .text s => v = .text s
  | .null => v = .null
  | .param index => v = ρ.param index
  | .outer source => v = ρ.outer source
  | .slot _ => False

/-- A value for which a side stands, seen from a record. -/
def Side.Denotes (ρ : Resolution) (r : Record) (v : Value) : Side → Prop
  | .bin name => v = (r.bin? name).getD .null
  | .key => v = r.key.user.toValue
  | .outer source => v = ρ.outer source
  | .value o => o.Denotes ρ v
  | .query _ => False
  | .float | .other => True

/-- A reference has the value that the compiler takes it to have: a column of the target is read
from the record, a column of another table is found in its place, and a parameter is known. -/
def EvalEnv.ReadsAt (env : EvalEnv) (scope : Scope) (target : Nat) (ρ : Resolution) (r : Record) :
    Expr → Prop
  | .column c => ∀ table, scope.resolve c = .ok table →
      if table = target then
        (c.name = keyColumn → env.column c = r.key.user.toValue) ∧
        (c.name ≠ keyColumn → c.name ≠ digestColumn →
          env.column c = (r.bin? c.name).getD .null)
      else env.column c = ρ.outer (scope.rowKey table c.name)
  | .param index => ∀ v, param? env.params index = .ok v → v = ρ.param index
  | _ => True

namespace Operand

variable {ρ : Resolution} {v : Value}

/-- The value of an operand with which the store can compare is no float. -/
lemma Denotes.isFloat_of_canCompare {o : Operand} (h : o.Denotes ρ v)
    (hρ : ρ.canCompare o = true) : v.isFloat = false := by
  cases o with
  | integer i =>
    rcases h with rfl | ⟨b, rfl, -⟩
    · rfl
    · rfl
  | text s => rw [h]; rfl
  | null => rw [h]; rfl
  | param index => rw [h]; simpa [Resolution.canCompare] using hρ
  | outer source => rw [h]; simpa [Resolution.canCompare] using hρ
  | slot index => exact False.elim h

/-- The operand of a value is the one that stands for it. -/
lemma Denotes.asOperand {o : Operand} (h : o.Denotes ρ v) : v.asOperand = ρ.operand o := by
  cases o with
  | integer i =>
    rcases h with rfl | ⟨b, rfl, rfl⟩
    · rfl
    · rfl
  | text s => rw [h]; rfl
  | null => rw [h]; rfl
  | param index => rw [h]; rfl
  | outer source => rw [h]; rfl
  | slot index => exact False.elim h

end Operand

/-- What a side stands for, the operand that it supplies stands for. -/
lemma Side.Supplies.denotes {ρ : Resolution} {r : Record} {v : Value} {s : Side} {o : Operand}
    (h : s.Supplies o) (hs : s.Denotes ρ r v) : o.Denotes ρ v := by
  cases h with
  | value o => exact hs
  | outer source => exact hs
  | query q slot => exact False.elim hs

/-! ## Constants -/

namespace Expr

variable {env env' : EvalEnv}

/-- Parentheses do not change a value. -/
lemma evalIn_unwrap : (e : Expr) → e.unwrap.evalIn env = e.evalIn env
  | paren e => by
    rw [unwrap, evalIn]
    exact evalIn_unwrap e
  | literal _ | column _ | param _ | scalarQuery _ | star | binary _ _ _ | negative _ | not _
  | isNull _ _ | inQuery _ _ _ | between _ _ _ _ | inList _ _ _ | call _ _ _ | array _
  | element _ _ => rfl

/-- **A constant has the same value everywhere.** It has no part whose value could differ. -/
lemma evalIn_constant {e : Expr} (h : e.isConstant = true) : e.evalIn env = e.evalIn env' := by
  simp only [isConstant, Bool.and_eq_true, List.isEmpty_iff, beq_iff_eq, Bool.not_eq_true'] at h
  obtain ⟨⟨⟨hcolumns, hparams⟩, -⟩, haggregates⟩ := h
  refine evalIn_congr e fun s hs => ?_
  cases s with
  | column c =>
    have hc := mem_columns.mpr hs
    simp [hcolumns] at hc
  | param index =>
    have hle := le_maxParam e hs
    obtain rfl : index = 0 := by omega
    rfl
  | call name args distinct =>
    have hcall := any_eq_false.mp haggregates _ hs
    intro hname
    simp [isAggregate, hname] at hcall
  | _ => trivial

end Expr

/-! ## The compiler's view of a side -/

section Sides

variable {scope : Scope} {target : Nat} {env : EvalEnv} {ρ : Resolution} {r : Record}

/-- A constant stands for its value. -/
lemma Side.denotes_ofLiteral (l : Literal) : (Side.ofLiteral l).Denotes ρ r l.value := by
  cases l with
  | null => rfl
  | boolean b => exact .inr ⟨b, rfl, rfl⟩
  | integer i => exact .inl rfl
  | float x => trivial
  | text s => rfl

/-- A computed constant stands for its value. -/
lemma Side.denotes_ofValue (v : Value) : (Side.ofValue v).Denotes ρ r v := by
  cases v with
  | null => rfl
  | boolean b => exact .inr ⟨b, rfl, rfl⟩
  | integer i => exact .inl rfl
  | float x => trivial
  | text s => rfl
  | blob bs => trivial
  | list vs => trivial

/-- The negative of a constant stands for its value. -/
lemma Side.denotes_ofNegative {a : Expr} {s : Side} {v : Value} (hs : Side.ofNegative a = .ok s)
    (hv : (Expr.negative a).evalIn env = .ok v) : s.Denotes ρ r v := by
  unfold Side.ofNegative at hs
  split at hs
  · rename_i i
    split at hs
    · cases hs
    · obtain rfl := Except.ok.inj hs
      simp only [Expr.evalIn, Literal.value, Outcome.ok_bind, negate, checkedInt] at hv
      split at hv
      · obtain rfl := Except.ok.inj hv
        left
        simp
      · cases hv
  · obtain rfl := Except.ok.inj hs
    trivial
  · obtain rfl := Except.ok.inj hs
    trivial

/-- **The value of a side is what the compiler takes it for.**

**Proof sketch.** By the forms that the compiler distinguishes. For a column the environment says
what it reads, in the table of the condition or in another one; for a parameter, what value it has.
A literal and a negative number are their own values, and a constant call has been evaluated by the
compiler with the same result (`Expr.evalIn_constant`). -/
theorem side_denotes {e : Expr} {s : Side} {v : Value}
    (hreads : ∀ p ∈ e.parts, env.ReadsAt scope target ρ r p) (hs : side scope target e = .ok s)
    (hv : e.evalIn env = .ok v) : s.Denotes ρ r v := by
  have hreads' : ∀ p ∈ e.unwrap.parts, env.ReadsAt scope target ρ r p :=
    fun p hp => hreads p (Expr.parts_unwrap e hp)
  rw [← Expr.evalIn_unwrap] at hv
  unfold side at hs
  generalize e.unwrap = u at hs hv hreads'
  split at hs
  case h_1 c =>
    have hc := hreads' _ (Expr.self_mem_parts _)
    simp only [Outcome.bind_eq_ok] at hs
    obtain ⟨table, htable, hs⟩ := hs
    have hread := hc table htable
    simp only [Expr.evalIn, Except.ok.injEq] at hv
    by_cases htarget : table = target
    · rw [if_pos htarget] at hread
      rw [if_neg (not_not_intro htarget)] at hs
      by_cases hkey : c.name = keyColumn
      · rw [if_pos hkey, Outcome.pure_eq_ok] at hs
        rw [← hs, ← hv]
        exact hread.1 hkey
      · rw [if_neg hkey] at hs
        by_cases hdigest : c.name = digestColumn
        · rw [if_pos hdigest, Outcome.pure_eq_ok] at hs
          rw [← hs]
          trivial
        · rw [if_neg hdigest, Outcome.pure_eq_ok] at hs
          rw [← hs, ← hv]
          exact hread.2 hkey hdigest
    · rw [if_neg htarget] at hread
      rw [if_pos htarget, Outcome.pure_eq_ok] at hs
      rw [← hs, ← hv]
      exact hread
  case h_2 l =>
    obtain rfl := Except.ok.inj hs
    simp only [Expr.evalIn, Except.ok.injEq] at hv
    rw [← hv]
    exact Side.denotes_ofLiteral l
  case h_3 index =>
    obtain rfl := Except.ok.inj hs
    exact hreads' _ (Expr.self_mem_parts _) v hv
  case h_4 a =>
    have hneg : (Expr.negative a.unwrap).evalIn env = .ok v := by
      rw [Expr.evalIn, Expr.evalIn_unwrap]
      simpa only [Expr.evalIn] using hv
    exact Side.denotes_ofNegative hs hneg
  case h_5 q => simp [Expr.evalIn] at hv
  case h_6 name args distinct =>
    simp only at hs
    split at hs
    · rename_i hconstant
      simp only [Bool.and_eq_true] at hconstant
      simp only [Outcome.bind_eq_ok, Outcome.pure_eq_ok] at hs
      obtain ⟨w, hw, rfl⟩ := hs
      have hsame : Except.ok v = Except.ok w :=
        hv.symm.trans ((Expr.evalIn_constant hconstant.2).trans hw)
      obtain rfl := Except.ok.inj hsame
      exact Side.denotes_ofValue v
    · obtain rfl := Except.ok.inj hs
      trivial
  case h_7 =>
    obtain rfl := Except.ok.inj hs
    trivial

end Sides

/-! ## Comparing values -/

/-- The outcome of comparing two values, null if one of them is. -/
def comparison (c : Comparison) (v w : Value) : Except QueryError Value :=
  if v.isNull || w.isNull then .ok .null else compareValues c v w

/-- The value of a comparison is the outcome of comparing the values of its sides. -/
lemma Expr.evalIn_compare {env : EvalEnv} {c : Comparison} {l r : Expr} {x : Value}
    (h : (Expr.binary (.compare c) l r).evalIn env = .ok x) :
    ∃ v w, l.evalIn env = .ok v ∧ r.evalIn env = .ok w ∧ comparison c v w = .ok x := by
  simp only [Expr.evalIn, Outcome.bind_eq_ok] at h
  obtain ⟨v, hv, w, hw, hx⟩ := h
  exact ⟨v, w, hv, hw, hx⟩

/-- Whether a value is an integer or a text. -/
def Value.isPlain : Value → Bool
  | .integer _ | .text _ => true
  | _ => false

/-- Whether all bins of a record hold integers or texts. -/
def Record.isPlain (r : Record) : Bool := r.bins.values.all Value.isPlain

/-- A bin of such a record is absent or holds an integer or a text. -/
lemma Record.isPlain_bin? {r : Record} (h : r.isPlain = true) (name : String) :
    (r.bin? name).all Value.isPlain = true := by
  cases hbin : r.bin? name with
  | none => rfl
  | some v =>
    rw [Record.bin?, OrderedMap.get?, Option.map_eq_some_iff] at hbin
    obtain ⟨e, he, rfl⟩ := hbin
    exact List.all_eq_true.mp h e.2 (List.mem_map_of_mem (List.mem_of_find?_eq_some he))

/-- Whether a bin read as a kind can be compared with an operand. -/
def BinKind.suits (kind : BinKind) (o : Operand) : Bool :=
  kind == .unknown || kind == o.kind || o == .null

/-- A suitable kind makes no difference to a comparison. -/
lemma BinKind.accepts_of_suits {kind : BinKind} {o : Operand} (h : kind.suits o = true)
    (c : Comparison) (stored : Option Value) :
    o.accepts kind c stored = o.accepts .unknown c stored := by
  simp only [BinKind.suits, Bool.or_eq_true, beq_iff_eq] at h
  rcases h with (rfl | rfl) | rfl
  · rfl
  · exact Operand.accepts_kind c stored o
  · rw [Operand.accepts_null, Operand.accepts_null]

section Comparing

variable {c : Comparison} {stored : Option Value} {v x : Value} {kind : BinKind}

/-- **The store compares a bin as the evaluator does**, as long as the bin holds an integer or a
text.

**Proof sketch.** By cases on what is stored and on the value. Values of one kind are compared in
one way on both sides, and a truth value as an integer. Null makes the evaluator return null and
the store reject. Values of different kinds make the evaluator fail. -/
lemma comparison_accepts (hstored : stored.all Value.isPlain = true) (hv : v.isFloat = false)
    (hkind : kind.suits v.asOperand = true)
    (h : comparison c (stored.getD .null) v = .ok x) :
    v.asOperand.accepts kind c stored = x.isTruthy := by
  rw [BinKind.accepts_of_suits hkind]
  cases stored with
  | none =>
    simp only [comparison, Option.getD_none, Value.isNull, Bool.true_or, if_true,
      Except.ok.injEq] at h
    rw [Operand.accepts_absent, ← h]
    rfl
  | some w =>
    cases w <;> simp [Value.isPlain] at hstored <;> cases v <;>
      simp_all [Value.isFloat, comparison, Value.isNull, compareValues, Value.order,
        Value.compare?, Value.asOperand, bind, Except.bind, pure, Except.pure] <;>
      subst h <;> rfl

/-- The evaluator compares a key or null with a value from either side. -/
lemma comparison_mirrored {w : Value} (hw : w = .null ∨ ∃ k : UserKey, w = k.toValue)
    (hv : v.isFloat = false) (h : comparison c v w = .ok x) :
    comparison c.mirrored w v = .ok x := by
  have hint : ∀ a b : Int, c.mirrored.admits (compare a b) = c.admits (compare b a) := by
    intro a b
    rw [Comparison.admits_mirrored, ← Std.OrientedCmp.eq_swap]
  have htext : ∀ s t : String, c.mirrored.admits (compare s t) = c.admits (compare t s) := by
    intro s t
    rw [Comparison.admits_mirrored, ← Std.OrientedCmp.eq_swap]
  have hbytes : ∀ as bs : List UInt8,
      c.mirrored.admits (compareBytes as bs) = c.admits (compareBytes bs as) := by
    intro as bs
    rw [Comparison.admits_mirrored, compareBytes_swap]
  rcases hw with rfl | ⟨k, rfl⟩
  · simpa [comparison, Value.isNull] using h
  · cases k <;> cases v <;>
      simp_all [Value.isFloat, UserKey.toValue, comparison, Value.isNull, compareValues,
        Value.order, Value.compare?, bind, Except.bind, pure, Except.pure]

/-- A plain value, or the null in the place of none, is a key or null. -/
lemma exists_key_of_isPlain (h : stored.all Value.isPlain = true) :
    stored.getD .null = .null ∨ ∃ k : UserKey, stored.getD .null = k.toValue := by
  cases stored with
  | none => exact .inl rfl
  | some w =>
    right
    cases w with
    | integer i => exact ⟨.integer i, rfl⟩
    | text s => exact ⟨.text s, rfl⟩
    | _ => simp [Value.isPlain] at h

/-- The store compares a bin on the right side as the evaluator does. -/
lemma comparison_accepts_mirrored (hstored : stored.all Value.isPlain = true)
    (hv : v.isFloat = false) (hkind : kind.suits v.asOperand = true)
    (h : comparison c v (stored.getD .null) = .ok x) :
    v.asOperand.accepts kind c.mirrored stored = x.isTruthy :=
  comparison_accepts hstored hv hkind (comparison_mirrored (exists_key_of_isPlain hstored) hv h)

/-- **The store compares the key as the evaluator does**, with everything but floats, which are
truncated when they become keys. -/
lemma comparison_satisfies {k : UserKey} (hv : v.isFloat = false)
    (h : comparison c k.toValue v = .ok x) :
    (UserKey.ofValue? v).toOption.any (k.satisfies c) = x.isTruthy := by
  cases k <;> cases v <;>
    simp_all [Value.isFloat, UserKey.toValue, comparison, Value.isNull, compareValues, Value.order,
      Value.compare?, UserKey.ofValue?, Except.toOption, UserKey.satisfies, bind, Except.bind, pure,
      Except.pure] <;>
    subst h <;> rfl

/-- The store compares the key on the right side as the evaluator does. -/
lemma comparison_satisfies_mirrored {k : UserKey} (hv : v.isFloat = false)
    (h : comparison c v k.toValue = .ok x) :
    (UserKey.ofValue? v).toOption.any (k.satisfies c.mirrored) = x.isTruthy :=
  comparison_satisfies hv (comparison_mirrored (.inr ⟨k, rfl⟩) hv h)

end Comparing

end RecordQuery
