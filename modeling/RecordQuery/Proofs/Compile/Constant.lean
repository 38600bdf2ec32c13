import RecordQuery.Proofs.Compile.Unknowns
import RecordQuery.Proofs.Compile.Where
import RecordQuery.Proofs.Expr.Substitution
import RecordQuery.Proofs.Predicate.Binding

set_option autoImplicit false

/-!
# Operands with constants for parameters

Where a constant stands for a parameter, the compiler sees the operand that binding makes of the
parameter, but for floats: the compiler makes no operand of them, and binding leaves the parameter
where it is. Keys are another matter, since binding cuts floats off to the integers that they begin
with.

## Main definitions

* `Operand.assign`, `Side.assign` — operands and sides with constants for their parameters.
* `StandFor`, `KeyFits` — constants that stand for values.

## Main results

* `side_substitute` — what the compiler sees of an expression with constants.
* `bind_compare`, `bind_equalities` — comparisons of bins are bound to those with constants.
* `bind_keyOperand`, `bind_keyOperands` — keys are bound to what constants name.
-/

namespace RecordQuery

open Outcome

namespace Expr

variable {ls : List Literal}

/-- A constant or a parameter is one conjunct. -/
lemma conjuncts_ofParam (index : Nat) : (ofParam ls index).conjuncts = [ofParam ls index] := by
  cases index with
  | zero => rfl
  | succ i =>
    rw [ofParam]
    split <;> rfl

/-- **The conjuncts stay the same**, with constants for their parameters. -/
lemma conjuncts_substitute (e : Expr) :
    (e.substitute ls).conjuncts = e.conjuncts.map (substitute ls) := by
  induction e using conjuncts_induction with
  | and l r ihl ihr => rw [substitute, conjuncts, conjuncts, ihl, ihr, List.map_append]
  | paren e ih => rw [substitute, conjuncts, conjuncts, ih]
  | single e hand hparen he =>
    rw [he, List.map_singleton]
    cases e with
    | param index => exact conjuncts_ofParam index
    | paren e => exact absurd rfl (hparen e)
    | binary op l r =>
      cases op with
      | and => exact absurd rfl (hand l r)
      | or | compare _ | arith _ => rfl
    | _ => rfl

end Expr

/-! ## Operands -/

/-- The operand that a constant is for the store; none for floats. -/
def Literal.operand? : Literal → Option Operand
  | integer i => some (.integer i)
  | text s => some (.text s)
  | boolean b => some (.integer (boolInt b))
  | null => some .null
  | float _ => none

/-- An operand with a constant for its parameter; none for floats. -/
def Operand.assign (ls : List Literal) : Operand → Option Operand
  | param (i + 1) =>
    match ls[i]? with
    | some l => l.operand?
    | none => some (param (i + 1))
  | o => some o

/-- A side of a comparison with a constant for its parameter. -/
def Side.assign (ls : List Literal) : Side → Side
  | value o => ((o.assign ls).map value).getD float
  | s => s

/-- Constants stand for parameters with given values: each is the value itself, or the value cut off
as keys are. -/
def StandFor (ls values : List Literal) : Prop :=
  ∀ i : Nat, ls[i]? = values[i]? ∨ ls[i]? = (values[i]?).map Literal.truncated

/-- A constant stands for a parameter that is compared with the key: there is one, and floats are
cut off. -/
def KeyFits (ls values : List Literal) (index : Nat) : Prop :=
  ∀ i : Nat, index = i + 1 → ls[i]? = (values[i]?).map Literal.truncated

/-- A parameter has a value. -/
def HasValue (values : List Literal) (index : Nat) : Prop :=
  ∃ i l, index = i + 1 ∧ values[i]? = some l

variable {ls values : List Literal} {scope : Scope} {target : Nat}

/-- A constant on one side of a comparison. -/
lemma Side.ofLiteral_eq (l : Literal) : Side.ofLiteral l = (l.operand?.map value).getD float := by
  cases l <;> rfl

/-- The value of a parameter. -/
lemma param?_of_getElem? {i : Nat} {l : Literal} (h : values[i]? = some l) :
    param? (values.map Literal.value) (i + 1) = .ok l.value := by
  simp only [param?, List.getElem?_map, h, Option.map_some]

/-- **What the compiler sees with constants** on one side of a comparison.

**Proof sketch.** By the forms that the compiler distinguishes. A parameter becomes the side of its
constant (`Side.ofLiteral_eq`), or stays if it has none. Below a minus, in a sub-query and among the
arguments of a call no parameter is shown, so these stay as they are; in all other forms there is
nothing to put a constant for. -/
lemma side_substitute {e : Expr} (h : ∀ s ∈ e.parts, s.hidesParam = false) :
    side scope target (e.substitute ls) = (side scope target e).map (Side.assign ls) := by
  have hshown := fun s hs => h s (Expr.parts_unwrap e hs)
  have hself := hshown _ (Expr.self_mem_parts _)
  rw [side, side, Expr.unwrap_substitute]
  cases hu : e.unwrap with
  | column c =>
    simp only [Expr.substitute]
    cases hresolve : scope.resolve c with
    | error err => rfl
    | ok table =>
      simp only [ok_bind]
      split
      · rfl
      split
      · rfl
      split <;> rfl
  | literal l =>
    cases l <;> rfl
  | param index =>
    rw [hu] at hself
    obtain ⟨i, rfl⟩ : ∃ i, index = i + 1 := ⟨index - 1, by
      have hne : index ≠ 0 := by simpa [Expr.hidesParam] using hself
      omega⟩
    simp only [Expr.substitute, Expr.ofParam, Except.map, Side.assign, Operand.assign]
    cases ls[i]? with
    | none => rfl
    | some l => exact congrArg Except.ok (Side.ofLiteral_eq l)
  | negative a =>
    rw [hu] at hself
    have hnot : a.unwrap.isParam = false := hself
    have hsame : Side.ofNegative (a.unwrap.substitute ls) = Side.ofNegative a.unwrap := by
      cases ha : a.unwrap with
      | param index => rw [ha] at hnot; cases hnot
      | _ => rfl
    simp only [Expr.substitute, Expr.unwrap_substitute, hsame]
    unfold Side.ofNegative
    split
    · split <;> rfl
    · rfl
    · rfl
  | scalarQuery q =>
    rw [hu] at hself
    cases hself
  | call name args distinct =>
    rw [hu] at hself
    have hargs : maxParamExprs args = 0 := by simpa [Expr.hidesParam] using hself
    simp only [Expr.substitute, Expr.substituteList_of_maxParam args hargs]
    split
    · cases (Expr.call name args distinct).eval [] OrderedMap.empty with
      | error err => rfl
      | ok v => cases v <;> rfl
    · rfl
  | _ => rfl

/-! ## Where parameters come from -/

/-- **How a side that is the key or a parameter is written.**

**Proof sketch.** By the forms that the compiler distinguishes: only a column can be the key, only a
parameter can be a parameter, and every other form becomes a side of another kind. -/
lemma unwrap_of_side {e : Expr} {s : Side} (h : side scope target e = .ok s) :
    (s = .key → ∃ c : ColumnRef, e.unwrap = .column c ∧ c.name = keyColumn) ∧
      ∀ index, s = .value (.param index) → e.unwrap = .param index := by
  unfold side at h
  cases hu : e.unwrap with
  | column c =>
    rw [hu] at h
    obtain ⟨table, -, h⟩ := bind_eq_ok.mp h
    split at h
    · cases h
      simp
    split at h
    · cases h
      exact ⟨fun _ => ⟨c, rfl, ‹_›⟩, by simp⟩
    split at h <;> cases h <;> simp
  | literal l =>
    rw [hu] at h
    cases l <;> cases h <;> simp [Side.ofLiteral]
  | param index =>
    rw [hu] at h
    cases h
    exact ⟨by simp, fun index' hindex => by cases hindex; rfl⟩
  | negative a =>
    rw [hu] at h
    simp only [Side.ofNegative] at h
    split at h
    · split at h <;> cases h
      simp
    · cases h
      simp
    · cases h
      simp
  | call name args distinct =>
    rw [hu] at h
    simp only at h
    split at h
    · obtain ⟨v, -, h⟩ := bind_eq_ok.mp h
      cases v <;> cases h <;> simp [Side.ofValue]
    · cases h
      simp
  | _ =>
    rw [hu] at h
    cases h
    simp

/-- A parameter on a side is a part of what stands there. -/
lemma param_mem_parts_of_side {e : Expr} {index : Nat}
    (h : side scope target e = .ok (.value (.param index))) : .param index ∈ e.parts := by
  have hunwrap := (unwrap_of_side h).2 index rfl
  exact Expr.parts_unwrap e (hunwrap ▸ e.unwrap.self_mem_parts)

/-! ## Bound operands -/

/-- **Binding an operand puts the constant there** that stands for its parameter, unless that is a
float.

**Proof sketch.** Only a parameter is changed. Its value is put there unless it is a float, and a
value that is no float is its own truncation, so the constants at hand name the same one. A float
stays a parameter, and among the constants it cannot be compared with. -/
lemma Operand.bind_eq_ok {o o' : Operand} {kind kind' : BinKind} (hls : StandFor ls values)
    (hvalue : ∀ index, o = .param index → HasValue values index)
    (h : o.bind (values.map Literal.value) kind = .ok (o', kind')) :
    ((∀ index, o' ≠ .param index) ∧ o.assign ls = some o' ∧
        (kind = o.kind → kind' = o'.kind) ∧ (kind = .integer → kind' = .integer)) ∨
      (∃ index, o' = .param index) ∧ (ls = values → o.assign ls = none) := by
  cases o with
  | param index =>
    obtain ⟨i, l, rfl, hl⟩ := hvalue index rfl
    rw [bind, param?_of_getElem? hl, ok_bind] at h
    split at h
    · cases h
    have hsame : l.truncated = l → ls[i]? = some l := by
      intro htruncated
      rcases hls i with hi | hi
      · rw [hi, hl]
      · rw [hi, hl, Option.map_some, htruncated]
    cases l with
    | float x =>
      obtain ⟨rfl, rfl⟩ := Prod.mk.inj (Except.ok.inj h)
      refine .inr ⟨⟨_, rfl⟩, fun heq => ?_⟩
      rw [assign, heq, hl]
      rfl
    | null | boolean b | integer j | text s =>
      obtain ⟨rfl, rfl⟩ := Prod.mk.inj (Except.ok.inj h)
      refine .inl ⟨fun index => by simp, ?_, ?_, ?_⟩
      · rw [assign, hsame rfl]
        rfl
      · rintro rfl
        rfl
      · rintro rfl
        rfl
  | integer _ | text _ | null | outer _ | slot _ =>
    obtain ⟨rfl, rfl⟩ := Prod.mk.inj (Except.ok.inj h)
    exact .inl ⟨fun index => by simp, rfl, id, id⟩

/-- **A comparison of a bin** becomes the one with the constant. A bin read as the kind of the
operand is read as that of the constant, and one read as an integer stays so. -/
lemma bind_compare {bin : String} {kind : BinKind} {c : Comparison} {o : Operand} {d : Condition}
    (hls : StandFor ls values) (hvalue : ∀ index, o = .param index → HasValue values index)
    (h : (Condition.compare bin kind c o).bind (values.map Literal.value) = .ok d) :
    (d.params = [] → ∃ o' kind', o.assign ls = some o' ∧ d = .compare bin kind' c o' ∧
      (kind = o.kind → kind' = o'.kind) ∧ (kind = .integer → kind' = .integer)) ∧
        (d.params ≠ [] → ls = values → o.assign ls = none) := by
  simp only [Condition.bind, Condition.mapOperands, Outcome.bind_eq_ok, pure_eq_ok] at h
  obtain ⟨⟨o', kind'⟩, hbound, rfl⟩ := h
  rcases Operand.bind_eq_ok hls hvalue hbound with ⟨hknown, hassign, hkind⟩ | ⟨⟨index, rfl⟩, hnone⟩
  · have hparams : (Condition.compare bin kind' c o').params = [] := by
      cases o' <;> first | rfl | exact absurd rfl (hknown _)
    exact ⟨fun _ => ⟨o', kind', hassign, rfl, hkind⟩, fun hne => absurd hparams hne⟩
  · exact ⟨fun hempty => absurd hempty (List.cons_ne_nil _ _), fun _ => hnone⟩

/-! ## Bounds and lists -/

/-- **The bounds of a range with constants.** They name keys.

**Proof sketch.** The side of the bound with constants is known from `side_substitute`. An integer
stays one; a parameter becomes an integer, or stays, or else the bound with constants is refused.
All other sides bound nothing. -/
lemma rangeBound_substitute {e : Expr} {b b' : Option Operand}
    (hshown : ∀ s ∈ e.parts, s.hidesParam = false) (h : rangeBound scope target e = .ok b)
    (h' : rangeBound scope target (e.substitute ls) = .ok b') :
    (b = none ∧ b' = none) ∨
      ∃ o o' k k', b = some o ∧ b' = some o' ∧ o.assign ls = some o' ∧ o.keyOperand? = some k ∧
        o'.keyOperand? = some k' ∧ ∀ index, o = .param index → .param index ∈ e.parts := by
  simp only [rangeBound, bind_eq_ok] at h h'
  obtain ⟨s, hs, h⟩ := h
  obtain ⟨s', hs', h'⟩ := h'
  rw [side_substitute hshown, hs] at hs'
  obtain rfl : s.assign ls = s' := Except.ok.inj hs'
  cases s with
  | value o =>
    cases o with
    | integer i =>
      obtain rfl := Except.ok.inj h
      obtain rfl := Except.ok.inj h'
      exact .inr ⟨_, _, _, _, rfl, rfl, rfl, rfl, rfl, fun _ hindex => by cases hindex⟩
    | param index =>
      obtain rfl := Except.ok.inj h
      simp only [Side.assign] at h'
      cases hassign : (Operand.param index).assign ls with
      | none =>
        rw [hassign] at h'
        cases h'
      | some o' =>
        rw [hassign] at h'
        cases o' with
        | integer _ | param _ =>
          obtain rfl := Except.ok.inj h'
          refine .inr ⟨_, _, _, _, rfl, rfl, hassign, rfl, rfl, fun _ hindex => ?_⟩
          exact param_mem_parts_of_side (by rw [hs, hindex])
        | text _ | null | outer _ | slot _ => cases h'
    | text _ | null | outer _ | slot _ => cases h
  | float => cases h
  | bin _ | key | outer _ | query _ | other =>
    obtain rfl := Except.ok.inj h
    obtain rfl := Except.ok.inj h'
    exact .inl ⟨rfl, rfl⟩

/-- The operands of a list with constants.

**Proof sketch.** Induction on the items. An item that is a value with parameters is one with
constants, if its constant can be compared at all (`side_substitute`); an item that is no value is
none with constants either, and then neither list has operands. -/
lemma listOperands_substitute {es : List Expr} {os os' : Option (List Operand)}
    (hshown : ∀ s ∈ Expr.partsList es, s.hidesParam = false)
    (h : listOperands scope target es = .ok os)
    (h' : listOperands scope target (Expr.substituteList ls es) = .ok os') :
    os' = os.bind (List.mapM (Operand.assign ls)) := by
  induction es generalizing os os' with
  | nil =>
    obtain rfl := Except.ok.inj h
    obtain rfl := Except.ok.inj h'
    rfl
  | cons e es ih =>
    simp only [Expr.substituteList, listOperands, bind_eq_ok] at h h'
    obtain ⟨s, hs, h⟩ := h
    obtain ⟨s', hs', h'⟩ := h'
    rw [side_substitute fun s hs => hshown s (by simp [Expr.partsList, hs]), hs] at hs'
    obtain rfl : s.assign ls = s' := Except.ok.inj hs'
    cases s with
    | value o =>
      simp only [bind_eq_ok, pure_eq_ok] at h
      obtain ⟨rest, hrest, rfl⟩ := h
      cases hassign : o.assign ls with
      | none =>
        simp only [Side.assign, hassign] at h'
        obtain rfl := Except.ok.inj h'
        cases rest <;> simp [hassign]
      | some o' =>
        simp only [Side.assign, hassign, Option.map_some, Option.getD_some, bind_eq_ok,
          pure_eq_ok] at h'
        obtain ⟨rest', hrest', rfl⟩ := h'
        have hrest := ih (fun s hs => hshown s (by simp [Expr.partsList, hs])) hrest hrest'
        cases rest with
        | none =>
          rw [hrest]
          rfl
        | some os =>
          rw [hrest]
          simp only [Option.map_some, Option.bind_some, List.mapM_cons, hassign]
          cases os.mapM (Operand.assign ls) <;> rfl
    | float | bin _ | key | outer _ | query _ | other =>
      obtain rfl := Except.ok.inj h
      obtain rfl := Except.ok.inj h'
      rfl

/-- **The comparisons with the items of a list** become those with constants.

**Proof sketch.** Induction on the operands, each of which is bound on its own (`bind_compare`). The
list has no parameters left exactly if no operand has, and a single float is enough to leave the
list undecided. -/
lemma bind_equalities {bin : String} {os : List Operand} {ds : List Condition}
    (hls : StandFor ls values) (hvalue : ∀ index, .param index ∈ os → HasValue values index)
    (h : Condition.mapOperandsList (Operand.bind (values.map Literal.value))
      (os.map (Condition.ofOperand bin .eq)) = .ok ds) :
    (Condition.paramsIn ds = [] → ∃ os', os.mapM (Operand.assign ls) = some os' ∧
      ds = os'.map (Condition.ofOperand bin .eq)) ∧
        (Condition.paramsIn ds ≠ [] → ls = values → os.mapM (Operand.assign ls) = none) := by
  induction os generalizing ds with
  | nil =>
    obtain rfl := Except.ok.inj h
    exact ⟨fun _ => ⟨[], rfl, rfl⟩, fun hne => absurd rfl hne⟩
  | cons o os ih =>
    simp only [List.map_cons, Condition.mapOperandsList, bind_eq_ok, pure_eq_ok] at h
    obtain ⟨d, hd, rest, hrest, rfl⟩ := h
    obtain ⟨hknown, hfloat⟩ := bind_compare hls
      (fun index hindex => hvalue index (by simp [hindex])) hd
    obtain ⟨hknowns, hfloats⟩ := ih (fun index hindex => hvalue index (by simp [hindex])) hrest
    simp only [Condition.paramsIn, List.append_eq_nil_iff, ne_eq, not_and_or, List.mapM_cons]
    constructor
    · rintro ⟨hempty, hempties⟩
      obtain ⟨o', kind', hassign, rfl, hkind, -⟩ := hknown hempty
      obtain ⟨os', hassigns, rfl⟩ := hknowns hempties
      refine ⟨o' :: os', by rw [hassign, hassigns]; rfl, ?_⟩
      rw [hkind rfl]
      rfl
    · rintro (hne | hne) heq
      · rw [hfloat hne heq]
        rfl
      · rw [hfloats hne heq]
        cases o.assign ls <;> rfl

/-! ## Keys -/

/-- **A key becomes what its constant names**, where floats are cut off.

**Proof sketch.** Only a parameter needs an argument: it is bound to the key that its value names,
and its constant is the truncated value, if it is among those that keys are compared with. Null
names no key. -/
lemma bind_keyOperand (ls : List Literal) {o : Operand} {k : KeyOperand}
    (hvalue : ∀ index, o = .param index → HasValue values index) (hk : o.keyOperand? = some k) :
    ∃ bound, k.bind (values.map Literal.value) = .ok bound ∧
      ((∀ index, o = .param index → KeyFits ls values index) → ∃ o', o.assign ls = some o' ∧
        (bound = none ∧ o' = .null ∨ ∃ k', bound = some k' ∧ o'.keyOperand? = some k')) := by
  cases o with
  | param index =>
    obtain ⟨i, l, rfl, hl⟩ := hvalue index rfl
    obtain rfl := Option.some.inj hk
    have hassign : (∀ index, Operand.param (i + 1) = .param index → KeyFits ls values index) →
        (Operand.param (i + 1)).assign ls = l.truncated.operand? := by
      intro hfits
      have hi : ls[i]? = some l.truncated := by
        rw [hfits (i + 1) rfl i rfl, hl]
        rfl
      rw [Operand.assign, hi]
    cases l with
    | null =>
      refine ⟨none, ?_, fun hfits => ⟨.null, hassign hfits, .inl ⟨rfl, rfl⟩⟩⟩
      rw [KeyOperand.bind, param?_of_getElem? hl]
      rfl
    | boolean _ | integer _ | float _ | text _ =>
      refine ⟨some (.key _), ?_, fun hfits => ⟨_, hassign hfits, .inr ⟨_, rfl, rfl⟩⟩⟩
      rw [KeyOperand.bind, param?_of_getElem? hl]
      rfl
  | integer _ | text _ =>
    obtain rfl := Option.some.inj hk
    exact ⟨_, rfl, fun _ => ⟨_, rfl, .inr ⟨_, rfl, rfl⟩⟩⟩
  | null | outer _ | slot _ => cases hk

/-- An operand that names a key, before others. -/
lemma keyOperands?_cons_of {o : Operand} {os : List Operand} {k : KeyOperand} {ks : List KeyOperand}
    (ho : o.keyOperand? = some k) (hos : keyOperands? os = some ks) :
    keyOperands? (o :: os) = some (k :: ks) := by
  cases o with
  | null | outer _ | slot _ => cases ho
  | integer _ | text _ | param _ =>
    simp only [keyOperands?, ho, hos]
    rfl

/-- **Keys become what their constants name**, nulls left out.

**Proof sketch.** Induction on the operands (`keyOperands?_cons`). Each is a null, which is left out
on both sides, or names a key, for which `bind_keyOperand` says what it is bound to. -/
lemma bind_keyOperands {os : List Operand} {ks : List KeyOperand}
    (hvalue : ∀ index, .param index ∈ os → HasValue values index)
    (hks : keyOperands? os = some ks) :
    ∃ bound, KeyCondition.bindKeys (values.map Literal.value) ks = .ok bound ∧
      ((∀ index, .param index ∈ os → KeyFits ls values index) → ∃ os',
        os.mapM (Operand.assign ls) = some os' ∧ keyOperands? os' = some bound) := by
  induction os generalizing ks with
  | nil =>
    obtain rfl := Option.some.inj hks
    exact ⟨[], rfl, fun _ => ⟨[], rfl, rfl⟩⟩
  | cons o os ih =>
    have htail := fun index hindex => hvalue index (List.mem_cons_of_mem o hindex)
    rcases keyOperands?_cons hks with ⟨rfl, hrest⟩ | ⟨k, ks', hk, hrest, rfl⟩
    · obtain ⟨bound, hbound, hassigns⟩ := ih htail hrest
      refine ⟨bound, hbound, fun hfits => ?_⟩
      obtain ⟨os', hos, hbounds⟩ := hassigns fun index hindex =>
        hfits index (List.mem_cons_of_mem _ hindex)
      refine ⟨.null :: os', ?_, hbounds⟩
      rw [List.mapM_cons, hos]
      rfl
    · obtain ⟨one, hone, hassign⟩ := bind_keyOperand ls
        (fun index hindex => hvalue index (hindex ▸ List.mem_cons_self)) hk
      obtain ⟨bound, hbound, hassigns⟩ := ih htail hrest
      refine ⟨one.toList ++ bound, ?_, fun hfits => ?_⟩
      · simp only [KeyCondition.bindKeys, hone, hbound, ok_bind, pure, Except.pure]
      obtain ⟨o', ho, hnamed⟩ := hassign fun index hindex =>
        hfits index (hindex ▸ List.mem_cons_self)
      obtain ⟨os', hos, hbounds⟩ := hassigns fun index hindex =>
        hfits index (List.mem_cons_of_mem _ hindex)
      refine ⟨o' :: os', by rw [List.mapM_cons, ho, hos]; rfl, ?_⟩
      rcases hnamed with ⟨rfl, rfl⟩ | ⟨k', rfl, hk'⟩
      · exact hbounds
      · exact keyOperands?_cons_of hk' hbounds

/-- Operands name keys only if the last ones do. -/
lemma keyOperands?_cons_eq_none (o : Operand) {os : List Operand} (h : keyOperands? os = none) :
    keyOperands? (o :: os) = none := by
  cases o with
  | null => exact h
  | integer _ | text _ | param _ | outer _ | slot _ =>
    simp only [keyOperands?, Operand.keyOperand?, h]
    rfl

/-- Operands that do not all name keys do not do so with constants.

**Proof sketch.** Induction on the operands. Only values of other tables and slots name no key, and
constants leave these alone. -/
lemma keyOperands?_assign_eq_none {os os' : List Operand} (h : keyOperands? os = none)
    (hos : os.mapM (Operand.assign ls) = some os') : keyOperands? os' = none := by
  induction os generalizing os' with
  | nil => cases h
  | cons o os ih =>
    simp only [List.mapM_cons, bind, Option.bind_eq_some_iff, pure, Option.some.injEq] at hos
    obtain ⟨o', ho, rest, hrest, rfl⟩ := hos
    cases hlast : keyOperands? os with
    | none => exact keyOperands?_cons_eq_none o' (ih hlast hrest)
    | some ks =>
      cases o with
      | null =>
        rw [keyOperands?, hlast] at h
        cases h
      | integer _ | text _ | param _ =>
        rw [keyOperands?_cons_of rfl hlast] at h
        cases h
      | outer _ | slot _ =>
        obtain rfl := Option.some.inj ho
        simp only [keyOperands?, Operand.keyOperand?]
        rfl

end RecordQuery
