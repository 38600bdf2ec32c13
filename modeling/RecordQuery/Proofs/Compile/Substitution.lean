import RecordQuery.Proofs.Compile.Comparison

set_option autoImplicit false

/-!
# Conjuncts with constants for parameters

A comparison with constants is what binding makes of the comparison with parameters
(`becomes_nativeComparison`). The same is shown here of ranges and lists, and from that of all
conjuncts that the compiler hands to the store.

## Main definitions

* `Expr.keyParams` — the parameters of a condition that are looked up as keys.

## Main results

* `becomes_compileConjunct` — a conjunct becomes the one with constants.
-/

namespace RecordQuery

open Outcome

variable {ls values : List Literal} {scope : Scope} {target : Nat}

/-! ## Ranges and lists -/

/-- A parameter with a constant other than a float has the constant that it is compared with as a
key. -/
lemma keyFits_of_assign {o o' : Operand} (hls : StandFor ls values)
    (hvalue : ∀ index, o = .param index → HasValue values index) (h : o.assign ls = some o')
    {index : Nat} (hindex : o = .param index) : KeyFits ls values index := by
  obtain ⟨i, l, rfl, hl⟩ := hvalue index hindex
  rintro i' hi
  obtain rfl := Nat.succ.inj hi
  subst hindex
  rcases hls i with hsame | hsame
  · rw [Operand.assign, hsame, hl] at h
    rw [hsame, hl]
    cases l with
    | float x => cases h
    | null | boolean _ | integer _ | text _ => rfl
  · exact hsame

/-- A bound of a range of keys becomes what its constant names. -/
lemma bind_rangeKey {o o' : Operand} {k k' : KeyOperand} (hls : StandFor ls values)
    (hvalue : ∀ index, o = .param index → HasValue values index) (ho : o.assign ls = some o')
    (hk : o.keyOperand? = some k) (hk' : o'.keyOperand? = some k') :
    k.bind (values.map Literal.value) = .ok (some k') := by
  obtain ⟨bound, hbound, hassign⟩ := bind_keyOperand ls hvalue hk
  obtain ⟨o'', ho'', hnamed⟩ := hassign fun _ hindex => keyFits_of_assign hls hvalue ho hindex
  obtain rfl : o' = o'' := Option.some.inj (ho.symm.trans ho'')
  rw [hbound]
  rcases hnamed with ⟨-, rfl⟩ | ⟨k'', rfl, hk''⟩
  · cases hk'
  · rw [Option.some.inj (hk'.symm.trans hk'')]

/-- **A range** becomes the one with constants.

**Proof sketch.** For a bin, both comparisons are bound one after the other, and each becomes the
one with its constant (`bind_compare`). For the key, both bounds name keys with parameters and with
constants, and binding gives the latter (`bind_rangeKey`). Other sides find nothing. -/
lemma becomes_nativeRange {fits : Prop} {topLevel : Bool} {s : Side} {low high low' high' : Operand}
    {k₁ k₂ k₁' k₂' : KeyOperand} (hls : StandFor ls values)
    (hvalue : ∀ index, low = .param index ∨ high = .param index → HasValue values index)
    (hlow : low.assign ls = some low') (hhigh : high.assign ls = some high')
    (hk₁ : low.keyOperand? = some k₁) (hk₂ : high.keyOperand? = some k₂)
    (hk₁' : low'.keyOperand? = some k₁') (hk₂' : high'.keyOperand? = some k₂') :
    Becomes ls values fits (nativeRange topLevel s low high)
      (nativeRange topLevel (s.assign ls) low' high') := by
  have hvalueLow := fun index hindex => hvalue index (.inl hindex)
  have hvalueHigh := fun index hindex => hvalue index (.inr hindex)
  cases s with
  | bin b =>
    intro d hd
    obtain ⟨d₁, d₂, hd₁, hd₂, rfl, hparams⟩ := Condition.bind_pair (.inl rfl) hd
    obtain ⟨hknown₁, hfloat₁⟩ := bind_compare hls hvalueLow hd₁
    obtain ⟨hknown₂, hfloat₂⟩ := bind_compare hls hvalueHigh hd₂
    rw [hparams]
    refine ⟨fun hempty => ?_, fun hne heq => ?_⟩
    · rw [List.append_eq_nil_iff] at hempty
      obtain ⟨o₁, kind₁, ho₁, rfl, -, hkind₁⟩ := hknown₁ hempty.1
      obtain ⟨o₂, kind₂, ho₂, rfl, -, hkind₂⟩ := hknown₂ hempty.2
      rw [hkind₁ rfl, hkind₂ rfl, Option.some.inj (ho₁.symm.trans hlow),
        Option.some.inj (ho₂.symm.trans hhigh)]
      rfl
    · rw [ne_eq, List.append_eq_nil_iff, not_and_or] at hne
      rcases hne with hne | hne
      · cases (hfloat₁ hne heq).symm.trans hlow
      · cases (hfloat₂ hne heq).symm.trans hhigh
  | key =>
    cases topLevel with
    | false => rfl
    | true =>
      have hrange : nativeRange true .key low high = some (.key (.range k₁ k₂)) := by
        simp only [nativeRange, hk₁, hk₂]
        rfl
      have hrange' : nativeRange true .key low' high' = some (.key (.range k₁' k₂')) := by
        simp only [nativeRange, hk₁', hk₂']
        rfl
      rw [hrange]
      refine ⟨rfl, .range k₁' k₂', ?_, fun _ => hrange'⟩
      simp only [KeyCondition.bind, bind_rangeKey hls hvalueLow hlow hk₁ hk₁',
        bind_rangeKey hls hvalueHigh hhigh hk₂ hk₂', ok_bind, pure, Except.pure]
  | value o =>
    simp only [nativeRange, Side.assign]
    cases o.assign ls <;> rfl
  | outer _ | float | query _ | other => rfl

/-- **A list** becomes the one with constants.

**Proof sketch.** For a bin, the equalities with the items become those with constants
(`bind_equalities`). For the key, the items name keys or not (`keyOperands?_assign_eq_none`), and
the keys are bound to those of the constants (`bind_keyOperands`). Other sides find nothing
(`hnone`). -/
lemma becomes_nativeMember {fits : Prop} {topLevel : Bool} {s : Side} {os : List Operand}
    (hls : StandFor ls values) (hvalue : ∀ index, .param index ∈ os → HasValue values index)
    (hfits : fits → s = .key → ∀ index, .param index ∈ os → KeyFits ls values index) :
    Becomes ls values fits (nativeMember topLevel s os)
      ((os.mapM (Operand.assign ls)).bind (nativeMember topLevel (s.assign ls))) := by
  have hnone : (∀ os, nativeMember topLevel s os = none) →
      (∀ os, nativeMember topLevel (s.assign ls) os = none) →
        Becomes ls values fits (nativeMember topLevel s os)
          ((os.mapM (Operand.assign ls)).bind (nativeMember topLevel (s.assign ls))) := by
    intro hnever hnever'
    rw [hnever]
    cases os.mapM (Operand.assign ls) with
    | none => rfl
    | some os' => exact hnever' os'
  cases s with
  | bin b =>
    intro d hd
    obtain ⟨ds, hds, hd⟩ := bind_eq_ok.mp hd
    obtain rfl := Except.ok.inj hd
    obtain ⟨hknown, hfloat⟩ := bind_equalities hls hvalue hds
    refine ⟨fun hempty => ?_, fun hne heq => ?_⟩
    · obtain ⟨os', hos, rfl⟩ := hknown hempty
      rw [hos]
      rfl
    · rw [hfloat hne heq]
      rfl
  | key =>
    cases topLevel with
    | false => exact hnone (fun _ => rfl) (fun _ => rfl)
    | true =>
      have hmember : ∀ os, nativeMember true .key os =
          (keyOperands? os).map fun ks => .key (.among ks) := fun _ => rfl
      rw [hmember]
      cases hks : keyOperands? os with
      | none =>
        cases hos : os.mapM (Operand.assign ls) with
        | none => rfl
        | some os' =>
          change nativeMember true .key os' = none
          rw [hmember, keyOperands?_assign_eq_none hks hos]
          rfl
      | some ks =>
        obtain ⟨bound, hbound, hassign⟩ := bind_keyOperands hvalue hks
        refine ⟨rfl, .among bound, ?_, fun hgood => ?_⟩
        · simp only [KeyCondition.bind, hbound, ok_bind, pure, Except.pure]
        · obtain ⟨os', hos, hks'⟩ := hassign (hfits hgood rfl)
          rw [hos]
          change nativeMember true .key os' = _
          rw [hmember, hks']
          rfl
  | value o =>
    refine hnone (fun _ => rfl) fun _ => ?_
    simp only [Side.assign]
    cases o.assign ls <;> rfl
  | outer _ | float | query _ | other => exact hnone (fun _ => rfl) (fun _ => rfl)

/-! ## Conjuncts -/

/-- Two conditions on bins become what they become by themselves.

**Proof sketch.** If one condition is missing, so is the joined one, on both sides. Otherwise the
two are bound one after the other (`Condition.bind_pair`), and a parameter is left in the joined
condition if it is in one of them. -/
lemma becomes_joinNative {fits : Prop} {f : List Condition → Condition}
    (hf : f = .all ∨ f = .any) {a b a' b' : Option NativeCondition}
    (hbins : ∀ k, a ≠ some (.key k) ∧ b ≠ some (.key k)) (ha : Becomes ls values False a a')
    (hb : Becomes ls values False b b') :
    Becomes ls values fits (joinNative f a b) (joinNative f a' b') := by
  have hnone : ∀ n, joinNative f n none = none := by
    rintro (_ | _ | _) <;> rfl
  have hnone' : ∀ n, joinNative f none n = none := by
    rintro (_ | _ | _) <;> rfl
  cases a with
  | none =>
    obtain rfl : a' = none := ha
    rw [hnone', hnone']
    rfl
  | some x =>
    cases b with
    | none =>
      obtain rfl : b' = none := hb
      rw [hnone, hnone]
      rfl
    | some y =>
      cases x with
      | key k => exact absurd rfl (hbins k).1
      | bins c =>
        cases y with
        | key k => exact absurd rfl (hbins k).2
        | bins d =>
          intro e he
          obtain ⟨c', d', hc, hd, rfl, hparams⟩ := Condition.bind_pair hf he
          obtain ⟨hknown, hfloat⟩ := ha c' hc
          obtain ⟨hknown', hfloat'⟩ := hb d' hd
          rw [hparams]
          refine ⟨fun hempty => ?_, fun hne heq => ?_⟩
          · rw [List.append_eq_nil_iff] at hempty
            rw [hknown hempty.1, hknown' hempty.2]
            rfl
          · rw [ne_eq, List.append_eq_nil_iff, not_and_or] at hne
            rcases hne with hne | hne
            · rw [hfloat hne heq, hnone']
            · rw [hfloat' hne heq, hnone]

/-- Within a conjunct there is no condition on the key.

**Proof sketch.** Induction along the compilation (`compileConjunct_induction`). AND and OR join
conditions on bins (`joinNative_eq_some`), and every other form yields a condition on the key at the
top level only. -/
lemma compileConjunct_ne_key {compileSub : Query → Except QueryError QueryNode}
    {slots last : List SubquerySlot} {k : KeyCondition} (e : Expr) :
    (compileConjunct compileSub scope target false e).run slots ≠ .ok (some (.key k), last) := by
  intro h
  generalize htop : false = topLevel at h
  induction topLevel, e using compileConjunct_induction generalizing slots last with
  | paren topLevel e ih =>
    rw [compileConjunct] at h
    exact ih htop h
  | connective topLevel op f l r hop =>
    simp only [compileConjunct_connective hop, SlotM.run_bind_eq_ok, SlotM.run_pure_eq_ok] at h
    obtain ⟨a, mid, -, b, mid', -, hjoin, -⟩ := h
    obtain ⟨x, y, -, -, heq⟩ := joinNative_eq_some hjoin
    cases heq
  | compare topLevel c l r =>
    subst htop
    simp only [compileConjunct, SlotM.run_bind_eq_ok, SlotM.run_liftM_eq_ok] at h
    obtain ⟨s, mid, -, t, mid', -, h⟩ := h
    unfold nativeComparison at h
    split at h <;> simp at h
  | between topLevel e low high =>
    subst htop
    simp only [compileConjunct, SlotM.run_bind_eq_ok, SlotM.run_liftM_eq_ok] at h
    obtain ⟨s, mid, -, l, mid', -, u, mid'', -, h⟩ := h
    split at h
    · simp only [SlotM.run_pure_eq_ok] at h
      cases s <;> cases h.1
    · simp at h
  | inList topLevel e items =>
    subst htop
    simp only [compileConjunct, SlotM.run_bind_eq_ok, SlotM.run_liftM_eq_ok] at h
    obtain ⟨s, mid, -, os, mid', -, h⟩ := h
    split at h
    · simp only [SlotM.run_pure_eq_ok] at h
      cases s <;> cases h.1
    · simp at h
  | inQuery topLevel e q =>
    subst htop
    simp only [compileConjunct, SlotM.run_bind_eq_ok, SlotM.run_liftM_eq_ok] at h
    obtain ⟨s, mid, -, h⟩ := h
    split at h <;> simp at h
  | undecided topLevel e hnone => simp [hnone] at h

namespace Expr

/-- Whether an expression is the key. -/
def isKey (e : Expr) : Bool :=
  match e.unwrap with
  | column c => c.name == keyColumn
  | _ => false

/-- The parameter that an expression is. -/
def param? (e : Expr) : Option Nat :=
  match e.unwrap with
  | param index => some index
  | _ => none

/-- The parameters that a conjunct looks up as keys: it asks whether the key is one of them, or is
another. -/
def keyParamsOf : Expr → List Nat
  | paren e => keyParamsOf e
  | binary (.compare c) l r =>
    if c = .eq ∨ c = .ne then
      (if l.isKey then r.param?.toList else []) ++ (if r.isKey then l.param?.toList else [])
    else []
  | inList e items false => if e.isKey then items.filterMap param? else []
  | _ => []

/-- The parameters that a condition looks up as keys. -/
def keyParams (e : Expr) : List Nat := e.conjuncts.flatMap keyParamsOf

end Expr

/-- A side that is the key is written as the key, and one that is a parameter as that. -/
lemma isKey_of_side {e : Expr} {s : Side} (h : side scope target e = .ok s) :
    (s = .key → e.isKey = true) ∧ ∀ index, s = .value (.param index) → e.param? = some index := by
  obtain ⟨hkey, hparam⟩ := unwrap_of_side h
  refine ⟨fun hs => ?_, fun index hs => ?_⟩
  · obtain ⟨c, hc, hname⟩ := hkey hs
    simp [Expr.isKey, hc, hname]
  · simp [Expr.param?, hparam index hs]

/-- What hides no parameter is no query. -/
lemma side_ne_query {e : Expr} {s : Side} (hshown : ∀ s ∈ e.parts, s.hidesParam = false)
    (h : side scope target e = .ok s) (q : Query) : s ≠ .query q := by
  rintro rfl
  cases (hasQuery_of_side h).symm.trans
    (Expr.hasQuery_of_showsParams (Expr.showsParams_iff.mpr hshown))

/-- What the constants must do for a condition: no parameter of it is hidden in a query, and each
one has a value. -/
structure Expr.Supplied (values : List Literal) (e : Expr) : Prop where
  /-- No part hides a parameter. -/
  shown : ∀ s ∈ e.parts, s.hidesParam = false
  /-- Each parameter has a value. -/
  value : ∀ index, .param index ∈ e.parts → HasValue values index

/-- The constants do for the parts of a condition what they do for the condition. -/
lemma Expr.Supplied.mono {d e : Expr} (h : e.Supplied values) (hsub : ∀ s ∈ d.parts, s ∈ e.parts) :
    d.Supplied values :=
  ⟨fun s hs => h.shown s (hsub s hs), fun index hindex => h.value index (hsub _ hindex)⟩

section Conjunct

variable {compileSub compileSub' : Query → Except QueryError QueryNode} {topLevel : Bool}
  {fits : Prop} {slots last slots' last' : List SubquerySlot} {n n' : Option NativeCondition}

/-- **AND and OR** become what both of their sides become.

**Proof sketch.** The sides are conditions on bins (`compileConjunct_ne_key`), so nothing is asked
of the constants for them, and `becomes_joinNative` puts them together. -/
lemma becomes_connective {op : BinaryOp} {f : List Condition → Condition} (hop : op.Joins f)
    {l r : Expr}
    (hl : ∀ {slots last slots' last' n n'},
      (compileConjunct compileSub scope target false l).run slots = .ok (n, last) →
      (compileConjunct compileSub' scope target false (l.substitute ls)).run slots' =
        .ok (n', last') → Becomes ls values False n n')
    (hr : ∀ {slots last slots' last' n n'},
      (compileConjunct compileSub scope target false r).run slots = .ok (n, last) →
      (compileConjunct compileSub' scope target false (r.substitute ls)).run slots' =
        .ok (n', last') → Becomes ls values False n n')
    (h : (compileConjunct compileSub scope target topLevel (.binary op l r)).run slots =
      .ok (n, last))
    (h' : (compileConjunct compileSub' scope target topLevel
      ((Expr.binary op l r).substitute ls)).run slots' = .ok (n', last')) :
    Becomes ls values fits n n' := by
  simp only [Expr.substitute, compileConjunct_connective hop, SlotM.run_bind_eq_ok,
    SlotM.run_pure_eq_ok] at h h'
  obtain ⟨a, mid, ha, b, _, hb, rfl, -⟩ := h
  obtain ⟨a', mid', ha', b', _, hb', rfl, -⟩ := h'
  refine becomes_joinNative hop.eq_all_or_any (fun k => ⟨?_, ?_⟩) (hl ha ha') (hr hb hb')
  · rintro rfl
    exact compileConjunct_ne_key l ha
  · rintro rfl
    exact compileConjunct_ne_key r hb

/-- **A comparison of expressions** becomes the one with constants.

**Proof sketch.** The sides become what their constants are (`side_substitute`), and then
`becomes_nativeComparison` applies. A parameter of a side is one of the expression, and one that is
compared with the key is among those that are looked up (`isKey_of_side`). -/
lemma becomes_compare {c : Comparison} {l r : Expr} (hls : StandFor ls values)
    (hl : l.Supplied values) (hr : r.Supplied values)
    (hfits : fits → ∀ index ∈ (Expr.binary (.compare c) l r).keyParamsOf, KeyFits ls values index)
    (h : (compileConjunct compileSub scope target topLevel (.binary (.compare c) l r)).run slots =
      .ok (n, last))
    (h' : (compileConjunct compileSub' scope target topLevel
      ((Expr.binary (.compare c) l r).substitute ls)).run slots' = .ok (n', last')) :
    Becomes ls values fits n n' := by
  simp only [Expr.substitute, compileConjunct, SlotM.run_bind_eq_ok, SlotM.run_liftM_eq_ok] at h h'
  obtain ⟨s, _, ⟨hs, rfl⟩, t, _, ⟨ht, rfl⟩, h⟩ := h
  obtain ⟨s', _, ⟨hs', rfl⟩, t', _, ⟨ht', rfl⟩, h'⟩ := h'
  rw [side_substitute hl.shown, hs] at hs'
  rw [side_substitute hr.shown, ht] at ht'
  obtain rfl := Except.ok.inj hs'
  obtain rfl := Except.ok.inj ht'
  refine becomes_nativeComparison hls (side_ne_query hl.shown hs) (side_ne_query hr.shown ht)
    ?_ ?_ h h'
  · rintro index (rfl | rfl)
    · exact hl.value index (param_mem_parts_of_side hs)
    · exact hr.value index (param_mem_parts_of_side ht)
  · rintro hgood hc index (⟨rfl, rfl⟩ | ⟨rfl, rfl⟩)
    · refine hfits hgood index ?_
      simp [Expr.keyParamsOf, hc, (isKey_of_side hs).1 rfl, (isKey_of_side ht).2 index rfl]
    · refine hfits hgood index ?_
      simp [Expr.keyParamsOf, hc, (isKey_of_side ht).1 rfl, (isKey_of_side hs).2 index rfl]

/-- **BETWEEN** becomes the range with constants.

**Proof sketch.** A bound that the store cannot use stays one with its constant, and then neither
range is found (`rangeBound_substitute`). Two bounds that it can use make ranges, which are those of
`becomes_nativeRange`. -/
lemma becomes_between {e low high : Expr} (hls : StandFor ls values) (he : e.Supplied values)
    (hlow : low.Supplied values) (hhigh : high.Supplied values)
    (h : (compileConjunct compileSub scope target topLevel (.between e low high false)).run slots =
      .ok (n, last))
    (h' : (compileConjunct compileSub' scope target topLevel
      ((Expr.between e low high false).substitute ls)).run slots' = .ok (n', last')) :
    Becomes ls values fits n n' := by
  simp only [Expr.substitute, compileConjunct, SlotM.run_bind_eq_ok, SlotM.run_liftM_eq_ok] at h h'
  obtain ⟨s, _, ⟨hs, rfl⟩, l, _, ⟨hl, rfl⟩, u, _, ⟨hu, rfl⟩, h⟩ := h
  obtain ⟨s', _, ⟨hs', rfl⟩, l', _, ⟨hl', rfl⟩, u', _, ⟨hu', rfl⟩, h'⟩ := h'
  rw [side_substitute he.shown, hs] at hs'
  obtain rfl := Except.ok.inj hs'
  rcases rangeBound_substitute hlow.shown hl hl' with
    ⟨rfl, rfl⟩ | ⟨o₁, o₁', k₁, k₁', rfl, rfl, ho₁, hk₁, hk₁', hparam₁⟩
  · exact becomes_pure_none h h'
  rcases rangeBound_substitute hhigh.shown hu hu' with
    ⟨rfl, rfl⟩ | ⟨o₂, o₂', k₂, k₂', rfl, rfl, ho₂, hk₂, hk₂', hparam₂⟩
  · exact becomes_pure_none h h'
  obtain ⟨rfl, -⟩ := SlotM.run_pure_eq_ok.mp h
  obtain ⟨rfl, -⟩ := SlotM.run_pure_eq_ok.mp h'
  refine becomes_nativeRange hls ?_ ho₁ ho₂ hk₁ hk₂ hk₁' hk₂'
  rintro index (hindex | hindex)
  · exact hlow.value index (hparam₁ index hindex)
  · exact hhigh.value index (hparam₂ index hindex)

/-- **IN with a list** becomes the list with constants.

**Proof sketch.** The operands of the list with constants are those of the list, each with its
constant (`listOperands_substitute`); an item that the store cannot compare leaves the whole list to
be decided row by row. Otherwise `becomes_nativeMember` applies, and each of its operands comes from
an item (`exists_item_of_mem_listOperands`). -/
lemma becomes_inList {e : Expr} {items : List Expr} (hls : StandFor ls values)
    (hsupplied : (Expr.inList e items false).Supplied values)
    (hfits : fits → ∀ index ∈ (Expr.inList e items false).keyParamsOf, KeyFits ls values index)
    (h : (compileConjunct compileSub scope target topLevel (.inList e items false)).run slots =
      .ok (n, last))
    (h' : (compileConjunct compileSub' scope target topLevel
      ((Expr.inList e items false).substitute ls)).run slots' = .ok (n', last')) :
    Becomes ls values fits n n' := by
  simp only [Expr.substitute, compileConjunct, SlotM.run_bind_eq_ok, SlotM.run_liftM_eq_ok] at h h'
  obtain ⟨s, _, ⟨hs, rfl⟩, os, _, ⟨hos, rfl⟩, h⟩ := h
  obtain ⟨s', _, ⟨hs', rfl⟩, os', _, ⟨hos', rfl⟩, h'⟩ := h'
  rw [side_substitute fun s hs => hsupplied.shown s (by simp [Expr.parts, hs]), hs] at hs'
  obtain rfl := Except.ok.inj hs'
  obtain rfl := listOperands_substitute
    (fun s hs => hsupplied.shown s (by simp [Expr.parts, hs])) hos hos'
  cases os with
  | none => exact becomes_pure_none h h'
  | some os =>
    obtain ⟨rfl, -⟩ := SlotM.run_pure_eq_ok.mp h
    have hn' : n' = (os.mapM (Operand.assign ls)).bind (nativeMember topLevel (s.assign ls)) := by
      simp only [Option.bind_some] at h'
      cases hassign : os.mapM (Operand.assign ls) with
      | none =>
        rw [hassign] at h'
        exact (SlotM.run_pure_eq_ok.mp h').1.symm
      | some os' =>
        rw [hassign] at h'
        exact (SlotM.run_pure_eq_ok.mp h').1.symm
    rw [hn']
    refine becomes_nativeMember hls (fun index hindex => ?_) fun hgood hkey index hindex => ?_
    · obtain ⟨item, hitem, hside⟩ := exists_item_of_mem_listOperands hos hindex
      exact hsupplied.value index (Expr.mem_parts_inList hitem (param_mem_parts_of_side hside))
    · obtain ⟨item, hitem, hside⟩ := exists_item_of_mem_listOperands hos hindex
      refine hfits hgood index ?_
      rw [Expr.keyParamsOf, if_pos ((isKey_of_side hs).1 hkey), List.mem_filterMap]
      exact ⟨item, hitem, (isKey_of_side hside).2 index rfl⟩

end Conjunct

/-- **A conjunct becomes the one with constants.**

**Proof sketch.** Recursion on the expression, with one case for each form that the compilation
knows. AND and OR become what their sides become by the recursion; a comparison, a range and a list
have no conjuncts below them. Of all other forms the store decides nothing, and their constants do
not change that. -/
theorem becomes_compileConjunct {compileSub compileSub' : Query → Except QueryError QueryNode}
    (hls : StandFor ls values) (e : Expr) (topLevel : Bool) {fits : Prop}
    {slots last slots' last' : List SubquerySlot} {n n' : Option NativeCondition}
    (hsupplied : e.Supplied values)
    (hfits : fits → ∀ index ∈ e.keyParamsOf, KeyFits ls values index)
    (h : (compileConjunct compileSub scope target topLevel e).run slots = .ok (n, last))
    (h' : (compileConjunct compileSub' scope target topLevel (e.substitute ls)).run slots' =
      .ok (n', last')) : Becomes ls values fits n n' := by
  match e with
  | .paren e =>
    rw [compileConjunct] at h
    rw [Expr.substitute, compileConjunct] at h'
    exact becomes_compileConjunct hls e topLevel
      (hsupplied.mono fun s hs => by simp [Expr.parts, hs]) hfits h h'
  | .binary .and l r =>
    exact becomes_connective .and
      (becomes_compileConjunct hls l false (hsupplied.mono fun s hs => by simp [Expr.parts, hs])
        False.elim)
      (becomes_compileConjunct hls r false (hsupplied.mono fun s hs => by simp [Expr.parts, hs])
        False.elim) h h'
  | .binary .or l r =>
    exact becomes_connective .or
      (becomes_compileConjunct hls l false (hsupplied.mono fun s hs => by simp [Expr.parts, hs])
        False.elim)
      (becomes_compileConjunct hls r false (hsupplied.mono fun s hs => by simp [Expr.parts, hs])
        False.elim) h h'
  | .binary (.compare c) l r =>
    exact becomes_compare hls (hsupplied.mono fun s hs => by simp [Expr.parts, hs])
      (hsupplied.mono fun s hs => by simp [Expr.parts, hs]) hfits h h'
  | .between e low high false =>
    exact becomes_between hls (hsupplied.mono fun s hs => by simp [Expr.parts, hs])
      (hsupplied.mono fun s hs => by simp [Expr.parts, hs])
      (hsupplied.mono fun s hs => by simp [Expr.parts, hs]) h h'
  | .inList e items false => exact becomes_inList hls hsupplied hfits h h'
  | .inQuery _ _ _ => cases hsupplied.shown _ (Expr.self_mem_parts _)
  | .param (i + 1) =>
    -- The constant in the place of a parameter is a literal, or the parameter stays.
    rw [Expr.substitute, Expr.ofParam] at h'
    split at h'
    · exact becomes_pure_none h h'
    · exact becomes_pure_none h h'
  | .param 0 | .literal _ | .column _ | .negative _ | .not _ | .isNull _ _ | .scalarQuery _
  | .call _ _ _ | .star | .array _ | .element _ _ | .binary (.arith _) _ _ | .between _ _ _ true
  | .inList _ _ true => exact becomes_pure_none h h'

/-- Conjuncts without queries collect no sub-queries. -/
lemma compileConjuncts_same {compileSub : Query → Except QueryError QueryNode} {es : List Expr}
    (hquery : ∀ e ∈ es, e.hasQuery = false) {slots last : List SubquerySlot}
    {ns : List (Option NativeCondition)}
    (h : (compileConjuncts compileSub scope target es).run slots = .ok (ns, last)) :
    last = slots := by
  induction es generalizing ns slots with
  | nil => exact (SlotM.run_pure_eq_ok.mp h).2.symm
  | cons e es ih =>
    simp only [compileConjuncts, SlotM.run_bind_eq_ok, SlotM.run_pure_eq_ok] at h
    obtain ⟨n, mid, he, ns', mid', hrest, -, rfl⟩ := h
    have hreads : ReadsOnly (fun _ => true) scope target true e :=
      ⟨fun _ _ _ _ _ => rfl, fun _ _ => rfl⟩
    have hsub : CompilesTo compileSub (fun _ => true) fun _ => True := fun _ _ _ _ => trivial
    rw [ih (fun d hd => hquery d (by simp [hd])) hrest,
      (compileConjunct_collects e true hsub hreads he).same (hquery e (by simp))]

/-- Conjuncts become those with constants.

**Proof sketch.** Induction on the conjuncts, which are compiled one after the other at the top
level (`becomes_compileConjunct`). -/
lemma becomes_compileConjuncts {compileSub compileSub' : Query → Except QueryError QueryNode}
    (hls : StandFor ls values) {es : List Expr} {fits : Prop}
    {slots last slots' last' : List SubquerySlot} {ns ns' : List (Option NativeCondition)}
    (hsupplied : ∀ e ∈ es, e.Supplied values)
    (hfits : fits → ∀ e ∈ es, ∀ index ∈ e.keyParamsOf, KeyFits ls values index)
    (h : (compileConjuncts compileSub scope target es).run slots = .ok (ns, last))
    (h' : (compileConjuncts compileSub' scope target (es.map (Expr.substitute ls))).run slots' =
      .ok (ns', last')) : List.Forall₂ (Becomes ls values fits) ns ns' := by
  induction es generalizing ns ns' slots last slots' last' with
  | nil =>
    obtain ⟨rfl, -⟩ := SlotM.run_pure_eq_ok.mp h
    obtain ⟨rfl, -⟩ := SlotM.run_pure_eq_ok.mp h'
    exact .nil
  | cons e es ih =>
    simp only [List.map_cons, compileConjuncts, SlotM.run_bind_eq_ok, SlotM.run_pure_eq_ok]
      at h h'
    obtain ⟨n, _, he, rest, _, hrest, rfl, -⟩ := h
    obtain ⟨n', _, he', rest', _, hrest', rfl, -⟩ := h'
    exact .cons
      (becomes_compileConjunct hls e true (hsupplied e (by simp))
        (fun hgood => hfits hgood e (by simp)) he he')
      (ih (fun d hd => hsupplied d (by simp [hd]))
        (fun hgood d hd => hfits hgood d (by simp [hd])) hrest hrest')

end RecordQuery
