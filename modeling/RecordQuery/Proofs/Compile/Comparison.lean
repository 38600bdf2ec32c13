import RecordQuery.Proofs.Compile.Constant

set_option autoImplicit false

/-!
# Comparisons with constants for parameters

What the compiler makes of a conjunct with constants is what binding makes of the conjunct with
parameters. If a float is left in a bound condition, the compiler leaves the conjunct with constants
to be decided row by row. A parameter that is looked up as a key is the exception: binding cuts
floats off there, and the compiler does not. Here this is shown of comparisons.

## Main definitions

* `Becomes` — what a compiled conjunct becomes with constants.

## Main results

* `becomes_nativeComparison` — a comparison becomes the one with constants.
-/

namespace RecordQuery

open Outcome

variable {ls values : List Literal}

/-- What a conjunct becomes with constants, beside what it was: nothing that the store cannot
decide, and otherwise the bound condition, unless a float is left in that. -/
def Becomes (ls values : List Literal) (fits : Prop) :
    Option NativeCondition → Option NativeCondition → Prop
  | none, n' => n' = none
  | some (.bins c), n' => ∀ d, c.bind (values.map Literal.value) = .ok d →
      (d.params = [] → n' = some (.bins d)) ∧ (d.params ≠ [] → ls = values → n' = none)
  | some (.key k), n' => k.isSimple = true ∧
      ∃ k', k.bind (values.map Literal.value) = .ok k' ∧ (fits → n' = some (.key k'))

/-- What the store decides neither with parameters nor with constants. -/
lemma becomes_pure_none {fits : Prop} {slots last slots' last' : List SubquerySlot}
    {n n' : Option NativeCondition}
    (h : (pure none : SlotM (Option NativeCondition)).run slots = .ok (n, last))
    (h' : (pure none : SlotM (Option NativeCondition)).run slots' = .ok (n', last')) :
    Becomes ls values fits n n' := by
  obtain ⟨rfl, -⟩ := SlotM.run_pure_eq_ok.mp h
  obtain ⟨rfl, -⟩ := SlotM.run_pure_eq_ok.mp h'
  rfl

/-- The comparison of a bin with an operand. -/
lemma becomes_ofOperand {fits : Prop} (hls : StandFor ls values) {bin : String} {c : Comparison}
    {o : Operand} (hvalue : ∀ index, o = .param index → HasValue values index) :
    Becomes ls values fits (some (.bins (.ofOperand bin c o)))
      ((o.assign ls).map fun o' => .bins (.ofOperand bin c o')) := by
  intro d hd
  obtain ⟨hknown, hfloat⟩ := bind_compare hls hvalue hd
  refine ⟨fun hempty => ?_, fun hne heq => ?_⟩
  · obtain ⟨o', kind', hassign, rfl, hkind, -⟩ := hknown hempty
    rw [hassign, hkind rfl]
    rfl
  · rw [hfloat hne heq]
    rfl

/-- What the comparison of the key with an operand compiles to. -/
lemma run_keyComparison {compileSub : Query → Except QueryError QueryNode}
    {slots last : List SubquerySlot} {n : Option NativeCondition} {c : Comparison} {o : Operand}
    (hc : c = .eq ∨ c = .ne)
    (h : (keyComparison compileSub c (.value o)).run slots = .ok (n, last)) :
    (o = .null ∧ n = some (.key .none)) ∨
      (o ≠ .null ∧ n = o.keyOperand?.map fun k =>
        .key (if c = .eq then .equal k else .notEqual k)) := by
  have hnot : ¬ (c ≠ .eq ∧ c ≠ .ne) := by
    rcases hc with rfl | rfl <;> simp
  simp only [keyComparison, if_neg hnot] at h
  cases o with
  | null =>
    rw [SlotM.run_pure_eq_ok] at h
    exact .inl ⟨rfl, h.1.symm⟩
  | integer _ | text _ | param _ | outer _ | slot _ =>
    rw [SlotM.run_pure_eq_ok] at h
    exact .inr ⟨by simp, h.1.symm⟩

/-- The comparison of the key with an operand becomes the one with what its constant names.

**Proof sketch.** The comparison is compiled for equality and difference only (`run_keyComparison`).
A null finds nothing on either side; an operand that names no key stays as it is; and one that names
a key is bound to what its constant names (`bind_keyOperand`), which is null or another key. -/
lemma becomes_keyOperand {fits : Prop}
    {compileSub compileSub' : Query → Except QueryError QueryNode}
    {slots last slots' last' : List SubquerySlot} {n n' : Option NativeCondition} {c : Comparison}
    {o : Operand} (hvalue : ∀ index, o = .param index → HasValue values index)
    (hfits : fits → (c = .eq ∨ c = .ne) → ∀ index, o = .param index → KeyFits ls values index)
    (h : (keyComparison compileSub c (.value o)).run slots = .ok (n, last))
    (h' : (keyComparison compileSub' c ((Side.value o).assign ls)).run slots' = .ok (n', last')) :
    Becomes ls values fits n n' := by
  by_cases hc : c ≠ .eq ∧ c ≠ .ne
  · simp only [keyComparison, hc, and_self, ne_eq, not_false_eq_true, if_true,
      SlotM.run_pure_eq_ok] at h h'
    rw [← h.1, ← h'.1]
    rfl
  have hcompared : c = .eq ∨ c = .ne := by
    by_contra hne
    exact hc (not_or.mp hne)
  rcases run_keyComparison hcompared h with ⟨rfl, rfl⟩ | ⟨hnull, rfl⟩
  · obtain ⟨-, rfl⟩ | ⟨hne, -⟩ := run_keyComparison hcompared h'
    · exact ⟨rfl, .none, rfl, fun _ => rfl⟩
    · exact absurd rfl hne
  cases hk : o.keyOperand? with
  | none =>
    have hsame : o.assign ls = some o := by
      cases o with
      | null => exact absurd rfl hnull
      | integer _ | text _ | param _ => cases hk
      | outer _ | slot _ => rfl
    rw [Side.assign, hsame] at h'
    obtain ⟨hne, -⟩ | ⟨-, rfl⟩ := run_keyComparison hcompared h'
    · exact absurd hne hnull
    · rw [hk]
      rfl
  | some k =>
    obtain ⟨bound, hbound, hassign⟩ := bind_keyOperand ls hvalue hk
    refine ⟨?_, (bound.map fun k => if c = .eq then .equal k else .notEqual k).getD .none, ?_,
      fun hgood => ?_⟩
    · split <;> rfl
    · split
      · simp only [KeyCondition.bind, hbound, ok_bind]
        rfl
      · simp only [KeyCondition.bind, hbound, ok_bind]
        rfl
    · obtain ⟨o', ho, hnamed⟩ := hassign (hfits hgood hcompared)
      rw [Side.assign, ho] at h'
      rcases run_keyComparison hcompared h' with ⟨rfl, rfl⟩ | ⟨hne, rfl⟩
      · rcases hnamed with ⟨rfl, -⟩ | ⟨k', -, hk'⟩
        · rfl
        · cases hk'
      · rcases hnamed with ⟨-, rfl⟩ | ⟨k', rfl, hk'⟩
        · exact absurd rfl hne
        · rw [hk']
          rfl

/-- **The comparison of the key** becomes the one with the constant. -/
lemma becomes_keyComparison {fits : Prop}
    {compileSub compileSub' : Query → Except QueryError QueryNode}
    {slots last slots' last' : List SubquerySlot} {n n' : Option NativeCondition} {c : Comparison}
    {s : Side} (hquery : ∀ q, s ≠ .query q)
    (hvalue : ∀ index, s = .value (.param index) → HasValue values index)
    (hfits : fits → (c = .eq ∨ c = .ne) → ∀ index, s = .value (.param index) →
      KeyFits ls values index)
    (h : (keyComparison compileSub c s).run slots = .ok (n, last))
    (h' : (keyComparison compileSub' c (s.assign ls)).run slots' = .ok (n', last')) :
    Becomes ls values fits n n' := by
  cases s with
  | value o =>
    exact becomes_keyOperand (fun index hindex => hvalue index (by rw [hindex]))
      (fun hgood hc index hindex => hfits hgood hc index (by rw [hindex])) h h'
  | query q => exact absurd rfl (hquery q)
  | bin _ | key | outer _ | float | other =>
    simp only [keyComparison, Side.assign] at h h'
    split at h <;> split at h' <;> exact becomes_pure_none h h'

/-- The comparison of a bin with an operand and a constant for its parameter. -/
lemma run_nativeComparison_bin {compileSub : Query → Except QueryError QueryNode}
    {slots last : List SubquerySlot} {n : Option NativeCondition} {topLevel : Bool} {bin : String}
    {c : Comparison} {o : Operand} :
    ((nativeComparison compileSub topLevel (.bin bin) c ((Side.value o).assign ls)).run slots =
      .ok (n, last) → n = (o.assign ls).map fun o' => .bins (.ofOperand bin c o')) ∧
    ((nativeComparison compileSub topLevel ((Side.value o).assign ls) c (.bin bin)).run slots =
      .ok (n, last) → n = (o.assign ls).map fun o' => .bins (.ofOperand bin c.mirrored o')) := by
  rw [Side.assign]
  cases o.assign ls with
  | none => exact ⟨fun h => (SlotM.run_pure_eq_ok.mp h).1.symm,
      fun h => (SlotM.run_pure_eq_ok.mp h).1.symm⟩
  | some o' => exact ⟨fun h => (SlotM.run_pure_eq_ok.mp h).1.symm,
      fun h => (SlotM.run_pure_eq_ok.mp h).1.symm⟩

/-- The comparison of a side with the key. -/
lemma nativeComparison_key (compileSub : Query → Except QueryError QueryNode) (topLevel : Bool)
    (c : Comparison) {s : Side} (hs : s ≠ .key) :
    nativeComparison compileSub topLevel s c .key =
      if topLevel then keyComparison compileSub c.mirrored s else pure none := by
  cases s with
  | key => exact absurd rfl hs
  | bin _ | outer _ | value _ | float | query _ | other => rfl

/-- The comparison of sides of which none is a bin or the key. -/
lemma nativeComparison_rest (compileSub : Query → Except QueryError QueryNode) (topLevel : Bool)
    (c : Comparison) {s t : Side} (hs : ∀ b, s ≠ .bin b) (hs' : s ≠ .key) (ht : ∀ b, t ≠ .bin b)
    (ht' : t ≠ .key) : nativeComparison compileSub topLevel s c t = pure none := by
  cases s with
  | bin b => exact absurd rfl (hs b)
  | key => exact absurd rfl hs'
  | outer _ | value _ | float | query _ | other =>
    cases t with
    | bin b => exact absurd rfl (ht b)
    | key => exact absurd rfl ht'
    | outer _ | value _ | float | query _ | other => rfl

/-- Constants for parameters make no bins and no keys. -/
lemma Side.assign_ne (ls : List Literal) {s : Side} :
    ((∀ b, s ≠ .bin b) → ∀ b, s.assign ls ≠ .bin b) ∧ (s ≠ .key → s.assign ls ≠ .key) := by
  cases s with
  | value o =>
    simp only [assign]
    cases o.assign ls <;> simp
  | bin _ | key | outer _ | float | query _ | other => exact ⟨id, id⟩

/-- The comparison of a bin with another side.

**Proof sketch.** By the other side. A value is a constant or becomes one (`becomes_ofOperand`), a
value of the row to join stays, and with anything else nothing is found on either side. -/
lemma becomes_nativeComparison_bin {fits : Prop}
    {compileSub compileSub' : Query → Except QueryError QueryNode}
    {slots last slots' last' : List SubquerySlot} {n n' : Option NativeCondition} {topLevel : Bool}
    {bin : String} {c : Comparison} {t : Side} (hls : StandFor ls values) (hkey : t ≠ .key)
    (hquery : ∀ q, t ≠ .query q)
    (hvalue : ∀ index, t = .value (.param index) → HasValue values index)
    (h : (nativeComparison compileSub topLevel (.bin bin) c t).run slots = .ok (n, last))
    (h' : (nativeComparison compileSub' topLevel (.bin bin) c (t.assign ls)).run slots' =
      .ok (n', last')) : Becomes ls values fits n n' := by
  cases t with
  | query q => exact absurd rfl (hquery q)
  | key => exact absurd rfl hkey
  | value o =>
    obtain ⟨rfl, -⟩ := SlotM.run_pure_eq_ok.mp h
    obtain rfl := run_nativeComparison_bin.1 h'
    exact becomes_ofOperand hls fun index hindex => hvalue index (by rw [hindex])
  | outer source =>
    obtain ⟨rfl, -⟩ := SlotM.run_pure_eq_ok.mp h
    obtain ⟨rfl, -⟩ := SlotM.run_pure_eq_ok.mp h'
    exact becomes_ofOperand hls fun index hindex => by cases hindex
  | bin _ | float | other => exact becomes_pure_none h h'

/-- The comparison of a side that is no bin with a bin.

**Proof sketch.** As with the bin on the left, by the other side. -/
lemma becomes_nativeComparison_bin_right {fits : Prop}
    {compileSub compileSub' : Query → Except QueryError QueryNode}
    {slots last slots' last' : List SubquerySlot} {n n' : Option NativeCondition} {topLevel : Bool}
    {bin : String} {c : Comparison} {s : Side} (hls : StandFor ls values) (hkey : s ≠ .key)
    (hquery : ∀ q, s ≠ .query q) (hbin : ∀ b, s ≠ .bin b)
    (hvalue : ∀ index, s = .value (.param index) → HasValue values index)
    (h : (nativeComparison compileSub topLevel s c (.bin bin)).run slots = .ok (n, last))
    (h' : (nativeComparison compileSub' topLevel (s.assign ls) c (.bin bin)).run slots' =
      .ok (n', last')) : Becomes ls values fits n n' := by
  cases s with
  | query q => exact absurd rfl (hquery q)
  | key => exact absurd rfl hkey
  | bin b => exact absurd rfl (hbin b)
  | value o =>
    obtain ⟨rfl, -⟩ := SlotM.run_pure_eq_ok.mp h
    obtain rfl := run_nativeComparison_bin.2 h'
    exact becomes_ofOperand hls fun index hindex => hvalue index (by rw [hindex])
  | outer source =>
    obtain ⟨rfl, -⟩ := SlotM.run_pure_eq_ok.mp h
    obtain ⟨rfl, -⟩ := SlotM.run_pure_eq_ok.mp h'
    exact becomes_ofOperand hls fun index hindex => by cases hindex
  | float | other => exact becomes_pure_none h h'

/-- **A comparison** becomes the one with constants.

**Proof sketch.** The sides are distinguished in the order of the compiler: the key first, which is
left to `becomes_keyComparison`, in its mirrored form if it stands on the right, and then a bin
(`becomes_nativeComparison_bin`, `becomes_nativeComparison_bin_right`). Constants make no bins and
no keys (`Side.assign_ne`), so the same case applies with constants; in all other cases nothing is
found on either side. -/
lemma becomes_nativeComparison {fits : Prop}
    {compileSub compileSub' : Query → Except QueryError QueryNode}
    {slots last slots' last' : List SubquerySlot} {n n' : Option NativeCondition} {topLevel : Bool}
    {c : Comparison} {s t : Side} (hls : StandFor ls values) (hleft : ∀ q, s ≠ .query q)
    (hright : ∀ q, t ≠ .query q)
    (hvalue : ∀ index, s = .value (.param index) ∨ t = .value (.param index) →
      HasValue values index)
    (hfits : fits → (c = .eq ∨ c = .ne) → ∀ index,
      (s = .key ∧ t = .value (.param index)) ∨ (s = .value (.param index) ∧ t = .key) →
        KeyFits ls values index)
    (h : (nativeComparison compileSub topLevel s c t).run slots = .ok (n, last))
    (h' : (nativeComparison compileSub' topLevel (s.assign ls) c (t.assign ls)).run slots' =
      .ok (n', last')) : Becomes ls values fits n n' := by
  have hmirrored : c.mirrored = .eq ∨ c.mirrored = .ne → c = .eq ∨ c = .ne := by
    cases c <;> simp [Comparison.mirrored]
  by_cases hs : s = .key
  · subst hs
    cases topLevel with
    | false => exact becomes_pure_none h h'
    | true =>
      exact becomes_keyComparison hright (fun index hindex => hvalue index (.inr hindex))
        (fun hgood hc index hindex => hfits hgood hc index (.inl ⟨rfl, hindex⟩)) h h'
  have hs' := (Side.assign_ne ls).2 hs
  by_cases ht : t = .key
  · subst ht
    have hkey : Side.key.assign ls = .key := rfl
    rw [nativeComparison_key _ _ _ hs] at h
    rw [hkey, nativeComparison_key _ _ _ hs'] at h'
    cases topLevel with
    | false => exact becomes_pure_none h h'
    | true =>
      exact becomes_keyComparison hleft (fun index hindex => hvalue index (.inl hindex))
        (fun hgood hc index hindex => hfits hgood (hmirrored hc) index (.inr ⟨hindex, rfl⟩)) h h'
  have ht' := (Side.assign_ne ls).2 ht
  by_cases hbin : ∃ b, s = .bin b
  · obtain ⟨b, rfl⟩ := hbin
    exact becomes_nativeComparison_bin hls ht hright (fun index hindex => hvalue index (.inr hindex))
      h h'
  rw [not_exists] at hbin
  by_cases hbin' : ∃ b, t = .bin b
  · obtain ⟨b, rfl⟩ := hbin'
    exact becomes_nativeComparison_bin_right hls hs hleft hbin
      (fun index hindex => hvalue index (.inl hindex)) h h'
  rw [not_exists] at hbin'
  rw [nativeComparison_rest _ _ _ hbin hs hbin' ht] at h
  rw [nativeComparison_rest _ _ _ ((Side.assign_ne ls).1 hbin) hs' ((Side.assign_ne ls).1 hbin')
    ht'] at h'
  exact becomes_pure_none h h'

end RecordQuery
