import RecordQuery.Proofs.Value.Order

set_option autoImplicit false

/-!
# The comparison of expressions as a partial order

Expressions compare values of one kind, and null with everything. Where two values can be compared,
the comparison agrees with the sort order; so it goes both ways and, on values whose numbers are
apart, it is transitive: what can be compared in two steps up can be compared in one. Values of
different kinds stand beside each other, and so do lists that differ first in such values, and a NaN
beside itself.

## Main definitions

* `Value.isNaN` — values that are not a number.
* `Value.isFloatFree`, `Value.isNaNFree` — values without a float, values without a NaN.

## Main results

* `Value.sortOrder_of_compare?` — the comparison agrees with the sort order.
* `Value.compare?_swap` — the comparison the other way round.
* `Value.Apart.compare?_trans` — on values whose numbers are apart the comparison is transitive.
* `Value.eq_of_sortOrder_eq` — without floats, values that tie are the same.
* `Value.equal_self` — a value equals itself unless there is a NaN in it.
-/

namespace RecordQuery

/-- The order of two floating-point numbers the other way round. -/
lemma Binary64.compare?_swap (x y : Binary64) :
    y.compare? x = (x.compare? y).map Ordering.swap := by
  unfold compare?
  rw [Bool.or_comm]
  split
  · rfl
  · rw [Option.map_some, Int.compare_swap]

namespace Value

/-! ## Values that can be compared -/

/-- Whether a value is a float that is not a number. -/
def isNaN : Value → Bool
  | float x => x.isNaN
  | _ => false

/-- Values of different ranks can be compared if one of them is null. -/
lemma compare?_of_rank_ne {v w : Value} (h : v.rank ≠ w.rank) :
    v.compare? w = if v.rank = 0 then some .lt else if w.rank = 0 then some .gt else none := by
  cases v <;> cases w <;> simp_all [rank, compare?]

/-- Values of one rank can be compared unless they are lists or one of them is not a number. -/
lemma isSome_compare?_of_rank {v w : Value} (h : v.rank = w.rank) (hlist : v.rank ≠ 5) :
    (v.compare? w).isSome = (!v.isNaN && !w.isNaN) := by
  have hfloat : ∀ x y : Binary64, (x.compare? y).isSome = (!x.isNaN && !y.isNaN) := by
    intro x y
    unfold Binary64.compare?
    cases x.isNaN <;> cases y.isNaN <;> rfl
  cases v <;> cases w <;>
    simp_all [rank, compare?, isNaN, Binary64.isNaN_ofInt64]

/-- A value that is not above another one is null or of its rank. -/
lemma rank_of_compare? {v w : Value} {o : Ordering} (h : v.compare? w = some o) (ho : o ≠ .gt) :
    v.rank = 0 ∨ v.rank = w.rank := by
  by_contra hnot
  rw [not_or] at hnot
  rw [compare?_of_rank_ne hnot.2, if_neg hnot.1] at h
  split at h
  · exact ho (Option.some.inj h).symm
  · cases h

/-- The comparison agrees with the sort order on values of different ranks. -/
lemma sortOrder_of_compare?_of_rank_ne {v w : Value} {o : Ordering} (hrank : v.rank ≠ w.rank)
    (h : v.compare? w = some o) : v.sortOrder w = o := by
  rw [sortOrder_of_rank_ne hrank]
  rw [compare?_of_rank_ne hrank] at h
  split at h
  · obtain rfl := Option.some.inj h
    exact Nat.compare_eq_lt.mpr (by omega)
  · split at h
    · obtain rfl := Option.some.inj h
      exact Nat.compare_eq_gt.mpr (by omega)
    · cases h

/-- The comparison agrees with the sort order, if the first value is not a list. -/
lemma sortOrder_of_compare?_of_ne_list {v w : Value} {o : Ordering} (hlist : v.rank ≠ 5)
    (h : v.compare? w = some o) : v.sortOrder w = o := by
  by_cases hrank : v.rank = w.rank
  · cases v <;> cases w <;> simp_all [compare?, sortOrder, rank, sortAlike]
  · exact sortOrder_of_compare?_of_rank_ne hrank h

mutual

/-- **The comparison agrees with the sort order** where it is defined. -/
theorem sortOrder_of_compare? : (v w : Value) → {o : Ordering} → v.compare? w = some o →
    v.sortOrder w = o
  | list vs, w, o, h => by
    by_cases hrank : (list vs).rank = w.rank
    · obtain ⟨ws, rfl⟩ := exists_list_of_rank hrank.symm
      rw [sortOrder_list]
      rw [compare?] at h
      exact sortOrderList_of_compareList? vs ws h
    · exact sortOrder_of_compare?_of_rank_ne hrank h
  | null, _, _, h | boolean _, _, _, h | integer _, _, _, h | float _, _, _, h | text _, _, _, h
  | blob _, _, _, h => sortOrder_of_compare?_of_ne_list (by simp [rank]) h

/-- The same of lists. -/
theorem sortOrderList_of_compareList? : (vs ws : List Value) → {o : Ordering} →
    compareList? vs ws = some o → sortOrderList vs ws = o
  | [], ws, o, h => by cases ws <;> simp_all [compareList?, sortOrderList]
  | _ :: _, [], o, h => by simp_all [compareList?, sortOrderList]
  | v :: vs, w :: ws, o, h => by
    rw [compareList?] at h
    rw [sortOrderList]
    split at h
    · next heq => rw [sortOrder_of_compare? v w heq, sortOrderList_of_compareList? vs ws h]; rfl
    · next hne =>
      rw [sortOrder_of_compare? v w h]
      cases o with
      | eq => exact absurd h hne
      | lt | gt => rfl

end

mutual

/-- The comparison the other way round is the reverse.

**Proof sketch.** By the kind of the value on the left, with lists by induction. Values of different
kinds do not compare in either direction, and those of the same kind are compared by an order that
can be swapped. -/
theorem compare?_swap : (v w : Value) → w.compare? v = (v.compare? w).map Ordering.swap
  | list vs, w => by
    by_cases hrank : (list vs).rank = w.rank
    · obtain ⟨ws, rfl⟩ := exists_list_of_rank hrank.symm
      rw [compare?, compare?]
      exact compareList?_swap vs ws
    · cases w <;> first | rfl | exact absurd rfl hrank
  | text s, w => by
    cases w with
    | text t =>
      rw [compare?, compare?, Option.map_some]
      exact congrArg some Std.OrientedCmp.eq_swap
    | _ => rfl
  | blob as, w => by
    cases w with
    | blob bs =>
      rw [compare?, compare?, Option.map_some, compareBytes_eq, compareBytes_eq]
      exact congrArg some Std.OrientedCmp.eq_swap
    | _ => rfl
  | null, w | boolean _, w | integer _, w | float _, w => by
    cases w <;> simp [compare?, Int.compare_swap, ← Binary64.compare?_swap]

/-- The same of lists. -/
theorem compareList?_swap : (vs ws : List Value) →
    compareList? ws vs = (compareList? vs ws).map Ordering.swap
  | [], ws => by cases ws <;> rfl
  | _ :: _, [] => rfl
  | v :: vs, w :: ws => by
    rw [compareList?, compareList?, compare?_swap v w, compareList?_swap vs ws]
    cases v.compare? w with
    | none => rfl
    | some o => cases o <;> rfl

end

/-- A comparison that is strict says that the values are different. -/
lemma compare?_self_ne {o : Ordering} (ho : o ≠ .eq) (v : Value) : v.compare? v ≠ some o := by
  intro h
  have hsort := sortOrder_of_compare? v v h
  rw [eq_of_eq_swap (sortOrder_swap v v)] at hsort
  exact ho hsort.symm

/-! ## Transitivity -/

mutual

/-- **What can be compared in two steps up can be compared in one**, on values whose numbers are
apart.

**Proof sketch.** Unless it is null, the first value is of the rank of the others, and none of them
is a NaN. For lists, induction on the elements: where the first and the third one tie, the second
one ties with both, as the sort order composes. -/
theorem Apart.isSome_compare? {N : Set Value} (hN : Apart N) : (u v w : Value) → {p q : Ordering} →
    (∀ n ∈ u.numbers, n ∈ N) → (∀ n ∈ v.numbers, n ∈ N) → (∀ n ∈ w.numbers, n ∈ N) →
    u.compare? v = some p → p ≠ .gt → v.compare? w = some q → q ≠ .gt →
    (u.compare? w).isSome = true
  | list us, v, w, p, q, hu, hv, hw, huv, hp, hvw, hq => by
    have hrv := (rank_of_compare? huv hp).resolve_left (by simp [rank])
    obtain ⟨vs, rfl⟩ := exists_list_of_rank hrv.symm
    have hrw := (rank_of_compare? hvw hq).resolve_left (by simp [rank])
    obtain ⟨ws, rfl⟩ := exists_list_of_rank hrw.symm
    rw [compare?] at huv hvw ⊢
    exact isSome_compareList? hN us vs ws hu hv hw huv hp hvw hq
  | null, _, w, _, _, _, _, _, _, _, _, _ => by cases w <;> simp [compare?]
  | boolean _, v, w, p, q, _, _, _, huv, hp, hvw, hq
  | integer _, v, w, p, q, _, _, _, huv, hp, hvw, hq
  | float _, v, w, p, q, _, _, _, huv, hp, hvw, hq | text _, v, w, p, q, _, _, _, huv, hp, hvw, hq
  | blob _, v, w, p, q, _, _, _, huv, hp, hvw, hq => by
    have hrv := (rank_of_compare? huv hp).resolve_left (by simp [rank])
    have hrw := (rank_of_compare? hvw hq).resolve_left (by rw [← hrv]; simp [rank])
    have huv' := isSome_compare?_of_rank hrv (by simp [rank])
    have hvw' := isSome_compare?_of_rank hrw (by rw [← hrv]; simp [rank])
    rw [isSome_compare?_of_rank (hrv.trans hrw) (by simp [rank])]
    rw [huv, Option.isSome_some] at huv'
    rw [hvw, Option.isSome_some] at hvw'
    simp_all

/-- The same of lists.

**Proof sketch.** By induction on the first list, together with the statement on values. The first
elements compare, and not downwards, so those of the outer lists compare too. If these are equal
then by composition both steps are equalities, and the remaining elements decide. -/
theorem Apart.isSome_compareList? {N : Set Value} (hN : Apart N) : (us vs ws : List Value) →
    {p q : Ordering} → (∀ n ∈ numbersList us, n ∈ N) → (∀ n ∈ numbersList vs, n ∈ N) →
    (∀ n ∈ numbersList ws, n ∈ N) → compareList? us vs = some p → p ≠ .gt →
    compareList? vs ws = some q → q ≠ .gt → (compareList? us ws).isSome = true
  | [], _, ws, _, _, _, _, _, _, _, _, _ => by cases ws <;> rfl
  | _ :: _, [], _, _, _, _, _, _, huv, hp, _, _ => absurd (Option.some.inj huv).symm hp
  | _ :: _, _ :: _, [], _, _, _, _, _, _, _, hvw, hq => absurd (Option.some.inj hvw).symm hq
  | u :: us, v :: vs, w :: ws, p, q, hu, hv, hw, huv, hp, hvw, hq => by
    simp only [numbersList, List.forall_mem_append] at hu hv hw
    rw [compareList?] at huv hvw ⊢
    -- the first elements compare, and not downwards
    obtain ⟨p', huv', hp', huv⟩ : ∃ p', u.compare? v = some p' ∧ p' ≠ .gt ∧
        (p' = .eq → compareList? us vs = some p) := by
      split at huv
      · next heq => exact ⟨.eq, heq, by decide, fun _ => huv⟩
      · next hne => exact ⟨p, huv, hp, fun h => absurd (h ▸ huv) hne⟩
    obtain ⟨q', hvw', hq', hvw⟩ : ∃ q', v.compare? w = some q' ∧ q' ≠ .gt ∧
        (q' = .eq → compareList? vs ws = some q) := by
      split at hvw
      · next heq => exact ⟨.eq, heq, by decide, fun _ => hvw⟩
      · next hne => exact ⟨q, hvw, hq, fun h => absurd (h ▸ hvw) hne⟩
    have hsome := isSome_compare? hN u v w hu.1 hv.1 hw.1 huv' hp' hvw' hq'
    split
    · next heq =>
      have hcomposes := hN.composes_sortOrder u v w hu.1 hv.1 hw.1
      rw [sortOrder_of_compare? u v huv', sortOrder_of_compare? v w hvw',
        sortOrder_of_compare? u w heq] at hcomposes
      obtain ⟨rfl, rfl⟩ : p' = .eq ∧ q' = .eq := by
        obtain ⟨hleft, hright, hboth⟩ := hcomposes
        cases p' <;> cases q' <;> simp_all
      exact isSome_compareList? hN us vs ws hu.2 hv.2 hw.2 (huv rfl) hp (hvw rfl) hq
    · exact hsome

end

/-- **On values whose numbers are apart the comparison is transitive**, upwards and downwards. -/
theorem Apart.compare?_trans {N : Set Value} (hN : Apart N) {u v w : Value} {o : Ordering}
    (hu : ∀ n ∈ u.numbers, n ∈ N) (hv : ∀ n ∈ v.numbers, n ∈ N) (hw : ∀ n ∈ w.numbers, n ∈ N)
    (huv : u.compare? v = some o) (hvw : v.compare? w = some o) : u.compare? w = some o := by
  have hup : ∀ {p : Ordering} {u v w : Value}, p ≠ .gt → (∀ n ∈ u.numbers, n ∈ N) →
      (∀ n ∈ v.numbers, n ∈ N) → (∀ n ∈ w.numbers, n ∈ N) → u.compare? v = some p →
      v.compare? w = some p → u.compare? w = some p := by
    intro p u v w hp hu hv hw huv hvw
    obtain ⟨r, hr⟩ := Option.isSome_iff_exists.mp
      (hN.isSome_compare? u v w hu hv hw huv hp hvw hp)
    have hcomposes := hN.composes_sortOrder u v w hu hv hw
    rw [sortOrder_of_compare? u v huv, sortOrder_of_compare? v w hvw,
      sortOrder_of_compare? u w hr] at hcomposes
    rw [hr, hcomposes.2.2 rfl]
  by_cases ho : o = .gt
  · subst ho
    have hwv : w.compare? v = some .lt := by rw [compare?_swap v w, hvw]; rfl
    have hvu : v.compare? u = some .lt := by rw [compare?_swap u v, huv]; rfl
    rw [compare?_swap w u, hup (by decide) hw hv hu hwv hvu]
    rfl
  · exact hup ho hu hv hw huv hvw

/-! ## Values without floats -/

/-- Whether there is no float in a value. -/
def isFloatFree (v : Value) : Bool := v.numbers.all (fun n => decide (n.kind ≠ .float))

/-- Whether there is no NaN in a value. -/
def isNaNFree (v : Value) : Bool := v.numbers.all (fun n => !n.isNaN)

/-- Without floats there is no NaN. -/
lemma isNaNFree_of_isFloatFree {v : Value} (h : v.isFloatFree = true) : v.isNaNFree = true := by
  rw [isNaNFree, List.all_eq_true]
  intro n hn
  have hkind := List.all_eq_true.mp h n hn
  cases n <;> simp_all [isNaN, kind]

/-- Without floats, numbers are apart. -/
lemma apart_of_isFloatFree {vs : List Value} (h : ∀ v ∈ vs, v.isFloatFree = true) :
    Apart {n | ∃ v ∈ vs, n ∈ v.numbers} :=
  apart_of_no_float fun _ ⟨v, hv, hx⟩ => by simpa [kind] using List.all_eq_true.mp (h v hv) _ hx

/-- The numbers in a list without floats are in elements without floats. -/
lemma isFloatFree_list_cons {v : Value} {vs : List Value} :
    (list (v :: vs)).isFloatFree = (v.isFloatFree && (list vs).isFloatFree) := by
  simp only [isFloatFree, numbers, numbersList, List.all_append]

/-- The numbers in a list without a NaN are in elements without one. -/
lemma isNaNFree_list_cons {v : Value} {vs : List Value} :
    (list (v :: vs)).isNaNFree = (v.isNaNFree && (list vs).isNaNFree) := by
  simp only [isNaNFree, numbers, numbersList, List.all_append]

/-- There is no NaN in a list whose elements are without one. -/
lemma isNaNFree_list {vs : List Value} (h : ∀ v ∈ vs, v.isNaNFree = true) :
    (list vs).isNaNFree = true := by
  induction vs with
  | nil => rfl
  | cons v vs ih =>
    obtain ⟨hv, hvs⟩ := List.forall_mem_cons.mp h
    rw [isNaNFree_list_cons, hv, ih hvs, Bool.and_self]

/-- Without floats, values that tie are the same, if the first one is not a list.

**Proof sketch.** Values that tie are of the same rank. Without floats each rank has one kind of
value, whose order distinguishes what is different. -/
lemma eq_of_sortOrder_eq_of_ne_list {v w : Value} (hlist : v.rank ≠ 5)
    (hv : v.isFloatFree = true) (hw : w.isFloatFree = true) (h : v.sortOrder w = .eq) : v = w := by
  have hrank : v.rank = w.rank := by
    by_contra hne
    rw [sortOrder_of_rank_ne hne] at h
    exact hne (Nat.compare_eq_eq.mp h)
  cases v with
  | null => exact (eq_null_of_rank hrank.symm).symm
  | boolean a =>
    obtain ⟨b, rfl⟩ := exists_boolean_of_rank hrank.symm
    rw [sortOrder_boolean, Int.compare_eq_eq, Int64.toInt_inj] at h
    cases a <;> cases b <;> simp_all [boolInt]
  | integer a =>
    rcases exists_number_of_rank hrank.symm with ⟨b, rfl⟩ | ⟨x, rfl⟩
    · rw [sortOrder, Int.compare_eq_eq, Int64.toInt_inj] at h
      rw [h]
    · cases hw
  | float x => cases hv
  | text s =>
    obtain ⟨t, rfl⟩ := exists_text_of_rank hrank.symm
    rw [sortOrder_text] at h
    rw [Std.LawfulEqCmp.eq_of_compare h]
  | blob as =>
    obtain ⟨bs, rfl⟩ := exists_blob_of_rank hrank.symm
    rw [sortOrder_blob] at h
    have hbytes : Std.LawfulEqCmp (compareOn UInt8.toNat) :=
      ⟨fun h => UInt8.toNat_inj.mp (Nat.compare_eq_eq.mp h)⟩
    rw [Std.LawfulEqCmp.eq_of_compare h]
  | list vs => exact absurd rfl hlist

mutual

/-- **Without floats, values that tie are the same.** -/
theorem eq_of_sortOrder_eq : (v w : Value) → v.isFloatFree = true → w.isFloatFree = true →
    v.sortOrder w = .eq → v = w
  | list vs, w, hv, hw, h => by
    by_cases hrank : (list vs).rank = w.rank
    · obtain ⟨ws, rfl⟩ := exists_list_of_rank hrank.symm
      rw [sortOrder_list] at h
      exact congrArg list (eq_of_sortOrderList_eq vs ws hv hw h)
    · rw [sortOrder_of_rank_ne hrank] at h
      exact absurd (Nat.compare_eq_eq.mp h) hrank
  | null, _, hv, hw, h | boolean _, _, hv, hw, h | integer _, _, hv, hw, h | float _, _, hv, hw, h
  | text _, _, hv, hw, h | blob _, _, hv, hw, h =>
    eq_of_sortOrder_eq_of_ne_list (by simp [rank]) hv hw h

/-- The same of lists. -/
theorem eq_of_sortOrderList_eq : (vs ws : List Value) → (list vs).isFloatFree = true →
    (list ws).isFloatFree = true → sortOrderList vs ws = .eq → vs = ws
  | [], ws, _, _, h => by cases ws <;> simp_all [sortOrderList]
  | _ :: _, [], _, _, h => by simp [sortOrderList] at h
  | v :: vs, w :: ws, hv, hw, h => by
    rw [isFloatFree_list_cons, Bool.and_eq_true] at hv hw
    rw [sortOrderList, Ordering.then_eq_eq] at h
    rw [eq_of_sortOrder_eq v w hv.1 hw.1 h.1, eq_of_sortOrderList_eq vs ws hv.2 hw.2 h.2]

end

/-! ## Values and themselves -/

mutual

/-- **A value equals itself unless there is a NaN in it.** -/
theorem equal_self : (v : Value) → v.equal v = v.isNaNFree
  | list vs => by
    rw [equal]
    exact equalList_self vs
  | float x => by simp [equal, isNaNFree, numbers, isNaN, Binary64.equal]
  | null | boolean _ | integer _ | text _ | blob _ => by simp [equal, isNaNFree, numbers, isNaN]

/-- The same of lists. -/
theorem equalList_self : (vs : List Value) → equalList vs vs = (list vs).isNaNFree
  | [] => rfl
  | v :: vs => by rw [equalList, isNaNFree_list_cons, equal_self v, equalList_self vs]

end

/-- A value without a NaN can be compared with itself, if it is not a list. -/
lemma compare?_self_of_ne_list {v : Value} (hlist : v.rank ≠ 5) (h : v.isNaNFree = true) :
    v.compare? v = some .eq := by
  have hnan : v.isNaN = false := by
    cases v <;> simp_all [isNaNFree, numbers, isNaN]
  have hsome := isSome_compare?_of_rank (v := v) rfl hlist
  rw [hnan] at hsome
  obtain ⟨o, ho⟩ := Option.isSome_iff_exists.mp hsome
  rw [ho, ← sortOrder_of_compare? v v ho, eq_of_eq_swap (sortOrder_swap v v)]

mutual

/-- A value without a NaN can be compared with itself. -/
theorem compare?_self : (v : Value) → v.isNaNFree = true → v.compare? v = some .eq
  | list vs, h => by
    rw [compare?]
    exact compareList?_self vs h
  | null, h | boolean _, h | integer _, h | float _, h | text _, h | blob _, h =>
    compare?_self_of_ne_list (by simp [rank]) h

/-- The same of lists. -/
theorem compareList?_self : (vs : List Value) → (list vs).isNaNFree = true →
    compareList? vs vs = some .eq
  | [], _ => rfl
  | v :: vs, h => by
    rw [isNaNFree_list_cons, Bool.and_eq_true] at h
    rw [compareList?, compare?_self v h.1]
    exact compareList?_self vs h.2

end

end Value

end RecordQuery
