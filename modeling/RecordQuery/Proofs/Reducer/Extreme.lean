import Mathlib.Data.List.Perm.Basic
import RecordQuery.Proofs.Reducer.Aggregate
import RecordQuery.Proofs.Value.PartialOrder

set_option autoImplicit false

/-!
# The least and the greatest value

The least and the greatest value of a column are found by the comparison of expressions: a value is
kept until one comes that lies beyond it. Values that cannot be compared with the one that is kept
are passed over. So nothing lies beyond the outcome, but it is the end of the sort order, and the
same in every order of the inputs, only if the value at that end can be compared with all the
others.

## Main definitions

* `Value.IsExtreme` — a value that can be compared with all of some values, with none beyond it.

## Main results

* `Accumulator.exists_foldl_better` — what is kept was reached from the first value, and nothing
  lies beyond it.
* `Accumulator.sortOrder_outcome_of_isExtreme` — it ties with an extreme.
* `Accumulator.outcome_extreme_iff` — when it is the end of the sort order, in every order.
-/

namespace RecordQuery

/-- A value among others that can be compared with each of them, and none of them lies beyond it. -/
def Value.IsExtreme (o : Ordering) (vs : List Value) (m : Value) : Prop :=
  m ∈ vs ∧ ∀ w ∈ vs, ∃ p, m.compare? w = some p ∧ p ≠ o

namespace Accumulator

open Value

variable {kind : AggregateKind} {o : Ordering} {N : Set Value} {inputs others : List (Option Value)}
  {vs : List Value} {v w m : Value}

/-- The value that is kept of two. -/
lemma better_some (o : Ordering) (w v : Value) :
    better o (some w) v = some (if w.compare? v = some o then v else w) := by
  rw [better]
  by_cases h : w.compare? v = some o
  · rw [if_pos h, if_pos (by rw [h]; exact beq_self_eq_true (some o))]
  · rw [if_neg h, if_neg (by simpa using h)]

/-- Lying beyond is strict. -/
lemma ne_eq_of_beyond? (h : kind.beyond? = some o) : o ≠ .eq := by
  cases kind <;> simp_all [AggregateKind.beyond?] <;> simp [← h]

/-- **What is kept was reached from the first value, and nothing lies beyond it.**

**Proof sketch.** By induction on the values. What lies beyond a value that was given up would lie
beyond the one that was kept instead, by transitivity; what was passed over was not beyond the one
that was kept then. -/
theorem exists_foldl_better (hN : Apart N) (ho : o ≠ .eq)
    (hvs : ∀ v ∈ w :: vs, ∀ n ∈ v.numbers, n ∈ N) :
    ∃ r, vs.foldl (better o) (some w) = some r ∧ r ∈ w :: vs ∧ (r = w ∨ w.compare? r = some o) ∧
      ∀ u ∈ w :: vs, r.compare? u ≠ some o := by
  induction vs generalizing w with
  | nil =>
    refine ⟨w, rfl, List.mem_singleton_self w, .inl rfl, fun u hu => ?_⟩
    rw [List.mem_singleton.mp hu]
    exact compare?_self_ne ho w
  | cons v vs ih =>
    rw [List.foldl_cons, better_some]
    by_cases hv : w.compare? v = some o
    · obtain ⟨r, hr, hmem, hreach, hbeyond⟩ :=
        ih fun u hu => hvs u (List.mem_cons_of_mem w hu)
      have hwr : w.compare? r = some o := by
        rcases hreach with rfl | hvr
        · exact hv
        · exact hN.compare?_trans (hvs w (by simp)) (hvs v (by simp))
            (hvs r (List.mem_cons_of_mem w hmem)) hv hvr
      rw [if_pos hv]
      refine ⟨r, hr, List.mem_cons_of_mem w hmem, .inr hwr, ?_⟩
      rw [List.forall_mem_cons]
      refine ⟨fun hrw => compare?_self_ne ho r ?_, hbeyond⟩
      exact hN.compare?_trans (hvs r (List.mem_cons_of_mem w hmem)) (hvs w (by simp))
        (hvs r (List.mem_cons_of_mem w hmem)) hrw hwr
    · obtain ⟨r, hr, hmem, hreach, hbeyond⟩ := ih fun u hu => hvs u <| by
        rcases List.mem_cons.mp hu with rfl | hu
        · exact List.mem_cons_self
        · exact List.mem_cons_of_mem w (List.mem_cons_of_mem v hu)
      have hmem' : r ∈ w :: v :: vs := by
        rcases List.mem_cons.mp hmem with rfl | hmem
        · exact List.mem_cons_self
        · exact List.mem_cons_of_mem w (List.mem_cons_of_mem v hmem)
      rw [if_neg hv]
      rw [List.forall_mem_cons] at hbeyond
      refine ⟨r, hr, hmem', hreach, ?_⟩
      rw [List.forall_mem_cons, List.forall_mem_cons]
      refine ⟨hbeyond.1, fun hrv => hv ?_, hbeyond.2⟩
      rcases hreach with rfl | hwr
      · exact hrv
      · exact hN.compare?_trans (hvs w (by simp)) (hvs r hmem') (hvs v (by simp)) hwr hrv

/-- The same of the outcome. -/
lemma outcome_of_present_eq_cons (hN : Apart N) (hkind : kind.beyond? = some o)
    (hvs : ∀ v ∈ w :: vs, ∀ n ∈ v.numbers, n ∈ N) (h : present inputs = w :: vs) :
    outcome kind inputs ∈ present inputs ∧
      (outcome kind inputs = w ∨ w.compare? (outcome kind inputs) = some o) ∧
      ∀ u ∈ present inputs, (outcome kind inputs).compare? u ≠ some o := by
  obtain ⟨r, hr, hreached⟩ := exists_foldl_better hN (ne_eq_of_beyond? hkind) hvs
  rw [outcome_extreme hkind, h, List.foldl_cons, better, hr]
  exact hreached

/-- Nothing lies beyond the outcome. -/
lemma outcome_mem_present (hN : Apart N) (hkind : kind.beyond? = some o)
    (hvalues : ∀ v ∈ present inputs, ∀ n ∈ v.numbers, n ∈ N) (hne : present inputs ≠ []) :
    outcome kind inputs ∈ present inputs ∧
      ∀ u ∈ present inputs, (outcome kind inputs).compare? u ≠ some o := by
  obtain ⟨w, vs, h⟩ := List.exists_cons_of_ne_nil hne
  have hreached := outcome_of_present_eq_cons hN hkind (h ▸ hvalues) h
  exact ⟨hreached.1, hreached.2.2⟩

/-- **The outcome ties with an extreme**, and so nothing lies beyond it in the sort order. -/
theorem sortOrder_outcome_of_isExtreme (hN : Apart N) (hkind : kind.beyond? = some o)
    (hvalues : ∀ v ∈ present inputs, ∀ n ∈ v.numbers, n ∈ N)
    (hm : IsExtreme o (present inputs) m) :
    (outcome kind inputs).sortOrder m = .eq ∧
      ∀ w ∈ present inputs, (outcome kind inputs).sortOrder w ≠ o := by
  obtain ⟨hmem, hbeyond⟩ := outcome_mem_present hN hkind hvalues (List.ne_nil_of_mem hm.1)
  have htie : (outcome kind inputs).compare? m = some .eq := by
    obtain ⟨p, hp, hpo⟩ := hm.2 _ hmem
    have hback := hbeyond m hm.1
    have ho := ne_eq_of_beyond? hkind
    rw [compare?_swap m, hp] at hback ⊢
    cases p <;> cases o <;> simp_all
  refine ⟨sortOrder_of_compare? _ _ htie, fun w hw => ?_⟩
  obtain ⟨p, hp, hpo⟩ := hm.2 w hw
  have hcomposes := hN.composes_sortOrder _ m w (hvalues _ hmem) (hvalues m hm.1) (hvalues w hw)
  rw [hcomposes.1 (sortOrder_of_compare? _ _ htie), sortOrder_of_compare? m w hp]
  exact hpo

/-- Where all values can be compared, one is an extreme. -/
lemma exists_isExtreme (hN : Apart N) (hkind : kind.beyond? = some o)
    (hvalues : ∀ v ∈ present inputs, ∀ n ∈ v.numbers, n ∈ N) (hne : present inputs ≠ [])
    (hcomparable : ∀ v ∈ present inputs, ∀ w ∈ present inputs, (v.compare? w).isSome = true) :
    ∃ m, IsExtreme o (present inputs) m := by
  obtain ⟨hmem, hbeyond⟩ := outcome_mem_present hN hkind hvalues hne
  refine ⟨_, hmem, fun w hw => ?_⟩
  obtain ⟨p, hp⟩ := Option.isSome_iff_exists.mp (hcomparable _ hmem w hw)
  exact ⟨p, hp, fun h => hbeyond w hw (h ▸ hp)⟩

/-- The values among inputs in another order are in another order. -/
lemma present_perm (h : others.Perm inputs) : (present others).Perm (present inputs) :=
  h.filterMap _

/-- Any value can be the first one. -/
lemma exists_perm_present_eq_cons (h : w ∈ present inputs) :
    ∃ others vs, others.Perm inputs ∧ present others = w :: vs := by
  obtain ⟨front, back, rfl⟩ : ∃ front back, inputs = front ++ some w :: back := by
    obtain ⟨v, hv, hw⟩ := List.mem_filterMap.mp h
    obtain ⟨rfl, -⟩ := Option.filter_eq_some_iff.mp hw
    exact List.append_of_mem hv
  refine ⟨some w :: (front ++ back), present (front ++ back), List.perm_middle.symm, ?_⟩
  have hnull := isNull_of_mem_present h
  simp [present, Option.filter, hnull]

/-- If the outcome is the same in every order, it is an extreme: it was reached from each value. -/
lemma isExtreme_of_forall_perm (hN : Apart N) (hkind : kind.beyond? = some o)
    (hvalues : ∀ v ∈ present inputs, ∀ n ∈ v.numbers, n ∈ N) (hne : present inputs ≠ [])
    (hfree : ∀ v ∈ present inputs, v.isFloatFree = true)
    (hsame : ∀ others : List (Option Value), others.Perm inputs →
      outcome kind others = outcome kind inputs) :
    IsExtreme o (present inputs) (outcome kind inputs) := by
  have hmem := (outcome_mem_present hN hkind hvalues hne).1
  have ho := ne_eq_of_beyond? hkind
  refine ⟨hmem, fun w hw => ?_⟩
  obtain ⟨others, vs, hperm, hothers⟩ := exists_perm_present_eq_cons hw
  have hreached := (outcome_of_present_eq_cons hN hkind (fun v hv => hvalues v <|
    (present_perm hperm).mem_iff.mp (hothers ▸ hv)) hothers).2.1
  rw [hsame others hperm] at hreached
  rcases hreached with hfirst | hbeyond
  · rw [← hfirst, compare?_self _ (isNaNFree_of_isFloatFree (hfree _ hmem))]
    exact ⟨.eq, rfl, ho.symm⟩
  · rw [compare?_swap w, hbeyond]
    refine ⟨o.swap, rfl, ?_⟩
    cases o <;> simp_all

section Orders

variable (hN : Apart N) (hkind : kind.beyond? = some o)
  (hvalues : ∀ v ∈ present inputs, ∀ n ∈ v.numbers, n ∈ N)

include hN hkind hvalues

/-- In another order the outcome is one of the values as well. -/
lemma outcome_mem_of_perm (hne : present inputs ≠ []) (h : others.Perm inputs) :
    outcome kind others ∈ present inputs := by
  have hperm := present_perm h
  refine hperm.mem_iff.mp (outcome_mem_present hN hkind (fun v hv => hvalues v
    (hperm.mem_iff.mp hv)) fun hnil => hne ?_).1
  rw [hnil] at hperm
  exact List.nil_perm.mp hperm

/-- If there is an extreme, then in every order nothing lies beyond the outcome in the sort order.
-/
lemma sortOrder_ne_of_perm (hm : IsExtreme o (present inputs) m) (h : others.Perm inputs) :
    ∀ w ∈ present inputs, (outcome kind others).sortOrder w ≠ o := by
  have hmem : ∀ v, v ∈ present others ↔ v ∈ present inputs := fun v => (present_perm h).mem_iff
  have hothers : IsExtreme o (present others) m :=
    ⟨(hmem m).mpr hm.1, fun w hw => hm.2 w ((hmem w).mp hw)⟩
  intro w hw
  exact (sortOrder_outcome_of_isExtreme hN hkind (fun v hv => hvalues v ((hmem v).mp hv))
    hothers).2 w ((hmem w).mpr hw)

/-- Without floats there is one end of the sort order: if in every order nothing lies beyond the
outcome, it is the same in every order. -/
lemma outcome_eq_of_perm (hne : present inputs ≠ [])
    (hfree : ∀ v ∈ present inputs, v.isFloatFree = true)
    (hend : ∀ others : List (Option Value), others.Perm inputs →
      ∀ w ∈ present inputs, (outcome kind others).sortOrder w ≠ o) (h : others.Perm inputs) :
    outcome kind others = outcome kind inputs := by
  have hmem := outcome_mem_of_perm hN hkind hvalues hne h
  have hmem' := outcome_mem_of_perm hN hkind hvalues hne (.refl inputs)
  have hthere := hend others h _ hmem'
  have hback := hend inputs (.refl inputs) _ hmem
  have ho := ne_eq_of_beyond? hkind
  refine eq_of_sortOrder_eq _ _ (hfree _ hmem) (hfree _ hmem') ?_
  rw [sortOrder_swap (outcome kind others)] at hback
  cases hsort : (outcome kind others).sortOrder (outcome kind inputs) <;> cases o <;> simp_all

/-- **When the outcome is the end of the sort order.** Let there be values among the inputs, with
numbers that are apart. Then the least or greatest of them is one of them, and none can be compared
with it and lies beyond it. If an extreme is among them, which can be compared with all of them,
then in every order of the inputs none lies beyond the outcome in the sort order; and there is one
if any two of them can be compared. Without floats, nothing lies beyond the outcome in every order
only if there is an extreme, and only then the outcome is the same in every order.

**Proof sketch.** The outcome was reached from every value that can come first
(`exists_perm_present_eq_cons`), so that one that is the same in every order can be compared with
each value (`isExtreme_of_forall_perm`). Without floats the end of the sort order is one value
(`outcome_eq_of_perm`). -/
theorem outcome_extreme_iff (hne : present inputs ≠ []) :
    (outcome kind inputs ∈ present inputs ∧
      ∀ w ∈ present inputs, (outcome kind inputs).compare? w ≠ some o) ∧
    ((∀ v ∈ present inputs, ∀ w ∈ present inputs, (v.compare? w).isSome = true) →
      ∃ m, IsExtreme o (present inputs) m) ∧
    ((∃ m, IsExtreme o (present inputs) m) →
      ∀ others : List (Option Value), others.Perm inputs →
        ∀ w ∈ present inputs, (outcome kind others).sortOrder w ≠ o) ∧
    ((∀ v ∈ present inputs, v.isFloatFree = true) →
      ((∃ m, IsExtreme o (present inputs) m) ↔
        ∀ others : List (Option Value), others.Perm inputs →
          ∀ w ∈ present inputs, (outcome kind others).sortOrder w ≠ o) ∧
      ((∃ m, IsExtreme o (present inputs) m) ↔
        ∀ others : List (Option Value), others.Perm inputs →
          outcome kind others = outcome kind inputs)) := by
  have hend : (∃ m, IsExtreme o (present inputs) m) → ∀ others : List (Option Value),
      others.Perm inputs → ∀ w ∈ present inputs, (outcome kind others).sortOrder w ≠ o :=
    fun ⟨m, hm⟩ others h => sortOrder_ne_of_perm hN hkind hvalues hm h
  refine ⟨outcome_mem_present hN hkind hvalues hne, exists_isExtreme hN hkind hvalues hne, hend,
    fun hfree => ?_⟩
  have hexists : (∀ others : List (Option Value), others.Perm inputs →
      outcome kind others = outcome kind inputs) → ∃ m, IsExtreme o (present inputs) m :=
    fun h => ⟨_, isExtreme_of_forall_perm hN hkind hvalues hne hfree h⟩
  have hsame := fun h (others : List (Option Value)) (hothers : others.Perm inputs) =>
    outcome_eq_of_perm hN hkind hvalues hne hfree h hothers
  exact ⟨⟨hend, fun h => hexists (hsame h)⟩, fun h => hsame (hend h), hexists⟩

end Orders

/-- Three texts can be compared with each other, so that the least of them is the same whatever
their order. -/
theorem outcome_extreme_iff_texts :
    let inputs := [some (.text "b"), none, some (.text "a"), some .null, some (.text "c")]
    (∃ m, IsExtreme .gt (present inputs) m) ∧
      ∀ others : List (Option Value), others.Perm inputs → outcome .min others = .text "a" := by
  intro inputs
  have hfree : ∀ v ∈ [Value.text "b", .text "a", .text "c"], v.isFloatFree = true := by decide
  have hcomparable : ∀ v ∈ [Value.text "b", .text "a", .text "c"],
      ∀ w ∈ [Value.text "b", .text "a", .text "c"], (v.compare? w).isSome = true := by decide
  obtain ⟨-, hexists, -, hsame⟩ := @outcome_extreme_iff .min .gt _ inputs
    (apart_of_isFloatFree hfree) rfl (fun v hv n hn => ⟨v, hv, hn⟩) (by decide)
  exact ⟨hexists hcomparable, (hsame hfree).2.mp (hexists hcomparable)⟩

/-- Beside a number, the text that comes first is kept, though it stands behind the number. -/
example :
    outcome .min [some (.text "a"), some (.integer 1)] = .text "a" ∧
      outcome .min [some (.integer 1), some (.text "a")] = .integer 1 ∧
      (Value.text "a").sortOrder (.integer 1) = .gt :=
  ⟨rfl, rfl, rfl⟩

end Accumulator

end RecordQuery
