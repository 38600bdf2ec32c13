import Mathlib.Data.List.Induction
import Mathlib.Tactic.Lemma
import RecordQuery.StableSort

set_option autoImplicit false

/-!
# Comparisons and stable sorting

A comparison that is a total preorder, at least on the elements at hand, has exactly one stable
sort: the permutation of a list in which no element is greater than a later one, and elements that
compare equal stand as they stood.

## Main definitions

* `Composes` — what a total preorder says about the three comparisons of three elements.
* `PreorderOn` — a comparison that is a total preorder on the elements with a property.
* `IsStableSort` — a list is the stable sort of another.

## Main results

* `Composes.lex` — lexicographic comparison of preorders is one.
* `PreorderOn.isStableSort_stableSort` — `stableSort` sorts stably.
* `IsStableSort.unique` — there is one stable sort.
-/

namespace RecordQuery

/-! ## Three comparisons of three elements -/

/-- The comparisons of `a` with `b`, of `b` with `c` and of `a` with `c` as a total preorder has
them: equal elements compare alike with the third, and two steps in one direction add up. -/
def Composes (ab bc ac : Ordering) : Prop :=
  (ab = .eq → ac = bc) ∧ (bc = .eq → ac = ab) ∧ (ab = bc → ac = ab)

namespace Composes

variable {p q r p' q' r' : Ordering}

/-- A lexicographic comparison composes if its first part does, and its second part does among
elements that the first part does not tell apart. -/
theorem lex (h : Composes p q r) (h' : p = .eq → q = .eq → Composes p' q' r') :
    Composes (p.then p') (q.then q') (r.then r') := by
  obtain ⟨hleft, hright, hboth⟩ := h
  cases p <;> cases q <;> cases r <;> simp_all [Composes, Ordering.then]

/-- Reversed comparisons compose. -/
lemma swap (h : Composes p q r) : Composes p.swap q.swap r.swap := by
  obtain ⟨hleft, hright, hboth⟩ := h
  cases p <;> cases q <;> simp_all [Composes]

/-- Not being greater is transitive. -/
lemma ne_gt (h : Composes p q r) (hp : p ≠ .gt) (hq : q ≠ .gt) : r ≠ .gt := by
  obtain ⟨hleft, hright, hboth⟩ := h
  cases p <;> cases q <;> simp_all

end Composes

/-- The comparisons of a lawful order compose. -/
theorem composes_cmp {α : Type} (cmp : α → α → Ordering) [Std.TransCmp cmp] (a b c : α) :
    Composes (cmp a b) (cmp b c) (cmp a c) := by
  refine ⟨Std.TransCmp.congr_left, fun h => (Std.TransCmp.congr_right h).symm, fun h => ?_⟩
  cases hab : cmp a b with
  | lt => exact Std.TransCmp.lt_trans hab (h ▸ hab)
  | eq => exact Std.TransCmp.eq_trans hab (h ▸ hab)
  | gt => exact Std.TransCmp.gt_trans hab (h ▸ hab)

/-- A comparison that is its own reversal says that the elements are equal. -/
lemma eq_of_eq_swap {o : Ordering} (h : o = o.swap) : o = .eq := by
  cases o <;> simp_all

/-! ## Preorders on part of a type -/

variable {α : Type} {cmp : α → α → Ordering} {S : α → Prop}

/-- A comparison that is a total preorder on the elements with a property. -/
structure PreorderOn (cmp : α → α → Ordering) (S : α → Prop) : Prop where
  /-- The comparison the other way round is the reverse. -/
  swap : ∀ a b, S a → S b → cmp b a = (cmp a b).swap
  /-- Three comparisons fit together. -/
  composes : ∀ a b c, S a → S b → S c → Composes (cmp a b) (cmp b c) (cmp a c)

namespace PreorderOn

/-- An element compares equal with itself. -/
lemma refl (h : PreorderOn cmp S) {a : α} (ha : S a) : cmp a a = .eq :=
  eq_of_eq_swap (h.swap a a ha ha)

/-- Elements in order the one way are not smaller the other way. -/
lemma ne_gt_iff (h : PreorderOn cmp S) {a b : α} (ha : S a) (hb : S b) :
    cmp a b ≠ .gt ↔ cmp b a ≠ .lt := by
  rw [h.swap a b ha hb]
  cases cmp a b <;> simp

/-- A preorder on what is read off the elements. -/
lemma comap {β : Type} (h : PreorderOn cmp S) (f : β → α) :
    PreorderOn (fun a b => cmp (f a) (f b)) fun b => S (f b) where
  swap := fun a b => h.swap (f a) (f b)
  composes := fun a b c => h.composes (f a) (f b) (f c)

end PreorderOn

/-! ## Stable sorts -/

/-- A list is the stable sort of another: a permutation of it, without an element that is greater
than a later one, in which the elements that compare equal to any given one are those of the input
in the input's order. -/
structure IsStableSort (cmp : α → α → Ordering) (as sorted : List α) : Prop where
  /-- No element is added or lost. -/
  perm : sorted.Perm as
  /-- The elements never decrease. -/
  pairwise : sorted.Pairwise fun a b => cmp a b ≠ .gt
  /-- Ties keep their order. -/
  stable : ∀ a ∈ as, sorted.filter (cmp a · == .eq) = as.filter (cmp a · == .eq)

/-- Where an element is inserted: behind it, everything it precedes; before it, either nothing or
an element that it does not precede. -/
lemma exists_insertFromEnd (precedes : α → α → Bool) (a : α) (bs : List α) :
    ∃ back front, bs = back ++ front ∧ insertFromEnd precedes a bs = back ++ a :: front ∧
      (∀ b ∈ back, precedes a b = true) ∧ ∀ b ∈ front.head?, precedes a b = false := by
  induction bs with
  | nil => exact ⟨[], [], rfl, rfl, by simp, by simp⟩
  | cons b bs ih =>
    cases hb : precedes a b with
    | false => exact ⟨[], b :: bs, rfl, by simp [insertFromEnd, hb], by simp, by simp [hb]⟩
    | true =>
      obtain ⟨back, front, rfl, hins, hback, hfront⟩ := ih
      refine ⟨b :: back, front, rfl, by simp [insertFromEnd, hb, hins], ?_, hfront⟩
      exact List.forall_mem_cons.mpr ⟨hb, hback⟩

/-- The sort of a longer list inserts its last element into the sort of the others. -/
lemma exists_stableSort_concat (precedes : α → α → Bool) (as : List α) (a : α) :
    ∃ front back, stableSort precedes as = front ++ back ∧
      stableSort precedes (as ++ [a]) = front ++ a :: back ∧
      (∀ b ∈ back, precedes a b = true) ∧ ∀ b ∈ front.getLast?, precedes a b = false := by
  obtain ⟨back, front, hsplit, hins, hback, hfront⟩ :=
    exists_insertFromEnd precedes a
      (as.foldl (fun sorted a => insertFromEnd precedes a sorted) [])
  refine ⟨front.reverse, back.reverse, ?_, ?_, ?_, ?_⟩
  · rw [stableSort, hsplit, List.reverse_append]
  · rw [stableSort, List.foldl_append, List.foldl_cons, List.foldl_nil, hins]
    simp
  · simpa using hback
  · simpa using hfront

/-- Sorting permutes. -/
theorem perm_stableSort (precedes : α → α → Bool) (as : List α) :
    (stableSort precedes as).Perm as := by
  induction as using List.reverseRecOn with
  | nil => rfl
  | append_singleton as a ih =>
    obtain ⟨front, back, hsplit, hsort, -, -⟩ := exists_stableSort_concat precedes as a
    rw [hsort]
    rw [hsplit] at ih
    calc (front ++ a :: back).Perm (a :: (front ++ back)) := List.perm_middle
      List.Perm _ (a :: as) := ih.cons a
      List.Perm _ (as ++ [a]) := (List.perm_append_singleton a as).symm

/-- Elements of which none precedes another stay as they are. -/
lemma stableSort_of_ties {precedes : α → α → Bool} (h : ∀ a b, precedes a b = false)
    (as : List α) : stableSort precedes as = as := by
  induction as using List.reverseRecOn with
  | nil => rfl
  | append_singleton as a ih =>
    obtain ⟨front, back, hsplit, hsort, hback, -⟩ := exists_stableSort_concat precedes as a
    obtain rfl : back = [] :=
      List.eq_nil_iff_forall_not_mem.mpr fun b hb => by simpa [h] using hback b hb
    rw [hsort, ← ih, hsplit, List.append_nil]

/-- What holds of all elements holds of the sorted ones. -/
lemma forall_stableSort {precedes : α → α → Bool} {as : List α} (has : ∀ a ∈ as, S a) :
    ∀ a ∈ stableSort precedes as, S a :=
  fun a ha => has a ((perm_stableSort precedes as).subset ha)

namespace PreorderOn

/-- Where the last element is not greater than another, none is. -/
private lemma ne_gt_of_getLast? (h : PreorderOn cmp S) {front : List α} {a : α}
    (hfront : ∀ b ∈ front, S b) (ha : S a)
    (hsorted : front.Pairwise fun b c => cmp b c ≠ .gt)
    (hlast : ∀ b ∈ front.getLast?, (cmp a b == .lt) = false) :
    ∀ b ∈ front, cmp b a ≠ .gt := by
  intro b hb
  obtain ⟨init, c, rfl⟩ : ∃ init c, front = init ++ [c] :=
    ⟨_, _, (List.dropLast_concat_getLast (List.ne_nil_of_mem hb)).symm⟩
  have hc : S c := hfront c (by simp)
  have hca : cmp c a ≠ .gt := (h.ne_gt_iff hc ha).mpr (by simpa using hlast c (by simp))
  rcases List.mem_append.mp hb with hinit | hend
  · have hbc : cmp b c ≠ .gt := (List.pairwise_append.mp hsorted).2.2 b hinit c (by simp)
    exact (h.composes b c a (hfront b hb) hc ha).ne_gt hbc hca
  · rw [List.mem_singleton.mp hend]
    exact hca

/-- Sorting sorts.

**Proof sketch.** By induction on the list from the end. The last element is inserted in front of
those that are greater than it, and behind one that is not greater, so that by transitivity none of
the elements before it is. -/
lemma pairwise_stableSort (h : PreorderOn cmp S) {as : List α} (has : ∀ a ∈ as, S a) :
    (stableSort (fun a b => cmp a b == .lt) as).Pairwise fun a b => cmp a b ≠ .gt := by
  induction as using List.reverseRecOn with
  | nil => exact List.Pairwise.nil
  | append_singleton as a ih =>
    obtain ⟨front, back, hsplit, hsort, hback, hlast⟩ :=
      exists_stableSort_concat (fun a b => cmp a b == .lt) as a
    have hSas : ∀ b ∈ as, S b := fun b hb => has b (List.mem_append_left _ hb)
    have hS : ∀ b ∈ front ++ back, S b := hsplit ▸ forall_stableSort hSas
    have hpair := ih hSas
    rw [hsplit, List.pairwise_append] at hpair
    obtain ⟨hfront, hbackPair, hcross⟩ := hpair
    have hle : ∀ b ∈ front, cmp b a ≠ .gt :=
      h.ne_gt_of_getLast? (fun b hb => hS b (List.mem_append_left _ hb)) (has a (by simp))
        hfront hlast
    rw [hsort, List.pairwise_append, List.pairwise_cons]
    refine ⟨hfront, ⟨fun b hb => ?_, hbackPair⟩, fun b hb c hc => ?_⟩
    · simp [beq_iff_eq.mp (hback b hb)]
    · rcases List.mem_cons.mp hc with rfl | hc
      · exact hle b hb
      · exact hcross b hb c hc

/-- Sorting keeps ties in order.

**Proof sketch.** By induction on the list from the end. The last element is inserted behind all
elements that tie with it, so it is the last of its ties in the sorted list as in the given one. -/
lemma filter_stableSort (h : PreorderOn cmp S) {as : List α} (has : ∀ a ∈ as, S a) {c : α}
    (hc : S c) :
    (stableSort (fun a b => cmp a b == .lt) as).filter (cmp c · == .eq) =
      as.filter (cmp c · == .eq) := by
  induction as using List.reverseRecOn with
  | nil => rfl
  | append_singleton as a ih =>
    obtain ⟨front, back, hsplit, hsort, hback, -⟩ :=
      exists_stableSort_concat (fun a b => cmp a b == .lt) as a
    have hSas : ∀ b ∈ as, S b := fun b hb => has b (List.mem_append_left _ hb)
    have hS : ∀ b ∈ front ++ back, S b := hsplit ▸ forall_stableSort hSas
    have hold := ih hSas
    rw [hsplit, List.filter_append] at hold
    rw [hsort, List.filter_append, List.filter_append, List.filter_cons, ← hold]
    cases hca : cmp c a == .eq with
    | false => simp [hca]
    | true =>
      -- behind the inserted element nothing compares equal with what it compares equal with
      have hnone : back.filter (cmp c · == .eq) = [] := by
        rw [List.filter_eq_nil_iff]
        intro b hb
        have hcb : cmp c b = cmp a b :=
          (h.composes c a b hc (has a (by simp)) (hS b (List.mem_append_right _ hb))).1
            (beq_iff_eq.mp hca)
        simp [hcb, beq_iff_eq.mp (hback b hb)]
      simp [hca, hnone]

/-- **Sorting is stable.** On elements that a comparison totally preorders, `stableSort` yields a
stable sort. -/
theorem isStableSort_stableSort (h : PreorderOn cmp S) {as : List α} (has : ∀ a ∈ as, S a) :
    IsStableSort cmp as (stableSort (fun a b => cmp a b == .lt) as) where
  perm := perm_stableSort _ as
  pairwise := h.pairwise_stableSort has
  stable := fun a ha => h.filter_stableSort has (has a ha)

end PreorderOn

namespace IsStableSort

/-- The head of a sorted list is not greater than any element. -/
private lemma head_ne_gt (h : PreorderOn cmp S) {b : α} {bs : List α} (hb : S b)
    (hsorted : (b :: bs).Pairwise fun a c => cmp a c ≠ .gt) {c : α} (hc : c ∈ b :: bs) :
    cmp b c ≠ .gt := by
  rcases List.mem_cons.mp hc with rfl | hc
  · simp [h.refl hb]
  · exact (List.pairwise_cons.mp hsorted).1 c hc

/-- Sorted permutations of each other whose ties stand alike are equal.

**Proof sketch.** By induction on the first list. The heads are ties of each other, as each is not
greater than the other one, and of the ties each is the first. Without the heads the ties still
stand alike. -/
private lemma eq_of_perm (h : PreorderOn cmp S) {bs cs : List α} (hperm : bs.Perm cs)
    (hS : ∀ a ∈ bs, S a) (hb : bs.Pairwise fun a c => cmp a c ≠ .gt)
    (hc : cs.Pairwise fun a c => cmp a c ≠ .gt)
    (hstable : ∀ a ∈ bs, bs.filter (cmp a · == .eq) = cs.filter (cmp a · == .eq)) : bs = cs := by
  induction bs generalizing cs with
  | nil => exact hperm.nil_eq
  | cons b bs ih =>
    obtain ⟨c, cs, rfl⟩ : ∃ c cs', cs = c :: cs' :=
      List.exists_cons_of_ne_nil (by rintro rfl; simpa using hperm.length_eq)
    have hSb : S b := hS b (by simp)
    have hSc : S c := hS c (hperm.symm.subset (by simp))
    have htie : cmp b c = .eq := by
      have hbc : cmp b c ≠ .gt := head_ne_gt h hSb hb (hperm.symm.subset (by simp))
      have hcb : cmp c b ≠ .gt := head_ne_gt h hSc hc (hperm.subset (by simp))
      rw [h.swap b c hSb hSc] at hcb
      cases hcmp : cmp b c <;> simp_all
    obtain rfl : b = c := by
      have hfirst := congrArg List.head? (hstable b (by simp))
      simpa [h.refl hSb, htie] using hfirst
    refine congrArg (b :: ·) (ih hperm.cons_inv (fun a ha => hS a (by simp [ha]))
      (List.pairwise_cons.mp hb).2 (List.pairwise_cons.mp hc).2 fun a ha => ?_)
    have hall := hstable a (by simp [ha])
    rw [List.filter_cons, List.filter_cons] at hall
    split at hall
    · exact (List.cons.inj hall).2
    · exact hall

/-- **There is one stable sort.** -/
theorem unique (h : PreorderOn cmp S) {as bs cs : List α} (has : ∀ a ∈ as, S a)
    (hb : IsStableSort cmp as bs) (hc : IsStableSort cmp as cs) : bs = cs := by
  have hmem : ∀ a ∈ bs, a ∈ as := fun a ha => hb.perm.subset ha
  refine eq_of_perm h (hb.perm.trans hc.perm.symm) (fun a ha => has a (hmem a ha)) hb.pairwise
    hc.pairwise fun a ha => ?_
  rw [hb.stable a (hmem a ha), hc.stable a (hmem a ha)]

end IsStableSort

end RecordQuery
