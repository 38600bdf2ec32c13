import Mathlib.Data.List.Induction
import Mathlib.Tactic.Lemma

set_option autoImplicit false

/-!
# Dropping duplicates

What is left of a list without its duplicates, for any notion of when an element repeats another
one. It is described by what one more element at the end makes of it.

## Main results

* `eraseDupsBy_concat` — one more element is kept unless it repeats one that was kept.
* `pairwise_eraseDupsBy` — no element that was kept repeats an earlier one.
* `exists_of_mem_eraseDupsBy` — every element was kept or repeats one that was.
* `filter_eraseDupsBy` — elements that repeat nothing are all kept.
* `map_eraseDupsBy` — dropping duplicates among things that are shown as others.
* `foldl_eq_eraseDups` — collecting what has not been seen yet drops duplicates.
-/

namespace RecordQuery

variable {α β : Type} {r : α → α → Bool} {a : α} {as : List α}

/-- **One more element is kept unless it repeats one that was kept.** -/
theorem eraseDupsBy_concat (r : α → α → Bool) (as : List α) (a : α) :
    (as ++ [a]).eraseDupsBy r =
      if (as.eraseDupsBy r).any (r a) then as.eraseDupsBy r else as.eraseDupsBy r ++ [a] := by
  suffices hloop : ∀ kept : List α, List.eraseDupsBy.loop r (as ++ [a]) kept =
      if (List.eraseDupsBy.loop r as kept).any (r a) then List.eraseDupsBy.loop r as kept
      else List.eraseDupsBy.loop r as kept ++ [a] from hloop []
  induction as with
  | nil =>
    intro kept
    cases h : kept.any (r a) <;> simp [List.eraseDupsBy.loop, h]
  | cons b as ih =>
    intro kept
    rw [List.cons_append, List.eraseDupsBy.loop, List.eraseDupsBy.loop]
    cases kept.any (r b) <;> exact ih _

/-- Dropping duplicates adds nothing. -/
lemma mem_of_mem_eraseDupsBy (h : a ∈ as.eraseDupsBy r) : a ∈ as := by
  induction as using List.reverseRecOn with
  | nil => cases h
  | append_singleton as b ih =>
    rw [eraseDupsBy_concat] at h
    split at h
    · exact List.mem_append_left _ (ih h)
    · exact (List.mem_append.mp h).elim (fun h => List.mem_append_left _ (ih h))
        (List.mem_append_right _)

/-- No element that was kept repeats an earlier one. -/
lemma pairwise_eraseDupsBy (r : α → α → Bool) (as : List α) :
    (as.eraseDupsBy r).Pairwise fun b c => r c b = false := by
  induction as using List.reverseRecOn with
  | nil => exact .nil
  | append_singleton as a ih =>
    rw [eraseDupsBy_concat]
    split
    · exact ih
    · next hnew =>
      rw [List.pairwise_append]
      refine ⟨ih, List.pairwise_singleton _ a, fun b hb c hc => ?_⟩
      rw [List.mem_singleton.mp hc]
      exact Bool.eq_false_iff.mpr fun h => hnew (List.any_eq_true.mpr ⟨b, hb, h⟩)

/-- Every element was kept or repeats one that was. -/
lemma exists_of_mem_eraseDupsBy (h : a ∈ as) :
    a ∈ as.eraseDupsBy r ∨ ∃ b ∈ as.eraseDupsBy r, r a b = true := by
  induction as using List.reverseRecOn with
  | nil => cases h
  | append_singleton as c ih =>
    rw [eraseDupsBy_concat]
    rcases List.mem_append.mp h with h | h
    · split
      · exact ih h
      · exact (ih h).imp (List.mem_append_left _)
          fun ⟨b, hb, hab⟩ => ⟨b, List.mem_append_left _ hb, hab⟩
    · rw [List.mem_singleton.mp h]
      split
      · next hrepeats => exact .inr (List.any_eq_true.mp hrepeats)
      · exact .inl (List.mem_append_right _ (List.mem_singleton_self c))

/-- Elements that repeat nothing, not even themselves, are all kept. -/
lemma filter_eraseDupsBy {p : α → Bool} (h : ∀ a b, p a = true → r a b = false) (as : List α) :
    (as.eraseDupsBy r).filter p = as.filter p := by
  induction as using List.reverseRecOn with
  | nil => rfl
  | append_singleton as a ih =>
    rw [eraseDupsBy_concat, List.filter_append]
    split
    · next hrepeats =>
      obtain ⟨b, -, hab⟩ := List.any_eq_true.mp hrepeats
      have hp : p a = false := Bool.eq_false_iff.mpr fun hp => by simp [h a b hp] at hab
      rw [ih, List.filter_cons_of_neg (by simp [hp]), List.filter_nil, List.append_nil]
    · rw [List.filter_append, ih]

/-- Dropping duplicates among things that are shown as others. -/
lemma map_eraseDupsBy {r' : β → β → Bool} {f : α → β} (as : List α)
    (h : ∀ a ∈ as, ∀ b ∈ as, r a b = r' (f a) (f b)) :
    (as.eraseDupsBy r).map f = (as.map f).eraseDupsBy r' := by
  induction as using List.reverseRecOn with
  | nil => rfl
  | append_singleton as a ih =>
    have hkept := ih fun b hb c hc => h b (List.mem_append_left _ hb) c (List.mem_append_left _ hc)
    have hany : (as.eraseDupsBy r).any (r a) = ((as.map f).eraseDupsBy r').any (r' (f a)) := by
      have hsame : ∀ b ∈ as.eraseDupsBy r, r a b = r' (f a) (f b) := fun b hb =>
        h a (List.mem_append_right _ (List.mem_singleton_self a)) b
          (List.mem_append_left _ (mem_of_mem_eraseDupsBy hb))
      rw [← hkept, List.any_map, Bool.eq_iff_iff, List.any_eq_true, List.any_eq_true]
      exact exists_congr fun b => and_congr_right fun hb => by rw [hsame b hb, Function.comp_apply]
    rw [List.map_append, List.map_singleton, eraseDupsBy_concat, eraseDupsBy_concat, ← hany]
    split
    · exact hkept
    · rw [List.map_append, List.map_singleton, hkept]

/-- Nothing occurs twice when the duplicates of equal elements were dropped. -/
lemma nodup_eraseDups [DecidableEq α] (as : List α) : as.eraseDups.Nodup := by
  refine (pairwise_eraseDupsBy (· == ·) as).imp fun hbc => ?_
  exact Ne.symm (beq_eq_false_iff_ne.mp hbc)

/-- **Collecting what has not been seen yet** drops duplicates. By induction on the list, from the
last element. -/
theorem foldl_eq_eraseDups [DecidableEq α] (as : List α) :
    as.foldl (fun seen a => if a ∈ seen then seen else seen ++ [a]) [] = as.eraseDups := by
  induction as using List.reverseRecOn with
  | nil => rfl
  | append_singleton as a ih =>
    rw [List.foldl_append, ih, List.eraseDups, List.eraseDups, eraseDupsBy_concat, List.foldl_cons,
      List.foldl_nil]
    refine if_congr ?_ rfl rfl
    rw [List.any_eq_true]
    exact ⟨fun h => ⟨a, h, beq_self_eq_true a⟩, fun ⟨b, hb, hab⟩ => eq_of_beq hab ▸ hb⟩

end RecordQuery
