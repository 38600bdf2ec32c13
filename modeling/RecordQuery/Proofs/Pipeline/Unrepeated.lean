import RecordQuery.Proofs.Pipeline.SetOperation

set_option autoImplicit false

/-!
# Rows that repeat no earlier one

A stage that drops duplicates keeps the encodings of the rows that it returned and compares with
these. The encoding of a row tells its values, so nothing is lost by that: a row is dropped if and
only if an earlier one has the same values, whatever their labels and however far apart they are.

## Main definitions

* `Listing.unrepeated` — the rows of a list without those that have the values of an earlier one.

## Main results

* `Listing.dropDuplicates_eq_unrepeated` — dropping rows with a known encoding leaves these.
* `Cursor.lists_unrepeated` — encodings tell values, and the rows of a stage that drops duplicates.
-/

namespace RecordQuery

namespace Listing

/-- The rows of a list, without those that have the values of an earlier one. -/
def unrepeated (rows : List Row) : List Row :=
  (rows.zipIdx.filter fun p =>
    (rows.take p.2).all fun earlier => !Value.identicalList earlier.values p.1.values).map Prod.fst

/-- One more row is kept unless its values came before. -/
lemma unrepeated_concat (rows : List Row) (row : Row) :
    unrepeated (rows ++ [row]) =
      if rows.any fun earlier => Value.identicalList earlier.values row.values then unrepeated rows
      else unrepeated rows ++ [row] := by
  have hfront : (rows.zipIdx.filter fun p => ((rows ++ [row]).take p.2).all fun earlier =>
        !Value.identicalList earlier.values p.1.values) =
      rows.zipIdx.filter fun p => (rows.take p.2).all fun earlier =>
        !Value.identicalList earlier.values p.1.values := by
    refine List.filter_congr fun p hp => ?_
    have hlt : p.2 < rows.length := List.snd_lt_of_mem_zipIdx hp
    rw [List.take_append_of_le_length (Nat.le_of_lt hlt)]
  rw [unrepeated, unrepeated, List.zipIdx_append, List.filter_append, hfront, List.map_append]
  cases hrepeats : rows.any fun earlier => Value.identicalList earlier.values row.values with
  | true => simp_all
  | false => simp_all

/-- **Dropping rows with a known encoding leaves the rows that repeat no earlier one.**

**Proof sketch.** By induction on the rows from the end. A row that was dropped itself need not be
compared with, since it repeats one that was kept. -/
theorem dropDuplicates_eq_unrepeated {rows : List Row}
    (hsized : ∀ row ∈ rows, Value.areSized row.values = true) :
    dropDuplicates rows = unrepeated rows := by
  induction rows using List.reverseRecOn with
  | nil => rfl
  | append_singleton rows row ih =>
    have hrows : ∀ earlier ∈ rows, (row.contentKey == earlier.contentKey) =
        Value.identicalList row.values earlier.values := fun earlier hearlier =>
      contentKey_beq (hsized row (by simp)) (hsized earlier (List.mem_append_left _ hearlier))
    have hknown : (dropDuplicates rows).any (fun kept => row.contentKey == kept.contentKey) =
        rows.any fun earlier => Value.identicalList earlier.values row.values := by
      rw [Bool.eq_iff_iff, List.any_eq_true, List.any_eq_true]
      constructor
      · rintro ⟨kept, hkept, hsame⟩
        have hmem := mem_of_mem_eraseDupsBy hkept
        rw [hrows kept hmem, Value.identicalList_iff] at hsame
        exact ⟨kept, hmem, (Value.identicalList_iff _ _).mpr hsame.symm⟩
      · rintro ⟨earlier, hearlier, hsame⟩
        have hkey : row.contentKey == earlier.contentKey := by
          rw [hrows earlier hearlier, Value.identicalList_iff]
          exact ((Value.identicalList_iff _ _).mp hsame).symm
        rcases exists_of_mem_eraseDupsBy hearlier with hkept | ⟨kept, hkept, hrepeats⟩
        · exact ⟨earlier, hkept, hkey⟩
        · exact ⟨kept, hkept, beq_iff_eq.mpr ((beq_iff_eq.mp hkey).trans (beq_iff_eq.mp hrepeats))⟩
    rw [dropDuplicates, eraseDupsBy_concat, ← dropDuplicates, hknown, unrepeated_concat,
      ih fun earlier hearlier => hsized earlier (List.mem_append_left _ hearlier)]

end Listing

/-- **Encodings tell values.** Two lists of values, of any length, have the same encoding only if
they are the same: as many values, of the same kinds and with the same contents, floats by their
bits. So, whatever rows a cursor yields, and whatever failure comes after them, the stage above it
that drops duplicates yields those whose values no earlier row has, and then the same failure. -/
theorem Cursor.lists_unrepeated :
    (∀ vs ws : List Value, Value.areSized vs = true → Value.areSized ws = true →
      (Value.encodeRow vs = Value.encodeRow ws ↔ vs = ws)) ∧
    ∀ (c : Cursor) (K : Store) (s : c.State) (seen : List (List UInt8)) (l : Listing),
      c.Lists K s (.ok l) → (∀ row ∈ l.rows, Value.areSized row.values = true) →
        c.distinct.Lists K (s, seen) (.ok ⟨Listing.unrepeated l.rows, l.failure⟩) := by
  refine ⟨fun vs ws hv hw => ⟨Value.encodeRow_inj hv hw, congrArg Value.encodeRow⟩,
    fun c K s seen l hl hsized => ?_⟩
  rw [← Listing.dropDuplicates_eq_unrepeated hsized, ← Listing.distinctRows_nil]
  exact hl.distinct seen

/-- Four rows, of which the third repeats the first under other labels. The others only look alike:
a list may end before or after a value, and the two zeros are different floats. -/
theorem Cursor.lists_unrepeated_lists :
    let first := Row.ofValues ["a", "b"] [.list [.integer 1], .float ⟨0⟩]
    let second := Row.ofValues ["a"] [.list [.integer 1, .float ⟨0⟩]]
    let third := Row.ofValues ["m", "n"] [.list [.integer 1], .float ⟨0⟩]
    let fourth := Row.ofValues ["a", "b"] [.list [.integer 1], .float (Binary64.zero true)]
    (Value.encodeRow first.values = Value.encodeRow second.values ↔ first.values = second.values) ∧
      (Cursor.ofRows [first, second, third, fourth] (some 4)).distinct.Lists .empty ((0 : Nat), [])
        (.ok ⟨[first, second, fourth], some .readFailed⟩) := by
  intro first second third fourth
  exact ⟨Cursor.lists_unrepeated.1 _ _ (by decide) (by decide),
    Cursor.lists_unrepeated.2 _ _ _ [] _ (Cursor.lists_ofRows _ _ _) (by decide)⟩

end RecordQuery
