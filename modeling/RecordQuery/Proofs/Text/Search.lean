import Mathlib.Order.Bounds.Basic
import RecordQuery.Proofs.Value.Encoding
import RecordQuery.Text.Slice

set_option autoImplicit false

/-!
# Searching in texts

Where a text stands in another is counted in characters. A search through the bytes finds the same
place: the bytes of a text that is not empty are found at the boundaries of characters only, since
a byte that begins a character never stands inside one.

## Main definitions

* `Text.occurrences` — all places at which a list stands in another.

## Main results

* `Text.indexOf?_eq_some_iff`, `Text.indexOf?_eq_none_iff` — the search finds the first place.
* `Text.exists_append_of_textBytes` — bytes of a text among those of another are a part of it.
* `Text.indexOf?_eq_some_iff_bytes`, `Text.indexOf?_eq_none_iff_bytes` — the place found is the
  number of characters before the first place in the bytes.
-/

namespace RecordQuery.Text

/-! ## Parts -/

/-- A text is its first characters and the others. -/
lemma take_append_drop (n : ℕ) (s : String) : take n s ++ drop n s = s := by
  rw [take, drop, ← String.ofList_append, List.take_append_drop, String.ofList_toList]

/-- There are as many first characters as asked for if the text is that long. -/
lemma length_take_of_le {n : ℕ} {s : String} (h : n ≤ s.toList.length) : length (take n s) = n := by
  simp only [length, take, String.toList_ofList, List.length_take, min_eq_left h]

/-- What follows the start of a text that was put before another one. -/
lemma dropPrefix?_append (start s : String) : dropPrefix? start (start ++ s) = some s := by
  simp [dropPrefix?, drop, length]

/-- Something follows the start of a text if the text is the start and that. -/
lemma dropPrefix?_eq_some_iff {start s rest : String} :
    dropPrefix? start s = some rest ↔ s = start ++ rest := by
  refine ⟨fun h => ?_, fun h => h ▸ dropPrefix?_append start rest⟩
  by_cases hprefix : start.toList.isPrefixOf s.toList
  · obtain ⟨cs, hcs⟩ := List.isPrefixOf_iff_prefix.mp hprefix
    obtain rfl : s = start ++ String.ofList cs := by
      rw [← String.toList_inj, String.toList_append, String.toList_ofList, hcs]
    rw [dropPrefix?_append] at h
    rw [Option.some.inj h]
  · rw [dropPrefix?, if_neg hprefix] at h
    cases h

/-! ## Places -/

section Occurrences

variable {α : Type} {xs ys : List α} {n : ℕ}

/-- The numbers of elements of `ys` after which `xs` begins. -/
def occurrences (xs ys : List α) : Set ℕ := {n | xs <+: ys.drop n}

/-- A place cuts a list in three parts. -/
lemma mem_occurrences : n ∈ occurrences xs ys ↔ ∃ rest, ys.drop n = xs ++ rest := by
  constructor
  · rintro ⟨rest, h⟩
    exact ⟨rest, h.symm⟩
  · rintro ⟨rest, h⟩
    exact ⟨rest, h.symm⟩

/-- The empty list stands first of all before everything. -/
lemma isLeast_occurrences_nil : IsLeast (occurrences [] ys) 0 :=
  ⟨List.nil_prefix, fun _ _ => Nat.zero_le _⟩

/-- There is room for what stands at a place. -/
lemma add_length_le_of_mem_occurrences (hxs : xs ≠ []) (h : n ∈ occurrences xs ys) :
    n + xs.length ≤ ys.length := by
  have hroom : xs.length ≤ (ys.drop n).length := h.length_le
  have hpos : 0 < xs.length := List.length_pos_of_ne_nil hxs
  rw [List.length_drop] at hroom
  omega

/-- The first place is the start or before the end. -/
lemma eq_zero_or_lt_length_of_isLeast (h : IsLeast (occurrences xs ys) n) :
    n = 0 ∨ n < ys.length := by
  by_cases hxs : xs = []
  · subst hxs
    exact .inl (h.unique isLeast_occurrences_nil)
  · have hroom := add_length_le_of_mem_occurrences hxs h.1
    have hpos : 0 < xs.length := List.length_pos_of_ne_nil hxs
    exact .inr (by omega)

/-- The first place is not behind the end. -/
lemma le_length_of_isLeast (h : IsLeast (occurrences xs ys) n) : n ≤ ys.length := by
  rcases eq_zero_or_lt_length_of_isLeast h with rfl | hlt
  · exact Nat.zero_le _
  · exact hlt.le

end Occurrences

/-! ## The search through the characters -/

/-- What the search returns is the first place, or there is none.

**Proof sketch.** By induction on the list that is searched. If the text is found here then the
place is zero. If it is not then every place is one in the tail, moved by one, and so is the least
one. -/
lemma indexOfChars_spec (needle cs : List Char) :
    (∀ n, indexOfChars needle cs = some n → IsLeast (occurrences needle cs) n) ∧
      (indexOfChars needle cs = none → occurrences needle cs = ∅) := by
  induction cs with
  | nil =>
    cases needle with
    | nil =>
      refine ⟨fun n hn => ?_, fun hn => by simp [indexOfChars] at hn⟩
      obtain rfl : 0 = n := by simpa [indexOfChars] using hn
      exact isLeast_occurrences_nil
    | cons d ds =>
      refine ⟨fun n hn => by simp [indexOfChars] at hn, fun _ => ?_⟩
      simp [occurrences]
  | cons c cs ih =>
    rw [indexOfChars]
    split
    · rename_i hhere
      refine ⟨fun n hn => ?_, fun hn => by simp at hn⟩
      obtain rfl : 0 = n := by simpa using hn
      exact ⟨List.isPrefixOf_iff_prefix.mp hhere, fun _ _ => Nat.zero_le _⟩
    · rename_i hhere
      -- A place in the whole list is one in its tail, since the search did not stop here.
      have htail : ∀ m ∈ occurrences needle (c :: cs), ∃ k ∈ occurrences needle cs, m = k + 1 := by
        rintro (_ | k) hm
        · exact absurd (List.isPrefixOf_iff_prefix.mpr hm) hhere
        · exact ⟨k, hm, rfl⟩
      constructor
      · intro n hn
        obtain ⟨k, hk, rfl⟩ := Option.map_eq_some_iff.mp hn
        refine ⟨(ih.1 k hk).1, fun m hm => ?_⟩
        obtain ⟨j, hj, rfl⟩ := htail m hm
        exact Nat.succ_le_succ ((ih.1 k hk).2 hj)
      · intro hn
        have hempty := ih.2 (Option.map_eq_none_iff.mp hn)
        refine Set.eq_empty_of_forall_notMem fun m hm => ?_
        obtain ⟨j, hj, -⟩ := htail m hm
        exact Set.notMem_empty j (hempty ▸ hj)

/-- The search finds the first place. -/
theorem indexOf?_eq_some_iff {t s : String} {n : ℕ} :
    indexOf? t s = some n ↔ IsLeast (occurrences t.toList s.toList) n := by
  obtain ⟨hsome, hnone⟩ := indexOfChars_spec t.toList s.toList
  refine ⟨hsome n, fun h => ?_⟩
  cases hfound : indexOf? t s with
  | none => exact absurd h.1 (hnone hfound ▸ Set.notMem_empty n)
  | some m => rw [(hsome m hfound).unique h]

/-- The search finds nothing if there is no place. -/
theorem indexOf?_eq_none_iff {t s : String} :
    indexOf? t s = none ↔ occurrences t.toList s.toList = ∅ := by
  obtain ⟨hsome, hnone⟩ := indexOfChars_spec t.toList s.toList
  refine ⟨hnone, fun h => ?_⟩
  cases hfound : indexOf? t s with
  | none => rfl
  | some m => exact absurd (hsome m hfound).1 (h ▸ Set.notMem_empty m)

/-! ## The search through the bytes -/

/-- The bytes of a text as a list. -/
lemma textBytes_eq (s : String) : textBytes s = s.toByteArray.data.toList := byteArray_toList_eq _

/-- The bytes of two texts in a row. -/
@[simp]
lemma textBytes_append (s t : String) : textBytes (s ++ t) = textBytes s ++ textBytes t := by
  simp [textBytes_eq]

/-- Only the empty text has no bytes. -/
lemma textBytes_eq_nil_iff {t : String} : textBytes t = [] ↔ t = "" := by
  have hnil : textBytes "" = [] := by simp [textBytes_eq]
  exact ⟨fun h => textBytes_inj (h.trans hnil.symm), fun h => h ▸ hnil⟩

/-- Bytes that are those of a text. -/
lemma exists_textBytes_eq {bs : ByteArray} (h : bs.IsValidUTF8) :
    ∃ s : String, textBytes s = bs.data.toList := ⟨⟨bs, h⟩, textBytes_eq _⟩

/-- A part of an array of bytes. -/
lemma toList_extract (bs : ByteArray) (i j : ℕ) :
    (bs.extract i j).data.toList = (bs.data.toList.drop i).take (j - i) := by
  simp [ByteArray.data_extract, Array.toList_extract, List.extract]

/-- The bytes of a text begin and end at boundaries of the characters around them. The bytes between
two different places are those of a text only if both places are such boundaries. -/
lemma isValid_of_textBytes {s t : String} {u w : List UInt8} (ht : t ≠ "")
    (h : textBytes s = u ++ (textBytes t ++ w)) :
    (⟨u.length⟩ : String.Pos.Raw).IsValid s ∧
      (⟨u.length + (textBytes t).length⟩ : String.Pos.Raw).IsValid s := by
  have hdata : s.toByteArray.data.toList = u ++ (textBytes t ++ w) := textBytes_eq s ▸ h
  have hmiddle : s.toByteArray.extract u.length (u.length + (textBytes t).length) =
      t.toByteArray := by
    refine ByteArray.ext (Array.ext' ?_)
    rw [toList_extract, hdata, ← textBytes_eq t]
    simp
  have hend : u.length + (textBytes t).length ≤ s.toByteArray.size := by
    rw [← ByteArray.size_data, ← Array.length_toList, hdata]
    simp
  have hvalid := (String.Pos.Raw.isValidUTF8_extract_iff (s := s) ⟨u.length⟩
    ⟨u.length + (textBytes t).length⟩ (by simp [String.Pos.Raw.le_iff])
    (by simpa [String.Pos.Raw.le_iff] using hend)).mp (hmiddle ▸ t.isValidUTF8)
  refine hvalid.resolve_left fun heq => ?_
  have hnil : (textBytes t).length = 0 := by simpa [String.Pos.Raw.ext_iff] using heq
  exact ht (textBytes_eq_nil_iff.mp (List.eq_nil_of_length_eq_zero hnil))

/-- **The bytes of a text among those of another are a part of it.** What stands before them and
what stands behind them ends and begins at boundaries of characters, so both are texts as well. -/
theorem exists_append_of_textBytes {s t : String} {u w : List UInt8} (ht : t ≠ "")
    (h : textBytes s = u ++ (textBytes t ++ w)) :
    ∃ front rest, s = front ++ (t ++ rest) ∧ textBytes front = u ∧ textBytes rest = w := by
  obtain ⟨hstart, hstop⟩ := isValid_of_textBytes ht h
  obtain ⟨front, hfront⟩ := exists_textBytes_eq hstart.isValidUTF8_extract_zero
  obtain ⟨rest, hrest⟩ := exists_textBytes_eq hstop.isValidUTF8_extract_utf8ByteSize
  rw [toList_extract, ← textBytes_eq, h] at hfront hrest
  have hu : textBytes front = u := by simpa using hfront
  have hw : textBytes rest = w := by
    have hsize : s.utf8ByteSize = u.length + ((textBytes t).length + w.length) := by
      rw [← String.size_toByteArray, ← ByteArray.size_data, ← Array.length_toList, ← textBytes_eq,
        h]
      simp
    rw [hrest, hsize, ← List.append_assoc, List.drop_left' (by simp)]
    exact List.take_of_length_le (by simp only; omega)
  refine ⟨front, rest, textBytes_inj ?_, hu, hw⟩
  rw [h, textBytes_append, textBytes_append, hu, hw]

/-- The bytes of a beginning are a beginning of the bytes. -/
lemma isPrefix_textBytes {s t : String} (h : s.toList <+: t.toList) :
    textBytes s <+: textBytes t := by
  obtain ⟨rest, hrest⟩ := h
  have ht : t = s ++ String.ofList rest := by
    rw [← String.toList_inj, String.toList_append, String.toList_ofList, hrest]
  rw [ht, textBytes_append]
  exact List.prefix_append _ _

/-- What stands in front of a place, at it and behind it. -/
lemma exists_eq_take_append {s t : String} {n : ℕ} (h : n ∈ occurrences t.toList s.toList) :
    ∃ rest, s = take n s ++ (t ++ rest) := by
  obtain ⟨rest, hrest⟩ := mem_occurrences.mp h
  refine ⟨String.ofList rest, ?_⟩
  rw [← String.toList_inj, String.toList_append, String.toList_append, take, String.toList_ofList,
    String.toList_ofList, ← hrest, List.take_append_drop]

/-- A text that is not empty stands in the bytes of another where it stands in its characters.

**Proof sketch.** A place in the bytes cuts them in front of the first byte of a character, because
the text that stands there begins with one, so the bytes before it are those of a beginning of the
text. Conversely a place in the characters cuts text and bytes alike. -/
theorem mem_occurrences_textBytes {s t : String} (ht : t ≠ "") {b : ℕ} :
    b ∈ occurrences (textBytes t) (textBytes s) ↔
      ∃ n ∈ occurrences t.toList s.toList, (textBytes (take n s)).length = b := by
  constructor
  · intro hb
    have hroom := add_length_le_of_mem_occurrences (mt textBytes_eq_nil_iff.mp ht) hb
    obtain ⟨w, hw⟩ := mem_occurrences.mp hb
    have hcut : textBytes s = (textBytes s).take b ++ (textBytes t ++ w) := by
      rw [← hw, List.take_append_drop]
    obtain ⟨front, rest, rfl, hfront, -⟩ := exists_append_of_textBytes ht hcut
    refine ⟨length front, ?_, ?_⟩
    · refine mem_occurrences.mpr ⟨rest.toList, ?_⟩
      simp [length]
    · have htake : take (length front) (front ++ (t ++ rest)) = front := by
        simp [take, length]
      rw [htake, hfront, List.length_take]
      omega
  · rintro ⟨n, hn, rfl⟩
    obtain ⟨rest, hrest⟩ := exists_eq_take_append hn
    have hbytes : textBytes s = textBytes (take n s) ++ (textBytes t ++ textBytes rest) := by
      rw [← textBytes_append, ← textBytes_append, ← hrest]
    refine mem_occurrences.mpr ⟨textBytes rest, ?_⟩
    rw [hbytes, List.drop_left]

/-- The first place in the bytes is that in the characters. -/
lemma isLeast_occurrences_textBytes {s t : String} {n : ℕ}
    (h : IsLeast (occurrences t.toList s.toList) n) :
    IsLeast (occurrences (textBytes t) (textBytes s)) (textBytes (take n s)).length := by
  by_cases ht : t = ""
  · subst ht
    obtain rfl : n = 0 := h.unique isLeast_occurrences_nil
    have hnil : textBytes "" = [] := textBytes_eq_nil_iff.mpr rfl
    rw [hnil, show take 0 s = "" from rfl, hnil]
    exact isLeast_occurrences_nil
  · refine ⟨(mem_occurrences_textBytes ht).mpr ⟨n, h.1, rfl⟩, fun b hb => ?_⟩
    obtain ⟨m, hm, rfl⟩ := (mem_occurrences_textBytes ht).mp hb
    have hfront : (take n s).toList <+: (take m s).toList := by
      simpa [take] using List.take_prefix_take_left (h.2 hm)
    exact (isPrefix_textBytes hfront).length_le

/-- The search finds nothing if the bytes are nowhere among those of the other text. -/
theorem indexOf?_eq_none_iff_bytes {t s : String} :
    indexOf? t s = none ↔ occurrences (textBytes t) (textBytes s) = ∅ := by
  constructor
  · intro h
    have hempty := indexOf?_eq_none_iff.mp h
    have ht : t ≠ "" := by
      rintro rfl
      exact Set.notMem_empty 0 (hempty ▸ isLeast_occurrences_nil.1)
    refine Set.eq_empty_of_forall_notMem fun b hb => ?_
    obtain ⟨n, hn, -⟩ := (mem_occurrences_textBytes ht).mp hb
    exact Set.notMem_empty n (hempty ▸ hn)
  · intro h
    cases hfound : indexOf? t s with
    | none => rfl
    | some n =>
      have hfirst := isLeast_occurrences_textBytes (indexOf?_eq_some_iff.mp hfound)
      exact absurd hfirst.1 (h ▸ Set.notMem_empty _)

/-- **The search finds the number of characters before the first place in the bytes.**

**Proof sketch.** The first place in the characters is the first one in the bytes
(`isLeast_occurrences_textBytes`). Conversely, two beginnings of a text that have equally many bytes
are the same, and so have equally many characters. -/
theorem indexOf?_eq_some_iff_bytes {t s : String} {n : ℕ} :
    indexOf? t s = some n ↔
      ∃ front rest, s = front ++ rest ∧ length front = n ∧
        IsLeast (occurrences (textBytes t) (textBytes s)) (textBytes front).length := by
  constructor
  · intro h
    have hfirst := indexOf?_eq_some_iff.mp h
    exact ⟨take n s, drop n s, (take_append_drop n s).symm,
      length_take_of_le (le_length_of_isLeast hfirst),
      isLeast_occurrences_textBytes hfirst⟩
  · rintro ⟨front, rest, hs, rfl, hleast⟩
    cases hfound : indexOf? t s with
    | none => exact absurd hleast.1 (indexOf?_eq_none_iff_bytes.mp hfound ▸ Set.notMem_empty _)
    | some m =>
      have hfirst := indexOf?_eq_some_iff.mp hfound
      have hlength := hleast.unique (isLeast_occurrences_textBytes hfirst)
      -- Both are beginnings of the text, and of equally many bytes.
      have hfront : front = take m s := by
        have hcut : textBytes front ++ textBytes rest =
            textBytes (take m s) ++ textBytes (drop m s) := by
          rw [← textBytes_append, ← textBytes_append, ← hs, take_append_drop]
        exact textBytes_inj (List.append_inj_left hcut hlength)
      rw [hfront, length_take_of_le (le_length_of_isLeast hfirst)]

end RecordQuery.Text
