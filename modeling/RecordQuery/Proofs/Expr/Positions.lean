import RecordQuery.Expr.Function
import RecordQuery.Proofs.Outcome
import RecordQuery.Proofs.Text.Search

set_option autoImplicit false

/-!
# Positions in texts

The functions on texts count in characters and agree on what they count: what one of them cuts off
another one leaves, and the position that `instr` returns is the one `substring` starts at. A
position counts from one, and numbers outside a text are those at its ends.

## Main definitions

* `Function.StandsAt` — `substring` finds a text at a position in another.

## Main results

* `Function.positions_agree` — the laws between `left`, `right`, `substring`, `reverse`, `concat`,
  `length` and `instr`.
-/

namespace RecordQuery.Function

/-! ## Calls on texts -/

variable (s t : String)

/-- `left` returns the first characters, none if their number is negative. -/
lemma call_left (n : Int64) :
    callFunction "left" [.text s, .integer n] = .ok (.text (Text.take n.toInt.toNat s)) := rfl

/-- `right` returns the last characters, none if their number is negative. -/
lemma call_right (n : Int64) :
    callFunction "right" [.text s, .integer n] = .ok (.text (Text.takeEnd n.toInt.toNat s)) := rfl

/-- `reverse` returns the characters in opposite order. -/
lemma call_reverse : callFunction "reverse" [.text s] = .ok (.text (Text.reverse s)) := rfl

/-- `length` counts characters. -/
lemma call_length :
    callFunction "length" [.text s] = .ok (.integer (Int64.ofNat (Text.length s))) := rfl

/-- `concat` puts one text behind the other. -/
lemma call_concat : callFunction "concat" [.text s, .text t] = .ok (.text (s ++ t)) := by
  have h : callFunction "concat" [.text s, .text t] = .ok (.text (String.join [s, t])) := rfl
  simp [h]

/-- `substring` returns the characters from a position on. -/
lemma call_fromPosition (p : Int64) :
    callFunction "substring" [.text s, .integer p] = .ok (.text (fromPosition p.toInt s)) := rfl

/-- `substring` with a number returns as many of these characters. -/
lemma call_substring (p k : Int64) :
    callFunction "substring" [.text s, .integer p, .integer k] =
      .ok (.text (Text.take k.toInt.toNat (fromPosition p.toInt s))) := rfl

/-- `instr` returns the position of the first occurrence, or zero. -/
lemma call_indexOf :
    callFunction "instr" [.text s, .text t] =
      .ok (.integer ((Text.indexOf? t s).elim 0 fun n => Int64.ofNat (n + 1))) := by
  have h : callFunction "instr" [.text s, .text t] = indexOf.apply [.text s, .text t] := rfl
  rw [h]
  cases hfound : Text.indexOf? t s <;>
    simp [apply, onPair, Value.isNull, textArg, Value.asText?, hfound, pure, Except.pure]

/-! ## Parts of a text -/

variable {s t}

/-- The last characters are the first ones of the reversed text, reversed. -/
lemma takeEnd_eq_reverse (n : ℕ) (s : String) :
    Text.takeEnd n s = Text.reverse (Text.take n (Text.reverse s)) := by
  simp [Text.takeEnd, Text.drop, Text.reverse, Text.take, Text.length, List.take_reverse]

/-- The integer behind one that is not the greatest. -/
lemma toInt_add_one {n : Int64} (h : n < Int64.maxValue) : (n + 1).toInt = n.toInt + 1 := by
  have hlt : n.toInt < 2 ^ 63 - 1 := Int64.toInt_maxValue ▸ Int64.lt_iff_toInt_lt.mp h
  have hge := Int64.le_toInt n
  rw [Int64.toInt_add, Int64.toInt_one]
  exact Int.bmod_eq_of_le (by omega) (by omega)

/-- What is cut off in front and what follows it make up the text. -/
lemma take_append_fromPosition {n : Int64} (h : n < Int64.maxValue) (s : String) :
    Text.take n.toInt.toNat s ++ fromPosition (n + 1).toInt s = s := by
  rw [fromPosition, toInt_add_one h, Int.add_sub_cancel, Text.take_append_drop]

/-! ## The position of a text -/

/-- The `k` characters of `s` from the position `q` on, counted from one, are the text `t`. -/
def StandsAt (s t : String) (k q : Int64) : Prop :=
  1 ≤ q ∧ callFunction "substring" [.text s, .integer q, .integer k] = .ok (.text t)

/-- A text stands at a position if the number of characters before it is one of its places.

**Proof sketch.** A substring as long as the text sought is equal to it if and only if the text is a
prefix of what follows the position. The length of the text is exact as an integer unless it is
longer than any text in memory; then it neither is a substring of the shorter one nor a prefix of a
part of it. -/
lemma standsAt_iff (hs : Text.length s < 2 ^ 63) {q : Int64} :
    StandsAt s t (Int64.ofNat (Text.length t)) q ↔
      1 ≤ q.toInt ∧ (q.toInt - 1).toNat ∈ Text.occurrences t.toList s.toList := by
  rw [StandsAt, Int64.le_iff_toInt_le, Int64.toInt_one, call_substring, Except.ok.injEq,
    Value.text.injEq]
  refine and_congr_right fun _ => ?_
  by_cases ht : Text.length t < 2 ^ 63
  · rw [Int64.toInt_ofNat_of_lt ht, Int.toNat_natCast, ← String.toList_inj]
    simp only [Text.take, fromPosition, Text.drop, String.toList_ofList, Text.occurrences,
      Set.mem_ofPred_eq, List.prefix_iff_eq_take, Text.length]
    exact eq_comm
  · -- No part of a text in memory is so long.
    have hlong : s.toList.length < t.toList.length := by
      rw [Text.length] at hs ht
      omega
    refine iff_of_false (fun h => ?_) (fun h => ?_)
    · have hle : t.toList.length ≤ s.toList.length := by
        rw [← h]
        simp only [Text.take, fromPosition, Text.drop, String.toList_ofList, List.length_take,
          List.length_drop]
        omega
      omega
    · have hle := List.IsPrefix.length_le h
      rw [List.length_drop] at hle
      omega

/-- The position that is found is the first one, and zero only if there is none.

**Proof sketch.** By the search for the text. If it finds nothing, then there are no places and the
position is zero. If it finds a place, then this is the least one, and the position is one more,
which is within the range of integers because the place ends within the text. -/
lemma exists_call_indexOf (hs : Text.length s < 2 ^ 63) :
    ∃ p : Int64, callFunction "instr" [.text s, .text t] = .ok (.integer p) ∧
      (p = 0 ∧ (∀ q, ¬StandsAt s t (Int64.ofNat (Text.length t)) q) ∨
        StandsAt s t (Int64.ofNat (Text.length t)) p ∧
          ∀ q, StandsAt s t (Int64.ofNat (Text.length t)) q → p ≤ q) := by
  cases hfound : Text.indexOf? t s with
  | none =>
    have hempty := Text.indexOf?_eq_none_iff.mp hfound
    refine ⟨0, by rw [call_indexOf, hfound, Option.elim_none], .inl ⟨rfl, fun q hq => ?_⟩⟩
    exact Set.notMem_empty _ (hempty ▸ ((standsAt_iff hs).mp hq).2)
  | some n =>
    have hfirst := Text.indexOf?_eq_some_iff.mp hfound
    have hn : n + 1 < 2 ^ 63 := by
      have hend := Text.eq_zero_or_lt_length_of_isLeast hfirst
      rw [Text.length] at hs
      omega
    have hp : (Int64.ofNat (n + 1)).toInt = n + 1 := Int64.toInt_ofNat_of_lt hn
    refine ⟨Int64.ofNat (n + 1), by rw [call_indexOf, hfound, Option.elim_some],
      .inr ⟨(standsAt_iff hs).mpr ⟨by omega, ?_⟩, fun q hq => ?_⟩⟩
    · rw [hp, Int.add_sub_cancel, Int.toNat_natCast]
      exact hfirst.1
    · obtain ⟨hone, hplace⟩ := (standsAt_iff hs).mp hq
      have hle := hfirst.2 hplace
      rw [Int64.le_iff_toInt_le, hp]
      omega

/-- The empty text stands at the first position. -/
lemma call_indexOf_empty (s : String) :
    callFunction "instr" [.text s, .text ""] = .ok (.integer 1) := by
  have hfirst : IsLeast (Text.occurrences "".toList s.toList) 0 := Text.isLeast_occurrences_nil
  rw [call_indexOf, Text.indexOf?_eq_some_iff.mpr hfirst]
  rfl

/-- **The functions on texts share one way of counting characters.** Whatever characters the texts
are of:

* the first `n` characters and what follows them, from the position `n + 1` on, make up the text; *
the last `n` characters are the first `n` of the reversed text, reversed; * the `k` characters from
a position on are the first `k` of all from there on; * the position that `instr` returns is the
first one at which `substring` finds the text, zero exactly if there is none, and one for the empty
text.

The last one is for texts as they fit into memory, where the number of characters is an integer.

**Proof sketch.** Each function is replaced with what it computes on lists of characters. Taking and
dropping make up the text, the last characters are the first ones of the reversal, and a substring
is a take of a drop. The last part is `exists_call_indexOf`, for which position zero is not a place.
-/
theorem positions_agree (s t : String) :
    (∀ n : Int64, n < Int64.maxValue → ∃ front back : String,
      callFunction "left" [.text s, .integer n] = .ok (.text front) ∧
      callFunction "substring" [.text s, .integer (n + 1)] = .ok (.text back) ∧
      callFunction "concat" [.text front, .text back] = .ok (.text s)) ∧
    (∀ n : Int64, ∃ turned front last : String,
      callFunction "reverse" [.text s] = .ok (.text turned) ∧
      callFunction "left" [.text turned, .integer n] = .ok (.text front) ∧
      callFunction "reverse" [.text front] = .ok (.text last) ∧
      callFunction "right" [.text s, .integer n] = .ok (.text last)) ∧
    (∀ p k : Int64, ∃ rest part : String,
      callFunction "substring" [.text s, .integer p] = .ok (.text rest) ∧
      callFunction "left" [.text rest, .integer k] = .ok (.text part) ∧
      callFunction "substring" [.text s, .integer p, .integer k] = .ok (.text part)) ∧
    (Text.length s < 2 ^ 63 → ∃ p k : Int64,
      callFunction "instr" [.text s, .text t] = .ok (.integer p) ∧
      callFunction "length" [.text t] = .ok (.integer k) ∧
      (p = 0 ↔ ∀ q, ¬StandsAt s t k q) ∧
      (p ≠ 0 → StandsAt s t k p ∧ ∀ q, StandsAt s t k q → p ≤ q) ∧
      (t = "" → p = 1)) := by
  refine ⟨fun n hn => ?_, fun n => ?_, fun p k => ?_, fun hs => ?_⟩
  · refine ⟨_, _, call_left s n, call_fromPosition s (n + 1), ?_⟩
    rw [call_concat, take_append_fromPosition hn]
  · refine ⟨_, _, _, call_reverse s, call_left _ n, call_reverse _, ?_⟩
    rw [call_right, takeEnd_eq_reverse]
  · exact ⟨_, _, call_fromPosition s p, call_left _ k, call_substring s p k⟩
  · obtain ⟨p, hp, hfirst⟩ := exists_call_indexOf (t := t) hs
    refine ⟨p, _, hp, call_length t, ?_, ?_, ?_⟩
    · constructor
      · rintro rfl
        rcases hfirst with ⟨-, hnone⟩ | ⟨⟨hone, -⟩, -⟩
        · exact hnone
        · exact absurd hone (by decide)
      · intro hnone
        exact (hfirst.resolve_right fun h => hnone p h.1).1
    · intro hne
      exact hfirst.resolve_left fun h => hne h.1
    · rintro rfl
      rw [call_indexOf_empty] at hp
      injection hp with hp
      injection hp with hp
      exact hp.symm

/-- The laws on a text with a character of two bytes: the position of what follows it counts it
once. -/
theorem positions_agree_accented :
    (2 : Int64) < Int64.maxValue ∧ Text.length "héllo" < 2 ^ 63 ∧
      (∃ front back : String,
        callFunction "left" [.text "héllo", .integer 2] = .ok (.text front) ∧
        callFunction "substring" [.text "héllo", .integer 3] = .ok (.text back) ∧
        callFunction "concat" [.text front, .text back] = .ok (.text "héllo")) ∧
      ∃ p k : Int64,
        callFunction "instr" [.text "héllo", .text "llo"] = .ok (.integer p) ∧
        callFunction "length" [.text "llo"] = .ok (.integer k) ∧
        (p ≠ 0 → StandsAt "héllo" "llo" k p ∧ ∀ q, StandsAt "héllo" "llo" k q → p ≤ q) ∧ p = 3 := by
  obtain ⟨hsplit, -, -, hposition⟩ := positions_agree "héllo" "llo"
  have hlength : Text.length "héllo" < 2 ^ 63 := by decide
  obtain ⟨p, k, hp, hk, -, hleast, -⟩ := hposition hlength
  refine ⟨by decide, hlength, hsplit 2 (by decide), p, k, hp, hk, hleast, ?_⟩
  have hthree : callFunction "instr" [.text "héllo", .text "llo"] = .ok (.integer 3) := rfl
  rw [hp] at hthree
  injection hthree with hthree
  injection hthree

end RecordQuery.Function
