import Mathlib.Data.String.Basic
import RecordQuery.Value.Encoding

set_option autoImplicit false

/-!
# What the encoding of values tells

Values with the same encoding are the same, down to the bits of floats: every value says with its
first bytes what it is and how long it is, so the encoding of a row can be cut into those of its
values in one way only. A length is written in eight bytes, so this is for values as they fit into a
memory that is addressed with so many.

## Main definitions

* `Value.isSized` — the lengths in a value can be written.

## Main results

* `Value.identical_iff` — values are the same down to the bits of floats if they are equal.
* `Value.encode_append_inj` — the encoding of a value can be cut off in one way only.
* `Value.encodeRow_inj` — rows of values with the same encoding are the same.
-/

namespace RecordQuery

/-! ## Numbers -/

/-- Numbers with the same lowest bytes are the same as far as these go. -/
lemma littleEndian_inj {n v w : Nat} (hv : v < 256 ^ n) (hw : w < 256 ^ n)
    (h : littleEndian n v = littleEndian n w) : v = w := by
  induction n generalizing v w with
  | zero =>
    rw [Nat.pow_zero] at hv hw
    omega
  | succ n ih =>
    rw [littleEndian, littleEndian, List.cons.injEq] at h
    rw [Nat.pow_succ] at hv hw
    have hlow : v % 256 = w % 256 := by
      have := congrArg UInt8.toNat h.1
      simpa using this
    have hhigh : v / 256 = w / 256 := ih (by omega) (by omega) h.2
    omega

/-- Numbers of the same width that stand before something. -/
lemma littleEndian_append_inj {n v w : Nat} {as bs : List UInt8} (hv : v < 256 ^ n)
    (hw : w < 256 ^ n) (h : littleEndian n v ++ as = littleEndian n w ++ bs) :
    v = w ∧ as = bs := by
  obtain ⟨hnumber, hrest⟩ := List.append_inj h (by simp)
  exact ⟨littleEndian_inj hv hw hnumber, hrest⟩

/-- Bytes preceded by their number that stand before something. -/
lemma withLength_append_inj {xs ys as bs : List UInt8} (hx : xs.length < 2 ^ 64)
    (hy : ys.length < 2 ^ 64) (h : withLength xs ++ as = withLength ys ++ bs) :
    xs = ys ∧ as = bs := by
  rw [withLength, withLength, List.append_assoc, List.append_assoc] at h
  obtain ⟨hlength, hrest⟩ := littleEndian_append_inj hx hy h
  exact List.append_inj hrest hlength

/-! ## Texts -/

/-- The bytes of a text in a list. -/
lemma byteArray_toList_eq (bs : ByteArray) : bs.toList = bs.data.toList := by
  have hloop : ∀ (i : Nat) (r : List UInt8),
      ByteArray.toList.loop bs i r = r.reverse ++ bs.data.toList.drop i := by
    intro i r
    fun_induction ByteArray.toList.loop bs i r with
    | case1 i r hi ih =>
      have hi' : i < bs.data.toList.length := by simpa using hi
      rw [ih, List.reverse_cons, List.append_assoc, List.drop_eq_getElem_cons hi']
      simp [ByteArray.get!, hi]
    | case2 i r hi =>
      have hi' : bs.data.toList.length ≤ i := by simpa using hi
      rw [List.drop_eq_nil_of_le hi', List.append_nil]
  exact hloop 0 []

/-- Texts with the same bytes are the same. -/
lemma textBytes_inj {s t : String} (h : textBytes s = textBytes t) : s = t := by
  rw [textBytes, textBytes, byteArray_toList_eq, byteArray_toList_eq] at h
  exact String.toByteArray_inj.mp (ByteArray.ext (Array.ext' h))

/-! ## Values -/

namespace Value

mutual

/-- Values are the same down to the bits of floats if they are equal. -/
theorem identical_iff : (v w : Value) → (v.identical w = true ↔ v = w)
  | null, w => by cases w <;> simp [identical]
  | boolean a, w => by cases w <;> simp [identical]
  | integer i, w => by cases w <;> simp [identical]
  | float x, w => by cases w <;> simp [identical]
  | text s, w => by cases w <;> simp [identical]
  | blob bs, w => by cases w <;> simp [identical]
  | list vs, w => by
    cases w with
    | list ws => simpa [identical] using identicalList_iff vs ws
    | null | boolean _ | integer _ | float _ | text _ | blob _ => simp [identical]

/-- Lists of values are the same if they are equal. -/
theorem identicalList_iff : (vs ws : List Value) → (identicalList vs ws = true ↔ vs = ws)
  | [], ws => by cases ws <;> simp [identicalList]
  | v :: vs, [] => by simp [identicalList]
  | v :: vs, w :: ws => by
    rw [identicalList, Bool.and_eq_true, identical_iff v w, identicalList_iff vs ws,
      List.cons.injEq]

end

mutual

/-- Whether the lengths in a value can be written in eight bytes. -/
def isSized : Value → Bool
  | text s => decide ((textBytes s).length < 2 ^ 64)
  | blob bs => decide (bs.length < 2 ^ 64)
  | list vs => decide (vs.length < 2 ^ 64) && areSized vs
  | _ => true

/-- Whether the lengths in several values can be written in eight bytes. -/
def areSized : List Value → Bool
  | [] => true
  | v :: vs => isSized v && areSized vs

end

/-- The number by which the encoding of a value begins. -/
def tag : Value → Nat
  | null => 0
  | integer _ => 1
  | float _ => 2
  | text _ => 3
  | boolean _ => 4
  | blob _ => 5
  | list _ => 6

/-- What follows the tag in the encoding of a value. -/
def content : Value → List UInt8
  | null => []
  | integer i => littleEndian 8 i.toUInt64.toNat
  | float x => littleEndian 8 x.bits.toNat
  | text s => withLength (textBytes s)
  | boolean b => [if b then 1 else 0]
  | blob bs => withLength bs
  | list vs => littleEndian 8 vs.length ++ encodeList vs

/-- The encoding of a value is its tag and its content. -/
lemma encode_eq (v : Value) : v.encode = littleEndian 4 v.tag ++ v.content := by
  cases v <;> simp [encode, tag, content]

/-- Values whose encodings stand before something have the same tag. -/
lemma tag_append_inj {v w : Value} {as bs : List UInt8} (h : v.encode ++ as = w.encode ++ bs) :
    v.tag = w.tag ∧ v.content ++ as = w.content ++ bs := by
  rw [encode_eq, encode_eq, List.append_assoc, List.append_assoc] at h
  have htag : ∀ u : Value, u.tag < 256 ^ 4 := fun u => by cases u <;> simp [tag]
  exact littleEndian_append_inj (htag v) (htag w) h

mutual

/-- **The encoding of a value can be cut off in one way only.**

**Proof sketch.** By induction on the value: its tag says what follows, and everything of variable
size is preceded by its length. -/
theorem encode_append_inj : (v w : Value) → {as bs : List UInt8} → v.isSized = true →
    w.isSized = true → v.encode ++ as = w.encode ++ bs → v = w ∧ as = bs
  | null, w, as, bs, _, _, h => by
    obtain ⟨htag, hcontent⟩ := tag_append_inj h
    cases w <;> simp_all [tag, content]
  | boolean a, w, as, bs, _, _, h => by
    obtain ⟨htag, hcontent⟩ := tag_append_inj h
    cases w with
    | boolean b => cases a <;> cases b <;> simp_all [content]
    | null | integer _ | float _ | text _ | blob _ | list _ => simp [tag] at htag
  | integer i, w, as, bs, _, _, h => by
    obtain ⟨htag, hcontent⟩ := tag_append_inj h
    cases w with
    | integer j =>
      obtain ⟨hij, hrest⟩ := littleEndian_append_inj i.toUInt64.toNat_lt j.toUInt64.toNat_lt
        hcontent
      exact ⟨congrArg (fun u => integer ⟨u⟩) (UInt64.toNat_inj.mp hij), hrest⟩
    | null | boolean _ | float _ | text _ | blob _ | list _ => simp [tag] at htag
  | float x, w, as, bs, _, _, h => by
    obtain ⟨htag, hcontent⟩ := tag_append_inj h
    cases w with
    | float y =>
      obtain ⟨hxy, hrest⟩ := littleEndian_append_inj x.bits.toNat_lt y.bits.toNat_lt hcontent
      exact ⟨congrArg (fun b => float ⟨b⟩) (UInt64.toNat_inj.mp hxy), hrest⟩
    | null | boolean _ | integer _ | text _ | blob _ | list _ => simp [tag] at htag
  | text s, w, as, bs, hs, hw, h => by
    obtain ⟨htag, hcontent⟩ := tag_append_inj h
    cases w with
    | text t =>
      rw [isSized, decide_eq_true_eq] at hs hw
      obtain ⟨hst, hrest⟩ := withLength_append_inj hs hw hcontent
      exact ⟨congrArg text (textBytes_inj hst), hrest⟩
    | null | boolean _ | integer _ | float _ | blob _ | list _ => simp [tag] at htag
  | blob xs, w, as, bs, hx, hw, h => by
    obtain ⟨htag, hcontent⟩ := tag_append_inj h
    cases w with
    | blob ys =>
      rw [isSized, decide_eq_true_eq] at hx hw
      obtain ⟨hxy, hrest⟩ := withLength_append_inj hx hw hcontent
      exact ⟨congrArg blob hxy, hrest⟩
    | null | boolean _ | integer _ | float _ | text _ | list _ => simp [tag] at htag
  | list vs, w, as, bs, hv, hw, h => by
    obtain ⟨htag, hcontent⟩ := tag_append_inj h
    cases w with
    | list ws =>
      rw [isSized, Bool.and_eq_true, decide_eq_true_eq] at hv hw
      rw [content, content, List.append_assoc, List.append_assoc] at hcontent
      obtain ⟨hlength, hrest⟩ := littleEndian_append_inj hv.1 hw.1 hcontent
      obtain ⟨hvw, hafter⟩ := encodeList_append_inj vs ws hlength hv.2 hw.2 hrest
      exact ⟨congrArg list hvw, hafter⟩
    | null | boolean _ | integer _ | float _ | text _ | blob _ => simp [tag] at htag

/-- The encodings of so many values can be cut off in one way only. -/
theorem encodeList_append_inj : (vs ws : List Value) → {as bs : List UInt8} →
    vs.length = ws.length → areSized vs = true → areSized ws = true →
    encodeList vs ++ as = encodeList ws ++ bs → vs = ws ∧ as = bs
  | [], [], _, _, _, _, _, h => ⟨rfl, h⟩
  | v :: vs, w :: ws, as, bs, hlength, hv, hw, h => by
    rw [areSized, Bool.and_eq_true] at hv hw
    rw [encodeList, encodeList, List.append_assoc, List.append_assoc] at h
    obtain ⟨rfl, hrest⟩ := encode_append_inj v w hv.1 hw.1 h
    obtain ⟨rfl, hafter⟩ := encodeList_append_inj vs ws (Nat.succ.inj hlength) hv.2 hw.2 hrest
    exact ⟨rfl, hafter⟩

end

/-- A value is never encoded by nothing. -/
lemma encode_ne_nil (v : Value) : v.encode ≠ [] := by
  rw [encode_eq]
  simp [littleEndian]

/-- Values with the same encodings one after the other are the same, however many they are. -/
lemma encodeList_inj {vs ws : List Value} (hv : areSized vs = true) (hw : areSized ws = true)
    (h : encodeList vs = encodeList ws) : vs = ws := by
  induction vs generalizing ws with
  | nil =>
    cases ws with
    | nil => rfl
    | cons w ws => exact absurd (List.append_eq_nil_iff.mp h.symm).1 (encode_ne_nil w)
  | cons v vs ih =>
    cases ws with
    | nil => exact absurd (List.append_eq_nil_iff.mp h).1 (encode_ne_nil v)
    | cons w ws =>
      rw [areSized, Bool.and_eq_true] at hv hw
      obtain ⟨rfl, hrest⟩ := encode_append_inj v w hv.1 hw.1 h
      rw [ih hv.2 hw.2 hrest]

/-- **Rows of values with the same encoding are the same.** The number of values need not be written
in full for that: the encoding ends with the last of them. -/
theorem encodeRow_inj {vs ws : List Value} (hv : areSized vs = true) (hw : areSized ws = true)
    (h : encodeRow vs = encodeRow ws) : vs = ws :=
  encodeList_inj hv hw (List.append_inj h (by simp)).2

end Value

end RecordQuery
