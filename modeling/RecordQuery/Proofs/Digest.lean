import RecordQuery.Proofs.Row
import RecordQuery.Proofs.Text.Search

set_option autoImplicit false

/-!
# What a digest tells

The digest of a key is the hash of the name of its set, a mark for the kind of key, and the key.
None of these is preceded by its length, and the mark is a character that a name can hold. So the
name of one set may be that of another set, a mark and more, and a key of the other set may begin
with the rest of it: then the same bytes are hashed for two records. It happens in no other way.
Keys of one set have different bytes, and so have keys of sets whose names hold no mark.

## Main definitions

* `UserKey.mark`, `UserKey.tag`, `UserKey.bytes` — what of a key is hashed.
* `RecordKey.Absorbs` — a key begins with the rest of the name of another set.
* `HoldsNoMark` — names without a mark.
* `Sha256.Collide` — different messages with the same hash.

## Main results

* `RecordKey.hashInput_eq_iff` — the keys for which the same bytes are hashed.
* `RecordKey.exists_absorbs` — if the name of a set holds the mark of bytes, every key has a double.
* `RecordKey.digest_separates` — what the digests in rows tell of the keys.
-/

namespace RecordQuery

/-! ## What is hashed -/

namespace UserKey

/-- The character that stands between the name of the set and the key. -/
def mark : UserKey → Char
  | integer _ => '\x01'
  | text _ => '\x03'
  | blob _ => '\x04'

/-- The byte of this character. -/
def tag : UserKey → UInt8
  | integer _ => 1
  | text _ => 3
  | blob _ => 4

/-- The bytes of a key. -/
def bytes : UserKey → List UInt8
  | integer i => (littleEndian 8 i.toUInt64.toNat).reverse
  | text s => textBytes s
  | blob bs => bs

/-- The bytes of the mark alone. -/
lemma textBytes_mark : (u : UserKey) → textBytes (String.singleton u.mark) = [u.tag]
  | integer _ => (by decide +kernel : textBytes (String.singleton '\x01') = [1])
  | text _ => (by decide +kernel : textBytes (String.singleton '\x03') = [3])
  | blob _ => (by decide +kernel : textBytes (String.singleton '\x04') = [4])

/-- A key is known by its tag and its bytes. -/
lemma eq_of_bytes {u v : UserKey} (htag : u.tag = v.tag) (hbytes : u.bytes = v.bytes) : u = v := by
  cases u with
  | integer i =>
    cases v with
    | integer j =>
      have hword := littleEndian_inj i.toUInt64.toNat_lt j.toUInt64.toNat_lt
        (List.reverse_injective hbytes)
      exact congrArg (fun u => integer ⟨u⟩) (UInt64.toNat_inj.mp hword)
    | text _ | blob _ => cases htag
  | text s =>
    cases v with
    | text t => exact congrArg text (textBytes_inj hbytes)
    | integer _ | blob _ => cases htag
  | blob bs =>
    cases v with
    | blob cs => exact congrArg blob hbytes
    | integer _ | text _ => cases htag

end UserKey

namespace RecordKey

variable {k l : RecordKey}

/-- The name of the set, the tag and the bytes of the key are hashed. -/
lemma hashInput_eq (k : RecordKey) :
    k.hashInput = textBytes k.set ++ k.user.tag :: k.user.bytes := by
  unfold hashInput
  cases k.user <;> rfl

/-- The name of the set of `l` is that of the set of `k`, the mark of `k` and some rest, and the key
of `k` begins with this rest and goes on like what follows the name in `l`. -/
def Absorbs (k l : RecordKey) : Prop :=
  ∃ rest : String, l.set = k.set ++ (String.singleton k.user.mark ++ rest) ∧
    k.user.bytes = textBytes rest ++ l.user.tag :: l.user.bytes

/-- A name that goes on does not end a set's own name. -/
lemma Absorbs.set_ne (h : k.Absorbs l) : k.set ≠ l.set := by
  obtain ⟨rest, hset, -⟩ := h
  intro heq
  have hlength := congrArg (fun s => s.toList.length) (heq.trans hset)
  simp at hlength

/-- The mark stands in the name that goes on. -/
lemma Absorbs.mark_mem (h : k.Absorbs l) : k.user.mark ∈ l.set.toList := by
  obtain ⟨rest, hset, -⟩ := h
  simp [hset]

/-- The same bytes are hashed. -/
lemma Absorbs.hashInput_eq (h : k.Absorbs l) : k.hashInput = l.hashInput := by
  obtain ⟨rest, hset, hbytes⟩ := h
  rw [RecordKey.hashInput_eq, RecordKey.hashInput_eq, hset, hbytes, Text.textBytes_append,
    Text.textBytes_append, UserKey.textBytes_mark]
  simp

/-- If the name of one set begins like that of the other, and what follows is the same, then both
keys are the same or the one absorbs the rest of the name.

**Proof sketch.** If nothing is left of the longer name, the set, the tag and the bytes of the key
are the same, and they determine the key (`UserKey.eq_of_bytes`). Otherwise the first byte that is
left is the tag of the other key, so the name splits where the mark stands
(`Text.exists_append_of_textBytes`). -/
lemma eq_or_absorbs {rest : List UInt8} (hns : k.ns = l.ns)
    (hset : textBytes l.set = textBytes k.set ++ rest)
    (hkey : k.user.tag :: k.user.bytes = rest ++ l.user.tag :: l.user.bytes) :
    k = l ∨ k.Absorbs l := by
  cases rest with
  | nil =>
    rw [List.append_nil] at hset
    rw [List.nil_append, List.cons.injEq] at hkey
    left
    rw [RecordKey.mk.injEq]
    exact ⟨hns, (textBytes_inj hset).symm, UserKey.eq_of_bytes hkey.1 hkey.2⟩
  | cons b rest =>
    right
    rw [List.cons_append, List.cons.injEq] at hkey
    obtain ⟨rfl, hbytes⟩ := hkey
    have hmark : textBytes l.set =
        textBytes k.set ++ (textBytes (String.singleton k.user.mark) ++ rest) := by
      rw [hset, UserKey.textBytes_mark, List.singleton_append]
    have hnonempty : String.singleton k.user.mark ≠ "" := by simp
    obtain ⟨front, back, hname, hfront, rfl⟩ := Text.exists_append_of_textBytes hnonempty hmark
    obtain rfl := textBytes_inj hfront
    exact ⟨back, hname, hbytes⟩

/-- **The same bytes are hashed for two keys** of a namespace if they are the same or one of them
absorbs the rest of the name of the other's set.

**Proof sketch.** One of the two names begins with the other one. If it does not go on, then the
tags and the keys are the same; if it does, then its next byte is the tag of the other key. -/
theorem hashInput_eq_iff (hns : k.ns = l.ns) :
    k.hashInput = l.hashInput ↔ k = l ∨ k.Absorbs l ∨ l.Absorbs k := by
  constructor
  · intro h
    rw [hashInput_eq, hashInput_eq, List.append_eq_append_iff] at h
    rcases h with ⟨rest, hset, hkey⟩ | ⟨rest, hset, hkey⟩
    · exact (eq_or_absorbs hns hset hkey).imp_right .inl
    · exact (eq_or_absorbs hns.symm hset hkey).imp Eq.symm .inr
  · rintro (rfl | h | h)
    · rfl
    · exact h.hashInput_eq
    · exact h.hashInput_eq.symm

/-- **If the name of a set holds the mark of bytes, every key has a double**: bytes in the set that
is named by what stands before the mark. -/
theorem exists_absorbs (h : '\x04' ∈ l.set.toList) :
    ∃ k : RecordKey, k.ns = l.ns ∧ k.Absorbs l := by
  obtain ⟨front, back, hname⟩ := List.append_of_mem h
  refine ⟨⟨l.ns, .ofList front, .blob (textBytes (.ofList back) ++ l.user.tag :: l.user.bytes)⟩,
    rfl, .ofList back, ?_, rfl⟩
  rw [← String.toList_inj, hname]
  simp [UserKey.mark]

end RecordKey

/-- The name holds none of the characters that mark keys. -/
def HoldsNoMark (name : String) : Prop :=
  ∀ c ∈ ['\x01', '\x03', '\x04'], c ∉ name.toList

/-- There are three marks to look for. -/
instance (name : String) : Decidable (HoldsNoMark name) :=
  List.decidableBAll (· ∉ name.toList) ['\x01', '\x03', '\x04']

/-- Keys of one set do not absorb names, and neither do keys of sets whose names hold no mark. -/
lemma RecordKey.not_absorbs {k l : RecordKey}
    (h : k.set = l.set ∨ HoldsNoMark k.set ∧ HoldsNoMark l.set) : ¬k.Absorbs l := by
  intro habsorbs
  rcases h with hset | ⟨-, hmarks⟩
  · exact habsorbs.set_ne hset
  · have hmem : k.user.mark ∈ ['\x01', '\x03', '\x04'] := by
      cases k.user <;> simp [UserKey.mark]
    exact hmarks _ hmem habsorbs.mark_mem

/-! ## Digests -/

/-- Two different messages with the same hash. -/
def Sha256.Collide (m m' : List UInt8) : Prop := m ≠ m' ∧ digest m = digest m'

/-- Without a collision, digests tell whether the same bytes were hashed. -/
lemma RecordKey.digest_eq_iff {k l : RecordKey}
    (hhash : ¬Sha256.Collide k.hashInput l.hashInput) :
    k.digest = l.digest ↔ k.hashInput = l.hashInput := by
  refine ⟨fun h => ?_, congrArg Sha256.digest⟩
  by_contra hne
  exact hhash ⟨hne, h⟩

/-- **What the digests in rows tell of the keys.** For two keys of a namespace the same bytes are
hashed if and only if the keys are the same or one of them absorbs the rest of the name of the
other's set. No key does so among keys of one set, or of sets whose names hold no mark; but if a
name holds the mark of bytes, every key of its set is absorbed by another one. Rows show digests as
they are, unless a bin has the name of the digest. So the digest in a row tells, if the hash
function does not collide, which record of its set it is, and of the namespace as well if no name
holds a mark.

**Proof sketch.** The bytes that are hashed are compared from the front
(`RecordKey.hashInput_eq_iff`); without a collision they are known from the digest
(`RecordKey.digest_eq_iff`). -/
theorem RecordKey.digest_separates {k l : RecordKey} (hns : k.ns = l.ns) :
    (k.hashInput = l.hashInput ↔ k = l ∨ k.Absorbs l ∨ l.Absorbs k) ∧
    (k.set = l.set ∨ HoldsNoMark k.set ∧ HoldsNoMark l.set → ¬k.Absorbs l ∧ ¬l.Absorbs k) ∧
    ('\x04' ∈ l.set.toList → ∃ k' : RecordKey, k'.ns = l.ns ∧ k'.Absorbs l) ∧
    ∀ r s : Record, r.key = k → s.key = l → r.bin? digestColumn = none →
      s.bin? digestColumn = none → ¬Sha256.Collide k.hashInput l.hashInput →
      ((Row.ofRecord r true).get? digestColumn = (Row.ofRecord s true).get? digestColumn ↔
        k = l ∨ k.Absorbs l ∨ l.Absorbs k) := by
  refine ⟨hashInput_eq_iff hns, fun h => ⟨not_absorbs h, not_absorbs ?_⟩, exists_absorbs, ?_⟩
  · exact h.imp Eq.symm And.symm
  · rintro r s rfl rfl hr hs hhash
    have hshown : ∀ r : Record, r.bin? digestColumn = none →
        (Row.ofRecord r true).get? digestColumn = some (.blob r.key.digest) := by
      intro r hr
      rw [Row.get?_ofRecord, hr]
      rfl
    rw [hshown r hr, hshown s hs, Option.some.injEq, Value.blob.injEq, digest_eq_iff hhash,
      hashInput_eq_iff hns]

/-- The first record of one set has another digest than that of another set, but two texts in sets
the one of whose names is the other one and more have the same.

**Proof sketch.** The names of the first two sets hold no mark, so neither key absorbs the other
(`digest_separates`), and their hashes are evaluated. For the other two keys, the name of one set
ends in what is absorbed, so the hashed bytes are the same. -/
theorem RecordKey.digest_separates_names :
    let person : RecordKey := ⟨"test", "people", .integer 1⟩
    let order : RecordKey := ⟨"test", "orders", .integer 1⟩
    let k : RecordKey := ⟨"test", "a", .text "b\x03c"⟩
    let l : RecordKey := ⟨"test", "a\x03b", .text "c"⟩
    (person.ns = order.ns ∧ HoldsNoMark person.set ∧ HoldsNoMark order.set ∧
      ¬Sha256.Collide person.hashInput order.hashInput ∧
      (Row.ofRecord ⟨person, .empty⟩ true).get? digestColumn ≠
        (Row.ofRecord ⟨order, .empty⟩ true).get? digestColumn) ∧
    k.ns = l.ns ∧ k ≠ l ∧ k.hashInput = l.hashInput ∧
      (Row.ofRecord ⟨k, .empty⟩ true).get? digestColumn =
        (Row.ofRecord ⟨l, .empty⟩ true).get? digestColumn := by
  intro person order k l
  have hperson : HoldsNoMark person.set := by decide
  have horder : HoldsNoMark order.set := by decide
  have hhash : ¬Sha256.Collide person.hashInput order.hashInput := by
    rintro ⟨-, hequal⟩
    revert hequal
    decide +kernel
  obtain ⟨-, hapart, -, hrows⟩ := digest_separates (k := person) (l := order) rfl
  obtain ⟨hkl, hlk⟩ := hapart (.inr ⟨hperson, horder⟩)
  have hdiffer : (Row.ofRecord ⟨person, .empty⟩ true).get? digestColumn ≠
      (Row.ofRecord ⟨order, .empty⟩ true).get? digestColumn := by
    rw [ne_eq, hrows _ _ rfl rfl rfl rfl hhash]
    rintro (heq | habsorbs | habsorbs)
    · exact absurd heq (by decide)
    · exact hkl habsorbs
    · exact hlk habsorbs
  have habsorbs : k.Absorbs l := ⟨"b", by decide, by decide +kernel⟩
  obtain ⟨hinput, -, -, hshown⟩ := digest_separates (k := k) (l := l) rfl
  have hsame : k.hashInput = l.hashInput := hinput.mpr (.inr (.inl habsorbs))
  exact ⟨⟨rfl, hperson, horder, hhash, hdiffer⟩, rfl, by decide, hsame,
    (hshown _ _ rfl rfl rfl rfl fun h => h.1 hsame).mpr (.inr (.inl habsorbs))⟩

end RecordQuery
