import RecordQuery.Value.Basic

set_option autoImplicit false

/-!
# Encoding of values as bytes

A list of values as bytes: its length, then each value as a tag of four bytes and its content.
Numbers are little-endian and of fixed width; everything of variable size is preceded by its
length. Two rows are duplicates of each other when their values have the same encoding.

## Main definitions

* `littleEndian` — the lowest bytes of a number, the lowest first.
* `Value.encode` — one value.
* `Value.encodeRow` — the values of a row.
-/

namespace RecordQuery

/-- The `n` lowest bytes of a number, the lowest first. -/
def littleEndian : Nat → Nat → List UInt8
  | 0, _ => []
  | n + 1, v => UInt8.ofNat v :: littleEndian n (v / 256)

/-- A number takes as many bytes as it is given. -/
@[simp]
theorem length_littleEndian (n v : Nat) : (littleEndian n v).length = n := by
  induction n generalizing v with
  | zero => rfl
  | succ n ih => simp [littleEndian, ih]

/-- Bytes preceded by their number. -/
def withLength (bs : List UInt8) : List UInt8 := littleEndian 8 bs.length ++ bs

/-- The bytes of a text. -/
def textBytes (s : String) : List UInt8 := s.toUTF8.toList

namespace Value

mutual

/-- A value as bytes. -/
def encode : Value → List UInt8
  | null => littleEndian 4 0
  | integer i => littleEndian 4 1 ++ littleEndian 8 i.toUInt64.toNat
  | float x => littleEndian 4 2 ++ littleEndian 8 x.bits.toNat
  | text s => littleEndian 4 3 ++ withLength (textBytes s)
  | boolean b => littleEndian 4 4 ++ [if b then 1 else 0]
  | blob bs => littleEndian 4 5 ++ withLength bs
  | list vs => littleEndian 4 6 ++ (littleEndian 8 vs.length ++ encodeList vs)

/-- Values as bytes, one after the other. -/
def encodeList : List Value → List UInt8
  | [] => []
  | v :: vs => encode v ++ encodeList vs

end

/-- The values of a row as bytes. -/
def encodeRow (vs : List Value) : List UInt8 := littleEndian 8 vs.length ++ encodeList vs

end Value

end RecordQuery
