import RecordQuery.Digest.Sha256
import RecordQuery.Error
import RecordQuery.OrderedMap
import RecordQuery.Value.Encoding

set_option autoImplicit false

/-!
# Records

A record has a key, unique in its set, and bins, which are named values. Records carry no schema.

## Main definitions

* `UserKey`, `RecordKey`, `Bins`, `Record`.
* `UserKey.ofValue?` — the key that a value stands for.
* `RecordKey.hashInput`, `RecordKey.digest` — the digest of a key and what it is taken of.
* `keyColumn`, `digestColumn` — the names under which rows show the key and its digest.
-/

namespace RecordQuery

/-- The name under which a row shows the key of its record. -/
def keyColumn : String := "PK"

/-- The name under which a row shows the digest of its record's key. -/
def digestColumn : String := "PK_DIGEST"

/-- The part of a record's key that its user chooses. -/
inductive UserKey where
  /-- An integer. -/
  | integer (i : Int64)
  /-- A text. -/
  | text (s : String)
  /-- A sequence of bytes. -/
  | blob (bs : List UInt8)
  deriving DecidableEq, Inhabited

namespace UserKey

/-- The key that a value stands for. Integers, texts and bytes are keys as they are; a float is
truncated to an integer, a truth value becomes `0` or `1`. -/
def ofValue? : Value → Except QueryError UserKey
  | .integer i => .ok (.integer i)
  | .text s => .ok (.text s)
  | .blob bs => .ok (.blob bs)
  | .float x => .ok (.integer x.toInt64)
  | .boolean b => .ok (.integer (boolInt b))
  | .null => .error .nullKey
  | .list vs => .error (.listKey (Value.list vs).display)

/-- A key as a value. -/
def toValue : UserKey → Value
  | integer i => .integer i
  | text s => .text s
  | blob bs => .blob bs

/-- A key in messages. -/
def display (k : UserKey) : String := k.toValue.display

/-- A key is the key of its own value. -/
theorem ofValue?_toValue (k : UserKey) : ofValue? k.toValue = .ok k := by
  cases k <;> rfl

end UserKey

/-- The key of a record: the namespace and set it lives in and its user key. -/
structure RecordKey where
  /-- The namespace. -/
  ns : String
  /-- The set inside the namespace. -/
  set : String
  /-- The key inside the set. -/
  user : UserKey
  deriving DecidableEq

namespace RecordKey

/-- The bytes whose hash is the digest: the set's name, a tag for the kind of key, and the key. -/
def hashInput (k : RecordKey) : List UInt8 :=
  textBytes k.set ++
    match k.user with
    | .integer i => 1 :: (littleEndian 8 i.toUInt64.toNat).reverse
    | .text s => 3 :: textBytes s
    | .blob bs => 4 :: bs

/-- The digest of a record's key inside its namespace. -/
def digest (k : RecordKey) : List UInt8 := Sha256.digest k.hashInput

end RecordKey

/-- The named values of a record. -/
abbrev Bins := OrderedMap String Value

/-- A record of the store. -/
structure Record where
  /-- The key. -/
  key : RecordKey
  /-- The bins. -/
  bins : Bins

namespace Record

/-- The value of a bin. -/
def bin? (r : Record) (name : String) : Option Value := r.bins.get? name

end Record

end RecordQuery
