import RecordQuery.Binary64.Decimal
import RecordQuery.Text.Quoted
import RecordQuery.Value.Basic

set_option autoImplicit false

/-!
# Text of values

How values are written in messages and joined texts.

## Main definitions

* `intText` — an integer in decimal.
* `Value.display` — a value; texts stand between single quotes, bytes as hexadecimal digits.
* `Value.plainText` — a text as it is, any other value as displayed.
-/

namespace RecordQuery

/-- An integer in decimal. -/
def intText (i : Int) : String :=
  String.ofList ((if i < 0 then ['-'] else []) ++ Nat.toDigits 10 i.natAbs)

/-- A natural number in decimal. -/
def natText (n : Nat) : String := String.ofList (Nat.toDigits 10 n)

/-- Texts with `, ` between them. -/
def commaSeparated (ss : List String) : String := String.intercalate ", " ss

/-- The text of a truth value. -/
def boolText (b : Bool) : String := if b then "true" else "false"

/-- Bytes in messages. -/
def blobText (bs : List UInt8) : String := "X'" ++ Text.hex bs ++ "'"

namespace Value

mutual

/-- A value in messages. -/
def display : Value → String
  | null => "NULL"
  | boolean b => boolText b
  | integer i => intText i.toInt
  | float x => x.toText
  | text s => "'" ++ s ++ "'"
  | blob bs => blobText bs
  | list vs => "[" ++ commaSeparated (displayList vs) ++ "]"

/-- The texts of several values. -/
def displayList : List Value → List String
  | [] => []
  | v :: vs => display v :: displayList vs

end

/-- A text as it is, any other value as displayed. -/
def plainText : Value → String
  | text s => s
  | v => v.display

end Value

end RecordQuery
