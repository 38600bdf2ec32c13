import RecordQuery.Text.CaseMapping
import RecordQuery.Text.PrintTable

set_option autoImplicit false

/-!
# Quoted and hexadecimal texts

A quoted text stands between double quotes. Quotes, backslashes and the common controls are
escaped by a letter, other characters that do not stand alone in print by their number.

## Main definitions

* `Text.quoted` — a text between double quotes.
* `Text.hex` — bytes as pairs of lower-case hexadecimal digits.
-/

namespace RecordQuery.Text

/-- A character inside a quoted text. -/
def quotedChar (c : Char) : List Char :=
  if c = '\x00' then ['\\', '0']
  else if c = '\t' then ['\\', 't']
  else if c = '\r' then ['\\', 'r']
  else if c = '\n' then ['\\', 'n']
  else if c = '"' then ['\\', '"']
  else if c = '\\' then ['\\', '\\']
  else if inRanges PrintTable.unprinted c then
    ['\\', 'u', '\x7b'] ++ Nat.toDigits 16 c.toNat ++ ['\x7d']
  else [c]

/-- A text between double quotes. -/
def quoted (s : String) : String :=
  String.ofList ('"' :: (s.toList.flatMap quotedChar ++ ['"']))

/-- The two digits of a byte. -/
def hexByte (b : UInt8) : List Char :=
  [Nat.digitChar (b.toNat / 16), Nat.digitChar (b.toNat % 16)]

/-- Bytes as pairs of hexadecimal digits. -/
def hex (bs : List UInt8) : String := String.ofList (bs.flatMap hexByte)

end RecordQuery.Text
