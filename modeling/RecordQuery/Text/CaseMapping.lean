import RecordQuery.Text.CaseTables

set_option autoImplicit false

/-!
# Upper and lower case of texts

The full case mapping of Unicode, character by character, where one character may become several.
A capital sigma has two lower cases: at the end of a word it becomes the final sigma. It ends a
word when a letter with a case stands before it and none after it, looking through characters that
do not interrupt a word.

## Main definitions

* `Text.upper`, `Text.lower` — a whole text.
* `Text.endsWord` — where a capital sigma becomes the final one.
-/

namespace RecordQuery.Text

/-- Whether a code point lies in one of the ranges. -/
def inRanges (ranges : Array (Nat × Nat)) (c : Char) : Bool :=
  ranges.any (fun r => decide (r.1 ≤ c.toNat) && decide (c.toNat ≤ r.2))

/-- The mapping of a character: by the list of sequences, else by the ranges, else to itself. -/
def mapChar (sequences : Array (Nat × List Nat)) (ranges : Array (Nat × Nat × Nat × Int))
    (c : Char) : List Char :=
  match sequences.find? (fun s => decide (s.1 = c.toNat)) with
  | some s => s.2.map Char.ofNat
  | none =>
    match ranges.find? (fun r => decide (r.1 ≤ c.toNat) && decide (c.toNat ≤ r.2.1) &&
        decide ((c.toNat - r.1) % r.2.2.1 = 0)) with
    | some r => [Char.ofNat (c.toNat + r.2.2.2).toNat]
    | none => [c]

/-- The upper case of a character. -/
def upperChar (c : Char) : List Char :=
  if c.toNat < 128 then [c.toUpper]
  else mapChar CaseTables.upperSequences CaseTables.upperRanges c

/-- The lower case of a character that stands alone. -/
def lowerChar (c : Char) : List Char :=
  if c.toNat < 128 then [c.toLower]
  else mapChar CaseTables.lowerSequences CaseTables.lowerRanges c

/-- Whether the first character that casing does not look through has a case. -/
def startsCased (cs : List Char) : Bool :=
  match cs.dropWhile (inRanges CaseTables.ignorable) with
  | [] => false
  | c :: _ => inRanges CaseTables.cased c

/-- Whether a capital sigma ends a word, given the characters before it, nearest first, and those
after it. -/
def endsWord (before after : List Char) : Bool := startsCased before && !startsCased after

/-- The lower case of the characters `cs`, which follow `before`, nearest first. -/
def lowerFrom : List Char → List Char → List Char
  | _, [] => []
  | before, c :: cs =>
    (if c = 'Σ' then (if endsWord before cs then ['ς'] else ['σ']) else lowerChar c) ++
      lowerFrom (c :: before) cs

/-- The upper case of a text. -/
def upper (s : String) : String := String.ofList (s.toList.flatMap upperChar)

/-- The lower case of a text. -/
def lower (s : String) : String := String.ofList (lowerFrom [] s.toList)

/-- The text with the letters `A` to `Z` in lower case and all else unchanged. -/
def lowerAscii (s : String) : String := String.ofList (s.toList.map Char.toLower)

end RecordQuery.Text
