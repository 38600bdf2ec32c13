set_option autoImplicit false

/-!
# Parts of texts

Counting, cutting and searching by characters.

## Main definitions

* `Text.length`, `Text.take`, `Text.drop`, `Text.takeEnd`, `Text.reverse`.
* `Text.indexOf?` — where a text first occurs in another.
* `Text.splitOnce?`, `Text.dropPrefix?` — taking a text apart at a known part.
-/

namespace RecordQuery.Text

/-- The number of characters. -/
def length (s : String) : Nat := s.toList.length

/-- The first `n` characters, or all of them. -/
def take (n : Nat) (s : String) : String := String.ofList (s.toList.take n)

/-- All but the first `n` characters. -/
def drop (n : Nat) (s : String) : String := String.ofList (s.toList.drop n)

/-- The last `n` characters, or all of them. -/
def takeEnd (n : Nat) (s : String) : String := drop (length s - n) s

/-- The characters in opposite order. -/
def reverse (s : String) : String := String.ofList s.toList.reverse

/-- The least number of characters after which `needle` begins. -/
def indexOfChars (needle : List Char) : List Char → Option Nat
  | [] => if needle.isEmpty then some 0 else none
  | c :: cs =>
    if needle.isPrefixOf (c :: cs) then some 0 else (indexOfChars needle cs).map (· + 1)

/-- The least number of characters of `s` after which `needle` begins. -/
def indexOf? (needle s : String) : Option Nat := indexOfChars needle.toList s.toList

/-- The characters before the first `c` and those after it. -/
def splitChars (c : Char) : List Char → Option (List Char × List Char)
  | [] => none
  | d :: ds =>
    if d = c then some ([], ds) else (splitChars c ds).map (fun p => (d :: p.1, p.2))

/-- The parts of a text before and after the first `c`. -/
def splitOnce? (c : Char) (s : String) : Option (String × String) :=
  (splitChars c s.toList).map (fun p => (String.ofList p.1, String.ofList p.2))

/-- What follows `start` in a text that begins with it. -/
def dropPrefix? (start s : String) : Option String :=
  if start.toList.isPrefixOf s.toList then some (drop (length start) s) else none

/-- Whether a text ends with `tail`. -/
def endsWith (tail s : String) : Bool := tail.toList.isSuffixOf s.toList

end RecordQuery.Text
