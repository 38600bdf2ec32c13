set_option autoImplicit false

/-!
# Blanks at the ends of texts

The characters that count as blank, and removing them from either end of a text.

## Main definitions

* `Text.isBlank` — the white space of Unicode.
* `Text.trimStart`, `Text.trimEnd`, `Text.trim`.

## Main results

* `Text.isBlank_of_isWhitespace` — every ASCII blank is one.
-/

namespace RecordQuery.Text

/-- White space: the ASCII controls 9 to 13, the space, and the other spaces and separators. -/
def isBlank (c : Char) : Bool :=
  let n := c.toNat
  decide (9 ≤ n ∧ n ≤ 13) || n == 0x20 || n == 0x85 || n == 0xA0 || n == 0x1680 ||
    decide (0x2000 ≤ n ∧ n ≤ 0x200A) || n == 0x2028 || n == 0x2029 || n == 0x202F ||
    n == 0x205F || n == 0x3000

/-- Every blank of ASCII is one. -/
theorem isBlank_of_isWhitespace {c : Char} (h : c.isWhitespace = true) : isBlank c = true := by
  simp only [Char.isWhitespace, Bool.or_eq_true, decide_eq_true_eq] at h
  rcases h with ((rfl | rfl) | rfl) | rfl <;> decide

/-- The text without its leading blanks. -/
def trimStart (s : String) : String := String.ofList (s.toList.dropWhile isBlank)

/-- The text without its trailing blanks. -/
def trimEnd (s : String) : String :=
  String.ofList (s.toList.reverse.dropWhile isBlank).reverse

/-- The text without leading and trailing blanks. -/
def trim (s : String) : String := trimEnd (trimStart s)

end RecordQuery.Text
