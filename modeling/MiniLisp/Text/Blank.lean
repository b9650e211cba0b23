/-!
# Blank characters

This module supplies the table of the Unicode property `White_Space`, the test
for a character that has the property, and the removal of blank characters at
both ends of a text.

The table covers the whole of Unicode.  In particular every character that is
white space in ASCII is blank (`isBlank_of_isWhitespace`).
-/

namespace MiniLisp.Text

/-- The ranges of code points with the Unicode property `White_Space`. -/
def blankRanges : List (Nat × Nat) :=
  [(0x0009, 0x000D), (0x0020, 0x0020), (0x0085, 0x0085), (0x00A0, 0x00A0),
    (0x1680, 0x1680), (0x2000, 0x200A), (0x2028, 0x2029), (0x202F, 0x202F),
    (0x205F, 0x205F), (0x3000, 0x3000)]

/-- A character whose code point lies in one of the blank ranges. -/
def isBlank (character : Char) : Bool :=
  blankRanges.any fun range =>
    range.1 ≤ character.toNat && character.toNat ≤ range.2

/-- White space of ASCII is blank. -/
theorem isBlank_of_isWhitespace
    {character : Char}
    (white : character.isWhitespace = true) :
    isBlank character = true := by
  simp only [Char.isWhitespace, Bool.or_eq_true, decide_eq_true_eq] at white
  rcases white with ((rfl | rfl) | rfl) | rfl <;> decide

/-- The text without the blank characters at its two ends. -/
def trim (text : List Char) : List Char :=
  ((text.dropWhile isBlank).reverse.dropWhile isBlank).reverse

@[simp]
theorem trim_nil : trim [] = [] := rfl

end MiniLisp.Text
