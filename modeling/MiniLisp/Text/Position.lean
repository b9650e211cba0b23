/-!
# Positions in a text

This module supplies the line and column of a place in a text, both counted
from one.  Only a line feed starts a new line; every other character, tabs and
carriage returns included, takes one column.
-/

namespace MiniLisp

/-- A line and a column, both counted from one. -/
structure Position where
  line : Nat
  column : Nat
deriving DecidableEq, Repr

namespace Position

/-- The position before the first character of a text. -/
def start : Position := ⟨1, 1⟩

/-- The position after one more character. -/
def step (position : Position) (character : Char) : Position :=
  if character = '\n' then
    ⟨position.line + 1, 1⟩
  else
    ⟨position.line, position.column + 1⟩

/-- The position after one more stretch of text. -/
def advance (position : Position) (text : List Char) : Position :=
  text.foldl step position

@[simp]
theorem advance_nil (position : Position) :
    position.advance [] = position := rfl

@[simp]
theorem advance_cons
    (position : Position)
    (character : Char)
    (text : List Char) :
    position.advance (character :: text) =
      (position.step character).advance text := rfl

@[simp]
theorem advance_append
    (position : Position)
    (first second : List Char) :
    position.advance (first ++ second) =
      (position.advance first).advance second := by
  simp [advance]

end Position

end MiniLisp
