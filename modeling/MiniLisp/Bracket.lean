/-!
# Brackets

This module supplies the three kinds of brackets that enclose the items of a
collection, and the recognition of a bracket from the text of a token.
-/

namespace MiniLisp

/-- Round brackets enclose lists, square brackets vectors, curly ones maps. -/
inductive Bracket where
  | round
  | square
  | curly
deriving DecidableEq, Repr

namespace Bracket

/-- The character that opens the bracket. -/
def opening : Bracket → Char
  | round => '('
  | square => '['
  | curly => '{'

/-- The character that closes the bracket. -/
def closing : Bracket → Char
  | round => ')'
  | square => ']'
  | curly => '}'

/-- The bracket that a text opens. -/
def ofOpening? : List Char → Option Bracket
  | ['('] => some round
  | ['['] => some square
  | ['{'] => some curly
  | _ => none

/-- The bracket that a text closes. -/
def ofClosing? : List Char → Option Bracket
  | [')'] => some round
  | [']'] => some square
  | ['}'] => some curly
  | _ => none

@[simp]
theorem ofOpening?_eq_some_iff
    {text : List Char}
    {bracket : Bracket} :
    ofOpening? text = some bracket ↔ text = [bracket.opening] := by
  constructor
  · intro opens
    unfold ofOpening? at opens
    split at opens <;> cases opens <;> rfl
  · rintro rfl
    cases bracket <;> rfl

@[simp]
theorem ofClosing?_eq_some_iff
    {text : List Char}
    {bracket : Bracket} :
    ofClosing? text = some bracket ↔ text = [bracket.closing] := by
  constructor
  · intro closes
    unfold ofClosing? at closes
    split at closes <;> cases closes <;> rfl
  · rintro rfl
    cases bracket <;> rfl

end Bracket

end MiniLisp
