import MiniLisp.Bracket
import MiniLisp.Text.Position

/-!
# Errors in source text

This module supplies the ways in which a sequence of tokens can fail to be a
sequence of forms, and their messages.

The first two errors and the unterminated string mean that the text stops too
early and could be completed; the others remain whatever follows.
-/

namespace MiniLisp

/-- The reason why tokens are not forms. -/
inductive ParseError where
  /-- There are no more tokens where a form was asked for. -/
  | endOfInput
  /-- There are no more tokens after a bracket that was opened at a position. -/
  | unclosed (bracket : Bracket) (opened : Position)
  /-- A bracket is closed in place of the innermost open one. -/
  | mismatched (expected found : Bracket) (position : Position)
  /-- A bracket is closed where none is open. -/
  | unopened (found : Bracket) (position : Position)
  /-- A string has no closing quote. -/
  | unterminated (text : List Char) (position : Position)
  /-- A map has a key without a value. -/
  | oddMap (count : Nat)
deriving DecidableEq, Repr

namespace ParseError

/-- A line and a column as messages show them. -/
def describePosition (position : Position) : String :=
  s!"{position.line}:{position.column}"

/-- The message that describes the error. -/
def message : ParseError → String
  | endOfInput => "unexpected end of input"
  | unclosed bracket opened =>
    "unexpected end of input: '" ++ bracket.opening.toString ++ "' opened at "
      ++ describePosition opened ++ " was never closed"
  | mismatched expected found position =>
    "mismatched delimiter at " ++ describePosition position ++ ": expected '"
      ++ expected.closing.toString ++ "', found '" ++ found.closing.toString ++ "'"
  | unopened found position =>
    "unbalanced delimiter '" ++ found.closing.toString ++ "' at "
      ++ describePosition position
  | unterminated text position =>
    "unterminated string at " ++ describePosition position ++ ": "
      ++ String.ofList text
  | oddMap count =>
    s!"map must contain an even number of forms, got {count}"

end ParseError

end MiniLisp
