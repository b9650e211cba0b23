import MiniLisp.Text.Position

/-!
# Tokens

This module supplies the tokens of a source text: a stretch of text together
with the place where it starts.  A token whose text starts with a semicolon is
a comment.
-/

namespace MiniLisp

/-- A stretch of source text and the position of its first character. -/
structure Token where
  text : List Char
  position : Position
deriving DecidableEq, Repr

namespace Token

/-- A token is a comment if its text starts with a semicolon. -/
def isComment (token : Token) : Bool :=
  token.text.head? == some ';'

end Token

end MiniLisp
