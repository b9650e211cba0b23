import MiniLisp.Text.Decimal
import MiniLisp.Value

/-!
# Atoms

This module supplies the form that a single token stands for, when the token is
neither a bracket nor a comment.  Reserved words and numerals come first, then
keywords and strings; every other token is a symbol.
-/

namespace MiniLisp.Atom

/--
The contents of a string from the text after its opening quote: everything in
front of a closing quote at the very end.  An odd run of backslashes in front of
the last quote consumes the quote, so that the string stays open.
-/
def contents? (body : List Char) : Option (List Char) :=
  match body.reverse with
  | '"' :: inner =>
    if (inner.takeWhile (· = '\\')).length % 2 = 0 then
      some inner.reverse
    else
      none
  | _ => none

/-- The reserved word that a text is. -/
def reserved? (text : List Char) : Option Value :=
  if text = ['n', 'i', 'l'] then
    some .nil
  else if text = ['t', 'r', 'u', 'e'] then
    some (.boolean true)
  else if text = ['f', 'a', 'l', 's', 'e'] then
    some (.boolean false)
  else
    none

/-- The form of a token that is neither a reserved word nor a numeral. -/
def ofWord? : List Char → Option Value
  | ':' :: name => some (.keyword (String.ofList name))
  | '"' :: body => (contents? body).map fun contents => .string (String.ofList contents)
  | text => some (.symbol (String.ofList text))

/-- The form of a token, unless the token is a string that stays open. -/
def ofText? (text : List Char) : Option Value :=
  match reserved? text with
  | some value => some value
  | none =>
    match Text.Decimal.int64? text with
    | some integer => some (.number integer)
    | none => ofWord? text

end MiniLisp.Atom
