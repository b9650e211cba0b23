/-!
# Escaped text

This module supplies the escaping of a text, which makes it fit between double
quotes on one line, and the decoding of escapes.

Escaping writes a backslash before each backslash and each double quote, and
writes a line feed as a backslash and the letter `n`.  Decoding is one pass
from left to right over these three escapes; a backslash before any other
character, or at the end, stands for itself.  Decoding an escaped text gives
the text back (`decode_encode`).
-/

namespace MiniLisp.Text.Escape

/-- The text with its backslashes, double quotes and line feeds escaped. -/
def encode : List Char → List Char
  | [] => []
  | '\\' :: rest => '\\' :: '\\' :: encode rest
  | '"' :: rest => '\\' :: '"' :: encode rest
  | '\n' :: rest => '\\' :: 'n' :: encode rest
  | character :: rest => character :: encode rest

/-- The text with its three kinds of escape decoded. -/
def decode : List Char → List Char
  | [] => []
  | '\\' :: '\\' :: rest => '\\' :: decode rest
  | '\\' :: '"' :: rest => '"' :: decode rest
  | '\\' :: 'n' :: rest => '\n' :: decode rest
  | character :: rest => character :: decode rest

/-- Decoding takes back what encoding did. -/
@[simp]
theorem decode_encode (text : List Char) :
    decode (encode text) = text := by
  fun_induction encode text with
  | case1 => rfl
  | case2 rest ih => simp [decode, ih]
  | case3 rest ih => simp [decode, ih]
  | case4 rest ih => simp [decode, ih]
  | case5 character rest notBackslash notQuote notLineFeed ih =>
    rw [decode.eq_def]
    split <;> simp_all

end MiniLisp.Text.Escape
