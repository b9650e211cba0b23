import MiniLisp.Text.Blank

/-!
# Lexemes

This module supplies the lexeme at the head of a text: the longest stretch
that makes up one token.  There are five kinds: a tilde, alone or followed by
an at sign; a mark of one character; a string, from a double quote to the
first quote that no backslash consumes, or to the end of the text; a comment,
from a semicolon to the end of the line; and a word, which runs up to the next
character that breaks words.

The two parts of the split concatenate to the text (`split_append`).
-/

namespace MiniLisp.Lexeme

open MiniLisp.Text (isBlank)

/-- Characters that stand between lexemes: blanks and commas. -/
def isSeparator (character : Char) : Bool :=
  isBlank character || character == ','

/-- Characters that make up a lexeme on their own. -/
def isMark (character : Char) : Bool :=
  ['(', ')', '[', ']', '{', '}', '\x27', '\x60', '^', '@'].contains character

/-- Characters at which a word ends. -/
def breaksWord (character : Char) : Bool :=
  isBlank character ||
    ['(', ')', '[', ']', '{', '}', '\x27', '"', '\x60', ',', ';'].contains character

/-- Characters at which a comment ends. -/
def endsLine (character : Char) : Bool :=
  character == '\n' || character == '\r'

/--
The rest of a string after its opening quote, up to and including the closing
quote, and the text after it.  A backslash consumes the character after it.
-/
def splitString : List Char → List Char × List Char
  | [] => ([], [])
  | '"' :: rest => (['"'], rest)
  | '\\' :: character :: rest =>
    let (body, tail) := splitString rest
    ('\\' :: character :: body, tail)
  | character :: rest =>
    let (body, tail) := splitString rest
    (character :: body, tail)

/-- The lexeme at the head of a text, and the text after it. -/
def split (first : Char) (rest : List Char) : List Char × List Char :=
  if first = '~' then
    match rest with
    | '@' :: tail => (['~', '@'], tail)
    | _ => (['~'], rest)
  else if isMark first then
    ([first], rest)
  else if first = '"' then
    (first :: (splitString rest).1, (splitString rest).2)
  else if first = ';' then
    (first :: rest.takeWhile (!endsLine ·), rest.dropWhile (!endsLine ·))
  else
    (first :: rest.takeWhile (!breaksWord ·), rest.dropWhile (!breaksWord ·))

/-- A string and the text after it make up the whole text. -/
theorem splitString_append (text : List Char) :
    (splitString text).1 ++ (splitString text).2 = text := by
  fun_induction splitString text <;> simp_all

/-- A lexeme and the text after it make up the whole text. -/
theorem split_append (first : Char) (rest : List Char) :
    (split first rest).1 ++ (split first rest).2 = first :: rest := by
  unfold split
  split
  · subst first
    split <;> simp
  · split
    · rfl
    · split
      · simp [splitString_append]
      · split <;> simp

/-- A lexeme has at least one character. -/
theorem split_fst_ne_nil (first : Char) (rest : List Char) :
    (split first rest).1 ≠ [] := by
  unfold split
  split
  · split <;> simp
  · repeat' split
    all_goals simp

/-- The text after a lexeme is no longer than the text after its first character. -/
theorem length_split_snd_le (first : Char) (rest : List Char) :
    (split first rest).2.length ≤ rest.length := by
  have lengths := congrArg List.length (split_append first rest)
  have nonempty := List.length_pos_iff.2 (split_fst_ne_nil first rest)
  simp only [List.length_append, List.length_cons] at lengths
  omega

end MiniLisp.Lexeme
