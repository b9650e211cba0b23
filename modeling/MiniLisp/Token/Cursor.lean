import MiniLisp.Token
import MiniLisp.Token.Lexeme

/-!
# Reading tokens from a text

This module supplies a cursor, which is a place in a text together with the
text that follows it, and the sequence of tokens that a cursor meets on its
way to the end.  A token starts after the separators in front of it, and the
cursor moves by exactly the characters that it passes.
-/

namespace MiniLisp

/-- A position in a text and the text from there on. -/
structure Cursor where
  position : Position
  rest : List Char
deriving DecidableEq, Repr

namespace Cursor

/-- The cursor before the first character of a text. -/
def start (text : List Char) : Cursor := ⟨Position.start, text⟩

/-- The cursor after the separators in front of it. -/
def skipSeparators (cursor : Cursor) : Cursor :=
  ⟨cursor.position.advance (cursor.rest.takeWhile Lexeme.isSeparator),
    cursor.rest.dropWhile Lexeme.isSeparator⟩

/-- The next token, with the cursor after it, unless only separators follow. -/
def next? (cursor : Cursor) : Option (Token × Cursor) :=
  match cursor.skipSeparators.rest with
  | [] => none
  | first :: rest =>
    let position := cursor.skipSeparators.position
    let lexeme := Lexeme.split first rest
    some (⟨lexeme.1, position⟩, ⟨position.advance lexeme.1, lexeme.2⟩)

/-- Skipping separators makes the remaining text no longer. -/
theorem length_skipSeparators_le (cursor : Cursor) :
    cursor.skipSeparators.rest.length ≤ cursor.rest.length :=
  (List.dropWhile_sublist Lexeme.isSeparator).length_le

/-- The next token takes away at least one character. -/
theorem length_lt_of_next?
    {cursor after : Cursor}
    {token : Token}
    (found : cursor.next? = some (token, after)) :
    after.rest.length < cursor.rest.length := by
  have shorter := cursor.length_skipSeparators_le
  unfold next? at found
  split at found
  · cases found
  · next first rest equality =>
    have bound := Lexeme.length_split_snd_le first rest
    simp only [Option.some.injEq, Prod.mk.injEq] at found
    obtain ⟨-, rfl⟩ := found
    simp only [equality, List.length_cons] at shorter
    simp only
    omega

/-- All tokens from the cursor on, each with the cursor after it. -/
def trace (cursor : Cursor) : List (Token × Cursor) :=
  match _ : cursor.next? with
  | none => []
  | some (token, after) => (token, after) :: after.trace
termination_by cursor.rest.length
decreasing_by exact length_lt_of_next? ‹_›

/-- The tokens from the cursor on are the next one and those after it. -/
theorem trace_eq (cursor : Cursor) :
    cursor.trace =
      match cursor.next? with
      | none => []
      | some (token, after) => (token, after) :: after.trace := by
  rw [trace]
  split <;> simp_all

/-- The cursor after the last token and the separators that follow it. -/
def finish (cursor : Cursor) : Cursor :=
  ((cursor.trace.getLast?.map Prod.snd).getD cursor).skipSeparators

end Cursor

namespace Token

/-- The tokens of a text, in order. -/
def scan (text : List Char) : List Token :=
  (Cursor.start text).trace.map Prod.fst

/-- The tokens of a source text, in order. -/
def ofSource (source : String) : List Token :=
  scan source.toList

end Token

end MiniLisp
