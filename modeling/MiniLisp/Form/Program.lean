import MiniLisp.Form.Reading
import MiniLisp.Token.Cursor

/-!
# Programs

This module supplies the reading of a whole source text: its first form alone,
or all of its forms in order.  A program keeps the forms that stand in front of
the first error, because they are evaluated before the error is noticed.
-/

namespace MiniLisp

/-- The forms of a source text up to the first error. -/
structure Program where
  /-- The forms that could be read, comments included. -/
  forms : List Value
  /-- The error that ended the reading before the text did. -/
  stop : Option ParseError

namespace Program

/-- The forms of a sequence of tokens. -/
def ofTokens (tokens : List Token) : Program :=
  match tokens with
  | [] => ⟨[], none⟩
  | token :: rest =>
    match Form.read (token :: rest) with
    | .failed error _ => ⟨[], some error⟩
    | .done form left _ =>
      let program := ofTokens left
      ⟨form :: program.forms, program.stop⟩
termination_by tokens.length
decreasing_by assumption

@[simp]
theorem ofTokens_nil : ofTokens [] = ⟨[], none⟩ := by
  rw [ofTokens]

/-- A program is its first form and the program that follows it. -/
theorem ofTokens_cons (token : Token) (rest : List Token) :
    ofTokens (token :: rest) =
      match (Form.read (token :: rest)).outcome with
      | (.error error, _) => ⟨[], some error⟩
      | (.ok form, left) =>
        ⟨form :: (ofTokens left).forms, (ofTokens left).stop⟩ := by
  rw [ofTokens]
  cases Form.read (token :: rest) <;> rfl

/-- The forms of a source text. -/
def ofSource (source : String) : Program :=
  ofTokens (Token.ofSource source)

/-- All forms of the text, if none of them has an error. -/
def complete (program : Program) : Except ParseError (List Value) :=
  match program.stop with
  | some error => .error error
  | none => .ok program.forms

end Program

namespace Form

/-- The first form of a source text. -/
def ofSource (source : String) : Except ParseError Value :=
  (read (Token.ofSource source)).result

end Form

end MiniLisp
