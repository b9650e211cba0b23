import MiniLisp.Proofs.Form.Programs
import MiniLisp.Proofs.Token.Relocation

/-!
# Programs at other positions

This module shows that positions are passed through by the reader and decide nothing.
If every token stands somewhere else, the same forms are read, and an error is the same
but for the position that it names (`Program.ofTokens_relocate`).

Two sequences of tokens with the same texts are the same once all positions are
forgotten, and so are their programs (`Program.relocate_start_congr`).
-/

namespace MiniLisp

/-- The error with the position that it names moved. -/
def ParseError.relocate (move : Position → Position) : ParseError → ParseError
  | endOfInput => endOfInput
  | unclosed bracket opened => unclosed bracket (move opened)
  | mismatched expected found position => mismatched expected found (move position)
  | unopened found position => unopened found (move position)
  | unterminated text position => unterminated text (move position)
  | oddMap count => oddMap count

/-- The open bracket at another position. -/
def OpenBracket.relocate
    (move : Position → Position)
    (top : OpenBracket) :
    OpenBracket :=
  ⟨top.bracket, move top.opened, top.items⟩

/-- The program with the position of its error moved. -/
def Program.relocate
    (move : Position → Position)
    (program : Program) :
    Program :=
  ⟨program.forms, program.stop.map (ParseError.relocate move)⟩

/-- The error of a collection names no position. -/
theorem Form.relocate_of_collect
    {bracket : Bracket}
    {items : List Value}
    {error : ParseError}
    (failed : collect bracket items = .error error)
    (move : Position → Position) :
    error.relocate move = error := by
  obtain ⟨-, rfl⟩ := eq_oddMap_of_collect failed
  rfl

namespace Machine

variable (move : Position → Position)

/-- The step with every position moved. -/
def Step.relocate : Step → Step
  | proceed stack => proceed (stack.map (OpenBracket.relocate move))
  | finish form => finish form
  | reject error => reject (error.relocate move)
  | refuse error => refuse (error.relocate move)

theorem supply_relocate
    (form : Value)
    (stack : List OpenBracket) :
    supply form (stack.map (OpenBracket.relocate move)) = (supply form stack).relocate move := by
  cases stack with
  | nil => rfl
  | cons top below => rfl

theorem close_relocate
    (found : Bracket)
    (position : Position)
    (stack : List OpenBracket) :
    close found (move position) (stack.map (OpenBracket.relocate move)) =
      (close found position stack).relocate move := by
  cases stack with
  | nil => rfl
  | cons top below =>
      simp only [List.map_cons, close, OpenBracket.relocate]
      split
      · cases collected : Form.collect top.bracket top.items with
        | ok form => exact supply_relocate move form below
        | error error =>
            show Step.reject error = .reject (error.relocate move)
            rw [Form.relocate_of_collect collected]
      · rfl

theorem passComment_relocate
    (text : List Char)
    (stack : List OpenBracket) :
    passComment text (stack.map (OpenBracket.relocate move)) =
      (passComment text stack).relocate move := by
  cases stack with
  | nil => rfl
  | cons top below => rfl

theorem step_relocate
    (stack : List OpenBracket)
    (token : Token) :
    step (stack.map (OpenBracket.relocate move)) (token.relocate move) =
      (step stack token).relocate move := by
  have sameText : (token.relocate move).text = token.text := rfl
  have sameKind : (token.relocate move).isComment = token.isComment := rfl
  cases opens : Bracket.ofOpening? token.text with
  | some bracket =>
      rw [step_opening opens, step_opening (sameText ▸ opens)]
      rfl
  | none =>
      cases closes : Bracket.ofClosing? token.text with
      | some found =>
          rw [step_closing closes, step_closing (sameText ▸ closes)]
          exact close_relocate move found token.position stack
      | none =>
          by_cases comment : token.isComment = true
          · rw [step_comment comment, step_comment (sameKind ▸ comment)]
            exact passComment_relocate move token.text stack
          · have plain : IsPlain token.text :=
              ⟨opens, closes, by simpa [Token.isComment] using comment⟩
            rw [step_plain stack plain, step_plain _ (sameText ▸ plain), sameText]
            cases Atom.ofText? token.text with
            | some form => exact supply_relocate move form stack
            | none => rfl

theorem exhausted_relocate (stack : List OpenBracket) :
    exhausted (stack.map (OpenBracket.relocate move)) = (exhausted stack).relocate move := by
  cases stack with
  | nil => rfl
  | cons top below => rfl

/-- A run goes on in the same way wherever the tokens stand. -/
theorem run_relocate
    (stack : List OpenBracket)
    (tokens : List Token) :
    run (stack.map (OpenBracket.relocate move)) (tokens.map (Token.relocate move)) =
      ((run stack tokens).1.mapError (ParseError.relocate move),
        (run stack tokens).2.map (Token.relocate move)) := by
  induction tokens generalizing stack with
  | nil =>
      show (Except.error (exhausted _), []) = _
      rw [exhausted_relocate]
      rfl
  | cons token rest ih =>
      rw [List.map_cons, run, run, step_relocate]
      cases step stack token with
      | proceed after => exact ih after
      | finish form => rfl
      | reject error => rfl
      | refuse error => rfl

end Machine

namespace Program

/-- The same forms are read wherever the tokens stand, and an error moves with them. -/
theorem ofTokens_relocate
    (move : Position → Position)
    (tokens : List Token) :
    ofTokens (tokens.map (Token.relocate move)) = (ofTokens tokens).relocate move := by
  induction tokens using induction_on_tokens with
  | nil =>
      rw [List.map_nil, ofTokens_nil]
      rfl
  | failed token rest error left failed =>
      have moved := Machine.run_relocate move [] (token :: rest)
      rw [failed] at moved
      rw [ofTokens_of_run_error failed, List.map_cons, ofTokens_of_run_error moved]
      rfl
  | form tokens form left success ih =>
      have moved := Machine.run_relocate move [] tokens
      rw [success] at moved
      rw [ofTokens_of_run_ok success, ofTokens_of_run_ok moved, ih]
      rfl

/-- The texts of the tokens decide everything but positions. -/
theorem relocate_start_congr
    {tokens others : List Token}
    (sameTexts : tokens.map Token.text = others.map Token.text) :
    (ofTokens tokens).relocate (fun _ => .start) =
      (ofTokens others).relocate (fun _ => .start) := by
  have relocated : ∀ tokens : List Token,
      tokens.map (Token.relocate fun _ => .start) =
        (tokens.map Token.text).map fun text => ⟨text, .start⟩ := by
    intro tokens
    rw [List.map_map]
    rfl
  rw [← ofTokens_relocate, ← ofTokens_relocate, relocated, relocated, sameTexts]

/-- A program without an error has the same forms wherever its tokens stand. -/
theorem ofTokens_congr
    {tokens others : List Token}
    (sameTexts : tokens.map Token.text = others.map Token.text)
    (complete : (ofTokens others).stop = none) :
    (ofTokens tokens).forms = (ofTokens others).forms ∧ (ofTokens tokens).stop = none := by
  have same := relocate_start_congr sameTexts
  constructor
  · have sameForms := congrArg Program.forms same
    exact sameForms
  · have sameStop := congrArg Program.stop same
    rw [relocate, relocate, complete] at sameStop
    exact Option.map_eq_none_iff.1 sameStop

end Program

end MiniLisp
