import MiniLisp.Proofs.Form.Relocation

/-!
# Programs without their comments

This module shows that comments decide nothing but where comments are read.

Inside a bracket a comment is passed over wherever it stands: behind the opening bracket,
between items, between a key and its value, in front of the closing bracket, or where the
text ends too early (`Machine.run_dropComments`).  At the top level it is a form of its
own.  So a program without its comments has the same other forms and ends with the same
error (`Program.ofTokens_dropComments`).

Together with the fact that positions decide nothing either, the texts of the tokens that
are no comments decide what is read (`Program.congr_of_codeTexts`).
-/

namespace MiniLisp

/-- The tokens that are no comments. -/
def Token.dropComments (tokens : List Token) : List Token :=
  tokens.filter (!·.isComment)

/-- The texts of all tokens of a source text but the comments. -/
def Token.codeTexts (source : String) : List (List Char) :=
  (dropComments (ofSource source)).map text

namespace Token

@[simp]
theorem dropComments_nil : dropComments [] = [] := rfl

theorem dropComments_cons_comment
    {token : Token}
    (comment : token.isComment = true)
    (rest : List Token) :
    dropComments (token :: rest) = dropComments rest :=
  List.filter_cons_of_neg (by simp [comment])

theorem dropComments_cons
    {token : Token}
    (noComment : token.isComment = false)
    (rest : List Token) :
    dropComments (token :: rest) = token :: dropComments rest :=
  List.filter_cons_of_pos (by simp [noComment])

end Token

namespace Machine

/-- A machine that goes on has a bracket open. -/
theorem ne_nil_of_supply
    {form : Value}
    {stack after : List OpenBracket}
    (proceeds : supply form stack = .proceed after) :
    after ≠ [] := by
  cases stack with
  | nil => cases proceeds
  | cons top below =>
      cases proceeds
      exact List.cons_ne_nil _ _

theorem ne_nil_of_step
    {stack after : List OpenBracket}
    {token : Token}
    (proceeds : step stack token = .proceed after) :
    after ≠ [] := by
  rcases step_cases stack token with
    ⟨bracket, -, opens⟩ | ⟨found, -, closes⟩ | ⟨-, comment⟩ | ⟨form, -, -, atom⟩ | ⟨-, rejects⟩
  · rw [opens] at proceeds
    cases proceeds
    exact List.cons_ne_nil _ _
  · rw [closes] at proceeds
    cases stack with
    | nil => cases proceeds
    | cons top below =>
        rw [close] at proceeds
        split at proceeds
        · split at proceeds
          · exact ne_nil_of_supply proceeds
          · cases proceeds
        · cases proceeds
  · rw [comment] at proceeds
    cases stack with
    | nil => cases proceeds
    | cons top below =>
        cases proceeds
        exact List.cons_ne_nil top below
  · rw [atom] at proceeds
    exact ne_nil_of_supply proceeds
  · rw [rejects] at proceeds
    cases proceeds

/-- A token that is no comment makes the same step whatever comments follow. -/
theorem run_dropComments_of_step
    {stack : List OpenBracket}
    {token : Token}
    {rest : List Token}
    (noComment : token.isComment = false)
    (goesOn :
      ∀ after, after ≠ [] →
        run after (Token.dropComments rest) =
          ((run after rest).1, Token.dropComments (run after rest).2)) :
    run stack (Token.dropComments (token :: rest)) =
      ((run stack (token :: rest)).1, Token.dropComments (run stack (token :: rest)).2) := by
  rw [Token.dropComments_cons noComment, run, run]
  cases proceeds : step stack token with
  | proceed after => exact goesOn after (ne_nil_of_step proceeds)
  | finish form => rfl
  | reject error => rfl
  | refuse error => rw [Token.dropComments_cons noComment]

/-- Inside a bracket comments are passed over. -/
theorem run_dropComments
    {stack : List OpenBracket}
    (inside : stack ≠ [])
    (tokens : List Token) :
    run stack (Token.dropComments tokens) =
      ((run stack tokens).1, Token.dropComments (run stack tokens).2) := by
  induction tokens generalizing stack with
  | nil => rfl
  | cons token rest ih =>
      cases comment : token.isComment with
      | true =>
          cases stack with
          | nil => exact absurd rfl inside
          | cons top below =>
              rw [Token.dropComments_cons_comment comment, run, step_comment comment]
              exact ih inside
      | false => exact run_dropComments_of_step comment fun after isOpen => ih isOpen

/-- A form that does not start with a comment is the same without comments. -/
theorem run_nil_dropComments
    {token : Token}
    (noComment : token.isComment = false)
    (rest : List Token) :
    run [] (token :: Token.dropComments rest) =
      ((run [] (token :: rest)).1, Token.dropComments (run [] (token :: rest)).2) := by
  rw [← Token.dropComments_cons noComment]
  exact run_dropComments_of_step noComment fun after isOpen => run_dropComments isOpen rest

end Machine

namespace Program

/-- A program without its comments has the same other forms, and the same error. -/
theorem ofTokens_dropComments (tokens : List Token) :
    ofTokens (Token.dropComments tokens) =
      ⟨(ofTokens tokens).forms.filter (!·.isComment), (ofTokens tokens).stop⟩ := by
  induction tokens using induction_on_tokens with
  | nil =>
      rw [Token.dropComments_nil, ofTokens_nil]
      rfl
  | failed token rest error left failed =>
      cases comment : token.isComment with
      | true =>
          rw [Machine.run, Machine.step_comment comment] at failed
          cases failed
      | false =>
          have without := Machine.run_nil_dropComments comment rest
          rw [failed] at without
          rw [Token.dropComments_cons comment, ofTokens_of_run_error failed,
            ofTokens_of_run_error without]
          rfl
  | form tokens form left success ih =>
      rw [ofTokens_of_run_ok success]
      cases tokens with
      | nil => cases success
      | cons token rest =>
          have read : (Form.read (token :: rest)).outcome = (.ok form, left) := by
            rw [Machine.outcome_read_eq_run, success]
          have kind := Form.isComment_of_read read
          cases comment : token.isComment with
          | true =>
              rw [Machine.run, Machine.step_comment comment] at success
              cases success
              rw [Token.dropComments_cons_comment comment, ih,
                List.filter_cons_of_neg (by simp [kind, comment])]
          | false =>
              have without := Machine.run_nil_dropComments comment rest
              rw [success] at without
              rw [Token.dropComments_cons comment, ofTokens_of_run_ok without, ih,
                List.filter_cons_of_pos (by simp [kind, comment])]

/-- Texts that differ in layout and comments alone have the same other forms, and like errors. -/
theorem congr_of_codeTexts
    {first second : String}
    (sameCode : Token.codeTexts first = Token.codeTexts second) :
    (ofSource first).forms.filter (!·.isComment) =
        (ofSource second).forms.filter (!·.isComment) ∧
      (ofSource first).stop.map (ParseError.relocate fun _ => .start) =
        (ofSource second).stop.map (ParseError.relocate fun _ => .start) := by
  have same := relocate_start_congr sameCode
  rw [ofTokens_dropComments, ofTokens_dropComments] at same
  exact ⟨congrArg Program.forms same, congrArg Program.stop same⟩

end Program

end MiniLisp
