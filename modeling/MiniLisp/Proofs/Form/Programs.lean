import MiniLisp.Proofs.Form.RoundTrip

/-!
# Programs form by form

This module shows how the forms of a program are found among its tokens.

A form takes some tokens from the head, none of which is an open string, and what
stands behind them makes no difference (`Machine.exists_taken_of_run`).  A program
without an error therefore keeps its forms when more tokens follow
(`Program.ofTokens_append`), and inside a bracket its forms become the items of the
collection, but for the comments (`Machine.run_append_program`).
-/

namespace MiniLisp

open MiniLisp.Text (IsOpen)

/-- Comments alone. -/
def Value.isComment : Value → Bool
  | comment _ => true
  | _ => false

namespace Machine

/-! ## The tokens of one form -/

/--
A form takes at least one token, takes no open string, and is the same whatever
tokens follow.
-/
theorem exists_taken_of_run
    {stack : List OpenBracket}
    {tokens left : List Token}
    {form : Value}
    (success : run stack tokens = (.ok form, left)) :
    ∃ taken,
      tokens = taken ++ left ∧ taken ≠ [] ∧
        (∀ token ∈ taken, ∀ body, token.text = '"' :: body → ¬ IsOpen body) ∧
        ∀ more, run stack (taken ++ more) = (.ok form, more) := by
  induction tokens generalizing stack with
  | nil =>
      cases success
  | cons token rest ih =>
      have closed : ∀ body, token.text = '"' :: body → ¬ IsOpen body := by
        intro body quoted stays
        rw [run, step_of_isOpen stack quoted stays] at success
        cases success
      rw [run] at success
      cases made : step stack token with
      | proceed after =>
          rw [made] at success
          rcases ih success with ⟨taken, rfl, -, closedLater, same⟩
          refine ⟨token :: taken, rfl, List.cons_ne_nil token taken, ?_, ?_⟩
          · exact List.forall_mem_cons.2 ⟨closed, closedLater⟩
          · intro more
            rw [List.cons_append, run, made]
            exact same more
      | finish result =>
          rw [made] at success
          cases success
          refine ⟨[token], rfl, List.cons_ne_nil token [], ?_, ?_⟩
          · exact List.forall_mem_singleton.2 closed
          · intro more
            show run stack (token :: more) = _
            rw [run, made]
      | reject error =>
          rw [made] at success
          cases success
      | refuse error =>
          rw [made] at success
          cases success

/-- Inside brackets a form is supplied to the innermost one. -/
theorem run_of_run_nil
    {token : Token}
    {rest left : List Token}
    {form : Value}
    (noComment : token.isComment = false)
    (success : run [] (token :: rest) = (.ok form, left))
    (stack : List OpenBracket) :
    run stack (token :: rest) = deliver form stack left := by
  cases closes : Bracket.ofClosing? token.text with
  | some found =>
      rw [run, step_closing closes] at success
      cases success
  | none =>
      rw [run_eq_deliverOutcome closes noComment, outcome_read_eq_run, success]
      rfl

end Machine

theorem Form.isComment_of_collect
    {bracket : Bracket}
    {items : List Value}
    {form : Value}
    (collects : collect bracket items = .ok form) :
    form.isComment = false := by
  cases bracket with
  | round =>
      cases collects
      rfl
  | square =>
      cases collects
      rfl
  | curly =>
      rw [collect] at collects
      split at collects
      · cases collects
        rfl
      · cases collects

theorem Atom.isComment_of_ofText?
    {text : List Char}
    {form : Value}
    (isAtom : ofText? text = some form) :
    form.isComment = false := by
  rcases ofText?_cases isAtom with
    rfl | ⟨truth, rfl⟩ | ⟨integer, rfl⟩ | ⟨name, -, rfl⟩ | ⟨body, contents, -, -, rfl⟩ |
      ⟨-, -, -, -, rfl⟩ <;> rfl

/-- What is read is a comment exactly if its first token is one. -/
theorem Form.isComment_of_read
    {token : Token}
    {rest left : List Token}
    {form : Value}
    (success : (read (token :: rest)).outcome = (.ok form, left)) :
    form.isComment = token.isComment := by
  rw [outcome_read_cons] at success
  by_cases comment : token.isComment = true
  · rcases Machine.not_bracket_of_isComment comment with ⟨noOpening, noClosing⟩
    rw [noOpening, noClosing] at success
    simp only [comment, if_true] at success ⊢
    cases success
    rfl
  · rw [Bool.eq_false_iff.2 comment]
    split at success
    · split at success
      · cases success
      · exact isComment_of_collect (congrArg Prod.fst success)
    · split at success
      · cases success
      · rw [if_neg comment] at success
        split at success
        · next isAtom =>
            cases success
            exact Atom.isComment_of_ofText? isAtom
        · cases success

namespace Program

/-! ## The tokens of a program -/

theorem ofTokens_of_run_ok
    {tokens left : List Token}
    {form : Value}
    (success : Machine.run [] tokens = (.ok form, left)) :
    ofTokens tokens = ⟨form :: (ofTokens left).forms, (ofTokens left).stop⟩ := by
  cases tokens with
  | nil => cases success
  | cons token rest =>
      rw [ofTokens_cons, Machine.outcome_read_eq_run, success]

theorem ofTokens_of_run_error
    {token : Token}
    {rest left : List Token}
    {error : ParseError}
    (failed : Machine.run [] (token :: rest) = (.error error, left)) :
    ofTokens (token :: rest) = ⟨[], some error⟩ := by
  rw [ofTokens_cons, Machine.outcome_read_eq_run, failed]

/-- A program is empty, starts with an error, or starts with a form. -/
@[elab_as_elim]
theorem induction_on_tokens
    {motive : List Token → Prop}
    (tokens : List Token)
    (nil : motive [])
    (failed :
      ∀ token rest error left,
        Machine.run [] (token :: rest) = (.error error, left) → motive (token :: rest))
    (form :
      ∀ tokens form left,
        Machine.run [] tokens = (.ok form, left) → motive left → motive tokens) :
    motive tokens := by
  match tokens with
  | [] => exact nil
  | token :: rest =>
      match outcome : Machine.run [] (token :: rest) with
      | (.error error, left) => exact failed token rest error left outcome
      | (.ok value, left) =>
          have shorter : left.length < (token :: rest).length := by
            rcases Machine.exists_taken_of_run outcome with ⟨taken, whole, nonempty, -, -⟩
            rw [whole, List.length_append]
            exact Nat.lt_add_of_pos_left (List.length_pos_iff.2 nonempty)
          exact form _ value left outcome (induction_on_tokens left nil failed form)
termination_by tokens.length
decreasing_by exact shorter

/-- No token of a program without an error is an open string. -/
theorem not_isOpen_of_stop_eq_none
    {tokens : List Token}
    (complete : (ofTokens tokens).stop = none) :
    ∀ token ∈ tokens, ∀ body, token.text = '"' :: body → ¬ IsOpen body := by
  induction tokens using induction_on_tokens with
  | nil =>
      exact List.forall_mem_nil _
  | failed token rest error left failed =>
      rw [ofTokens_of_run_error failed] at complete
      cases complete
  | form tokens form left success ih =>
      rw [ofTokens_of_run_ok success] at complete
      rcases Machine.exists_taken_of_run success with ⟨taken, rfl, -, closed, -⟩
      exact List.forall_mem_append.2 ⟨closed, ih complete⟩

/-- A program without an error keeps its forms in front of more tokens. -/
theorem ofTokens_append
    {first : List Token}
    (complete : (ofTokens first).stop = none)
    (second : List Token) :
    ofTokens (first ++ second) =
      ⟨(ofTokens first).forms ++ (ofTokens second).forms, (ofTokens second).stop⟩ := by
  induction first using induction_on_tokens with
  | nil =>
      rw [ofTokens_nil]
      rfl
  | failed token rest error left failed =>
      rw [ofTokens_of_run_error failed] at complete
      cases complete
  | form tokens form left success ih =>
      rw [ofTokens_of_run_ok success] at complete ⊢
      rcases Machine.exists_taken_of_run success with ⟨taken, rfl, -, -, same⟩
      have longer : Machine.run [] (taken ++ left ++ second) = (.ok form, left ++ second) := by
        rw [List.append_assoc]
        exact same (left ++ second)
      rw [ofTokens_of_run_ok longer, ih complete]
      rfl

/-- Every form of a text is a comment or legible. -/
theorem isResult_of_mem_forms
    {cursor : Cursor}
    {form : Value}
    (member : form ∈ (ofTokens cursor.tokens).forms) :
    Machine.IsResult form := by
  have among : ∀ tokens : List Token, (∀ token ∈ tokens, token ∈ cursor.tokens) →
      ∀ form ∈ (ofTokens tokens).forms, Machine.IsResult form := by
    intro tokens
    induction tokens using induction_on_tokens with
    | nil =>
        intro _ form member
        rw [ofTokens_nil] at member
        cases member
    | failed token rest error left failed =>
        intro _ form member
        rw [ofTokens_of_run_error failed] at member
        cases member
    | form tokens first left success ih =>
        intro members form member
        rw [ofTokens_of_run_ok success] at member
        rcases List.mem_cons.1 member with rfl | later
        · exact Machine.isResult_of_run (fun _ isWaiting => absurd isWaiting List.not_mem_nil)
            members success
        · rcases Machine.exists_taken_of_run success with ⟨taken, rfl, -, -, -⟩
          apply ih (fun token isLeft => members token (List.mem_append_right taken isLeft)) form
            later
  exact among cursor.tokens (fun _ isToken => isToken) form member

/-- Every form of a text but the comments is legible. -/
theorem legible_of_mem_forms
    {source : String}
    {form : Value}
    (member : form ∈ (ofSource source).forms)
    (noComment : form.isComment = false) :
    form.Legible := by
  rcases isResult_of_mem_forms member with ⟨text, rfl⟩ | legible
  · cases noComment
  · exact legible

end Program

namespace Machine

/-- Inside a bracket the forms of a program are items of the collection, but for comments. -/
theorem run_append_program
    {tokens : List Token}
    (complete : (Program.ofTokens tokens).stop = none)
    (bracket : Bracket)
    (opened : Position)
    (items : List Value)
    (below : List OpenBracket)
    (more : List Token) :
    run (⟨bracket, opened, items⟩ :: below) (tokens ++ more) =
      run
        (⟨bracket, opened,
            items ++ (Program.ofTokens tokens).forms.filter (!·.isComment)⟩ :: below)
        more := by
  induction tokens using Program.induction_on_tokens generalizing items with
  | nil =>
      rw [Program.ofTokens_nil, List.filter_nil, List.append_nil]
      rfl
  | failed token rest error left failed =>
      rw [Program.ofTokens_of_run_error failed] at complete
      cases complete
  | form tokens form left success ih =>
      rw [Program.ofTokens_of_run_ok success] at complete ⊢
      cases tokens with
      | nil => cases success
      | cons token rest =>
          have read : (Form.read (token :: rest)).outcome = (.ok form, left) := by
            rw [outcome_read_eq_run, success]
          have kind := Form.isComment_of_read read
          by_cases comment : token.isComment = true
          · rw [run, step_comment comment] at success
            cases success
            rw [List.cons_append, run, step_comment comment,
              List.filter_cons_of_neg (by simp [kind, comment])]
            exact ih complete items
          · rcases exists_taken_of_run success with ⟨taken, whole, -, -, same⟩
            have longer : run [] (token :: (rest ++ more)) = (.ok form, left ++ more) := by
              rw [← List.cons_append, whole, List.append_assoc]
              exact same (left ++ more)
            rw [List.cons_append, run_of_run_nil (Bool.eq_false_iff.2 comment) longer, deliver,
              ih complete, List.filter_cons_of_pos (by simp [kind, comment]), List.append_assoc,
              List.singleton_append]

end Machine

end MiniLisp
