import MiniLisp.Proofs.Eval.Programs
import MiniLisp.Proofs.Form.Comments

/-!
# Layout and comments mean nothing

This module shows that two source texts with the same tokens but for comments are
evaluated alike and read alike, whatever stands between their tokens
(`layout_irrelevant`).  Only the positions in syntax errors tell them apart.
-/

namespace MiniLisp

/-- The outcome with the position of a syntax error forgotten. -/
def Action.placeless
    {Result : Type}
    (action : Action Result)
    (store : Store) :
    Option (Except Fault Result × Store) :=
  (action.outcome store).map fun ending =>
    (ending.1.mapError (Fault.relocate fun _ => .start), ending.2)

/-- The forms of a program but its comments, or its error with the position forgotten. -/
def Program.code (program : Program) : Except ParseError (List Value) :=
  (program.complete.map (List.filter (!·.isComment))).mapError
    (ParseError.relocate fun _ => .start)

namespace Session

/-- The value so far and the comments do not matter to the forms that follow. -/
theorem evalForms_congr_of_filter
    (session : Session)
    (depth : Nat)
    (last : Value)
    {forms others : List Value}
    (same : forms.filter (!·.isComment) = others.filter (!·.isComment)) :
    session.evalForms depth last forms = session.evalForms depth last others := by
  rw [evalForms_eq_evalSequence, evalForms_eq_evalSequence, same]

/-- Programs with the same forms but for comments, and like errors, are evaluated alike. -/
theorem placeless_evalProgram_congr
    (session : Session)
    (depth : Nat)
    {first second : Program}
    (sameForms : first.forms.filter (!·.isComment) = second.forms.filter (!·.isComment))
    (sameStop :
      first.stop.map (ParseError.relocate fun _ => .start) =
        second.stop.map (ParseError.relocate fun _ => .start))
    (store : Store) :
    (session.evalProgram depth first).placeless store =
      (session.evalProgram depth second).placeless store := by
  unfold Action.placeless
  rw [evalProgram, evalProgram, evalForms_congr_of_filter session depth .nil sameForms,
    Action.outcome_bind, Action.outcome_bind]
  cases (session.evalForms depth .nil second.forms).outcome store with
  | none => rfl
  | some ending =>
      obtain ⟨result, after⟩ := ending
      cases result with
      | error fault => rfl
      | ok value =>
          dsimp only
          generalize first.stop = stop at sameStop ⊢
          generalize second.stop = stop' at sameStop ⊢
          cases stop with
          | none =>
              cases stop' with
              | none => rfl
              | some error' => cases sameStop
          | some error =>
              cases stop' with
              | none => cases sameStop
              | some error' =>
                  have sameError := Option.some.inj sameStop
                  have sameFault := congrArg Fault.parse sameError
                  exact congrArg (fun fault => some (Except.error fault, after)) sameFault

end Session

/-- Programs with the same forms but for comments, and like errors, are the same code. -/
theorem Program.code_congr
    {first second : Program}
    (sameForms : first.forms.filter (!·.isComment) = second.forms.filter (!·.isComment))
    (sameStop :
      first.stop.map (ParseError.relocate fun _ => .start) =
        second.stop.map (ParseError.relocate fun _ => .start)) :
    first.code = second.code := by
  rw [code, code, complete, complete]
  generalize first.stop = stop at sameStop ⊢
  generalize second.stop = stop' at sameStop ⊢
  cases stop with
  | none =>
      cases stop' with
      | none => exact congrArg Except.ok sameForms
      | some error' => cases sameStop
  | some error =>
      cases stop' with
      | none => cases sameStop
      | some error' => exact congrArg Except.error (Option.some.inj sameStop)

/--
Let two texts have the same tokens but for comments.  To every depth and from every
store, evaluating the one gives the same value or fault as evaluating the other, and
leaves the same store with the same text written; and both have the same forms but for
comments at the top level, or an error each.  The faults and errors are the same but for
positions in the texts.
-/
theorem layout_irrelevant
    {first second : String}
    (sameCode : Token.codeTexts first = Token.codeTexts second) :
    (∀ (session : Session) depth store,
      (session.evalAll depth first).placeless store =
        (session.evalAll depth second).placeless store) ∧
      (Program.ofSource first).code = (Program.ofSource second).code := by
  obtain ⟨sameForms, sameStop⟩ := Program.congr_of_codeTexts sameCode
  constructor
  · intro session depth store
    exact session.placeless_evalProgram_congr depth sameForms sameStop store
  · exact Program.code_congr sameForms sameStop

private theorem ofSource_openBracket :
    Program.ofSource "(prn :a) [1" =
      ⟨[.list [.symbol "prn", .keyword "a"]], some (.unclosed .square ⟨1, 10⟩)⟩ := by
  have tokens :
      Token.ofSource "(prn :a) [1" =
        [⟨['('], ⟨1, 1⟩⟩, ⟨['p', 'r', 'n'], ⟨1, 2⟩⟩, ⟨[':', 'a'], ⟨1, 6⟩⟩, ⟨[')'], ⟨1, 8⟩⟩,
          ⟨['['], ⟨1, 10⟩⟩, ⟨['1'], ⟨1, 11⟩⟩] := by decide +kernel
  rw [Program.ofSource, tokens, Program.ofTokens_of_run_ok rfl, Program.ofTokens_of_run_error rfl]
  rfl

/-- A comment on a line of its own, one inside a list, and one in an open bracket. -/
theorem layout_irrelevant_of_comments :
    Token.codeTexts "; one\n(prn ; two\n:a)[1 ; three" = Token.codeTexts "(prn :a) [1" ∧
      (((Session.next .empty).evalAll 3 "; one\n(prn ; two\n:a)[1 ; three").placeless
            (Session.enter .empty)).map
          (fun ending => (ending.1.map Value.readable, ending.2.output)) =
        some (.error (.parse (.unclosed .square .start)), ":a\n") ∧
      (Program.ofSource "; one\n(prn ; two\n:a)[1 ; three").code =
        .error (.unclosed .square .start) := by
  have sameCode :
      Token.codeTexts "; one\n(prn ; two\n:a)[1 ; three" = Token.codeTexts "(prn :a) [1" := by
    decide +kernel
  obtain ⟨evaluated, read⟩ := layout_irrelevant sameCode
  refine ⟨sameCode, ?_⟩
  rw [evaluated, read, Session.evalAll, ofSource_openBracket]
  exact ⟨by decide +kernel, rfl⟩

end MiniLisp
