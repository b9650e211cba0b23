import MiniLisp.Proofs.Eval.Reachable
import MiniLisp.Proofs.Form.Joined

/-!
# Evaluating programs

This module shows how a whole program is evaluated, form by form.

Comments are passed over, and all other forms are evaluated like the parts of a sequence
(`Session.evalForms_eq_evalSequence`).  A program without an error is therefore evaluated
like the sequence that its text becomes inside a list (`Session.evalFirst_sequence`).

Programs can be given in pieces: the forms behind a first program are evaluated in the
store that it leaves, if it ends with a value, and an error in the text of the second
program is reported as many lines further down (`Session.evalAll_append_newline`).
-/

namespace MiniLisp

theorem Program.complete_eq_ok_iff
    {program : Program}
    {forms : List Value} :
    program.complete = .ok forms ↔ program.stop = none ∧ program.forms = forms := by
  rw [complete]
  cases program.stop with
  | none => simp
  | some error => simp

/-- The fault, with the position of a syntax error moved. -/
def Fault.relocate (move : Position → Position) : Fault → Fault
  | parse error => parse (error.relocate move)
  | fault => fault

theorem Fault.relocate_of_ne_parse
    {fault : Fault}
    (noParse : ∀ error, fault ≠ .parse error)
    (move : Position → Position) :
    fault.relocate move = fault := by
  cases fault with
  | parse error => exact absurd rfl (noParse error)
  | _ => rfl

namespace Session

variable
  (session : Session)
  (depth : Nat)

/-! ## Forms in order -/

theorem evalForms_cons_comment
    (last : Value)
    {form : Value}
    (comment : form.isComment = true)
    (forms : List Value) :
    session.evalForms depth last (form :: forms) = session.evalForms depth last forms := by
  cases form with
  | comment text => rfl
  | _ => cases comment

theorem evalForms_cons
    (last : Value)
    {form : Value}
    (noComment : form.isComment = false)
    (forms : List Value) :
    session.evalForms depth last (form :: forms) = (do
      let value ← eval depth session.root form
      session.evalForms depth value forms) := by
  cases form with
  | comment text => cases noComment
  | _ => rfl

/-- Forms are evaluated like a sequence without the comments. -/
theorem evalForms_eq_evalSequence
    (last : Value)
    (forms : List Value) :
    session.evalForms depth last forms =
      match forms.filter (!·.isComment) with
      | [] => pure last
      | form :: others =>
        SpecialForm.evalSequence (eval depth) session.root (form :: others) := by
  induction forms generalizing last with
  | nil => rfl
  | cons form forms ih =>
      cases kind : form.isComment with
      | true =>
          rw [evalForms_cons_comment _ _ _ kind, ih, List.filter_cons_of_neg (by simp [kind])]
      | false =>
          rw [evalForms_cons _ _ _ kind, List.filter_cons_of_pos (by simp [kind])]
          simp only [ih]
          cases forms.filter (!·.isComment) with
          | nil => exact bind_pure _
          | cons next others => rfl

theorem evalForms_of_comments
    (last : Value)
    {forms : List Value}
    (comments : ∀ form ∈ forms, form.isComment = true) :
    session.evalForms depth last forms = pure last := by
  have none : forms.filter (!·.isComment) = [] := by
    apply List.filter_eq_nil_iff.2
    intro form member
    simp [comments form member]
  rw [evalForms_eq_evalSequence, none]

/-- The value so far does not matter if there is a form other than a comment. -/
theorem evalForms_congr
    (last other : Value)
    {forms : List Value}
    {form : Value}
    (member : form ∈ forms)
    (noComment : form.isComment = false) :
    session.evalForms depth last forms = session.evalForms depth other forms := by
  rw [evalForms_eq_evalSequence, evalForms_eq_evalSequence]
  cases items : forms.filter (!·.isComment) with
  | nil =>
      have isComment := List.filter_eq_nil_iff.1 items form member
      simp [noComment] at isComment
  | cons next others => rfl

/-- Forms behind others are evaluated with the value of the others as the value so far. -/
theorem evalForms_append
    (last : Value)
    (first second : List Value) :
    session.evalForms depth last (first ++ second) = (do
      let value ← session.evalForms depth last first
      session.evalForms depth value second) := by
  induction first generalizing last with
  | nil => rfl
  | cons form forms ih =>
      cases kind : form.isComment with
      | true =>
          rw [List.cons_append, evalForms_cons_comment _ _ _ kind,
            evalForms_cons_comment _ _ _ kind, ih]
      | false =>
          rw [List.cons_append, evalForms_cons _ _ _ kind, evalForms_cons _ _ _ kind, bind_assoc]
          simp only [ih]

/-- A program without an error is evaluated by its forms. -/
theorem evalAll_of_complete
    {source : String}
    (complete : (Program.ofSource source).stop = none) :
    session.evalAll depth source =
      session.evalForms depth .nil (Program.ofSource source).forms := by
  rw [evalAll, evalProgram, complete]
  exact bind_pure _

end Session

/-! ## A program as one form -/

/--
A program without an error is evaluated like the list of its forms behind the symbol of
sequences, with the same value or fault and the same effects.  The value is nil if all
forms are comments.
-/
theorem Session.evalFirst_sequence
    {source : String}
    {forms : List Value}
    (complete : (Program.ofSource source).complete = .ok forms)
    (session : Session)
    (depth : Nat)
    (store : Store) :
    (session.evalFirst (depth + 1) ("(do " ++ source ++ "\n)")).outcome store =
        (some <$> session.evalAll depth source).outcome store ∧
      ((∀ form ∈ forms, form.isComment = true) →
        (session.evalAll depth source).outcome store = some (.ok .nil, store)) := by
  rcases Program.complete_eq_ok_iff.1 complete with ⟨noError, rfl⟩
  rw [session.evalAll_of_complete depth noError]
  constructor
  · rw [evalFirst, Form.ofSource_sequence noError, evalForms_eq_evalSequence]
    show (some <$> SpecialForm.evalSequence (eval depth) session.root _).outcome store = _
    cases (Program.ofSource source).forms.filter (!·.isComment) with
    | nil => rfl
    | cons form others => rfl
  · intro comments
    rw [evalForms_of_comments session depth .nil comments]
    rfl

private theorem ofSource_definition :
    Program.ofSource "(def! x 2) ; two" =
      ⟨[.list [.symbol "def!", .symbol "x", .number 2], .comment "; two"], none⟩ := by
  have tokens :
      Token.ofSource "(def! x 2) ; two" =
        [⟨['('], ⟨1, 1⟩⟩, ⟨['d', 'e', 'f', '!'], ⟨1, 2⟩⟩, ⟨['x'], ⟨1, 7⟩⟩, ⟨['2'], ⟨1, 9⟩⟩,
          ⟨[')'], ⟨1, 10⟩⟩, ⟨[';', ' ', 't', 'w', 'o'], ⟨1, 12⟩⟩] := by decide +kernel
  rw [Program.ofSource, tokens, Program.ofTokens_of_run_ok rfl, Program.ofTokens_of_run_ok rfl,
    Program.ofTokens_nil]
  rfl

private theorem complete_definition :
    (Program.ofSource "(def! x 2) ; two").complete =
      .ok [.list [.symbol "def!", .symbol "x", .number 2], .comment "; two"] := by
  rw [ofSource_definition]
  rfl

/-- The comment at the end does not reach the closing bracket. -/
theorem Session.evalFirst_sequence_of_comment :
    ((Session.next .empty).evalFirst 3 ("(do " ++ "(def! x 2) ; two" ++ "\n)")).outcome
          (enter .empty) =
        some (.ok (some (.number 2)), (enter .empty).define 0 "x" (.number 2)) ∧
      ((Session.next .empty).evalAll 2 "; one").outcome (enter .empty) =
        some (.ok .nil, enter .empty) := by
  have comment : (Program.ofSource "; one").complete = .ok [.comment "; one"] := by
    have tokens : Token.ofSource "; one" = [⟨[';', ' ', 'o', 'n', 'e'], ⟨1, 1⟩⟩] := by
      decide +kernel
    rw [Program.ofSource, tokens, Program.ofTokens_of_run_ok rfl, Program.ofTokens_nil]
    rfl
  constructor
  · rw [(evalFirst_sequence complete_definition _ 2 _).1, evalAll, ofSource_definition]
    rfl
  · apply (evalFirst_sequence comment _ 2 _).2
    exact List.forall_mem_singleton.2 rfl

/-! ## Programs in pieces -/

namespace Invariant

/-- The forms of a program maintain an invariant that all of them but the comments have. -/
theorem maintains_evalForms
    {invariant : Invariant}
    {store : Store}
    {session : Session}
    (entered : session.root < store.nextFrame)
    (depth : Nat)
    {last : Value}
    (goodLast : invariant.value store last)
    {forms : List Value}
    (good : ∀ form ∈ forms, form.isComment = false → invariant.form store form) :
    invariant.Maintains store invariant.value (session.evalForms depth last forms) := by
  induction forms generalizing store last with
  | nil => exact .pure goodLast
  | cons form forms ih =>
      have later := List.forall_mem_cons.1 good
      cases kind : form.isComment with
      | true =>
          rw [session.evalForms_cons_comment depth last kind]
          exact ih entered goodLast later.2
      | false =>
          rw [session.evalForms_cons depth last kind]
          apply Maintains.bind
          · exact maintains_eval invariant depth store session.root form entered (later.1 kind)
          · intro between value precedes goodValue
            apply ih (Nat.lt_of_lt_of_le entered precedes.frames) goodValue
            intro other member noComment
            exact invariant.form_mono precedes (later.2 other member noComment)

/-- The forms of a text maintain an invariant that legible forms have. -/
theorem maintains_evalForms_ofSource
    {invariant : Invariant}
    {store : Store}
    (good : ∀ form : Value, form.Legible → invariant.form store form)
    {session : Session}
    (entered : session.root < store.nextFrame)
    (depth : Nat)
    (source : String) :
    invariant.Maintains store invariant.value
      (session.evalForms depth .nil (Program.ofSource source).forms) := by
  apply maintains_evalForms entered depth (invariant.value_nil store)
  intro form member noComment
  exact good form (Program.legible_of_mem_forms member noComment)

theorem form_within_of_legible
    (store : Store)
    (form : Value)
    (legible : form.Legible) :
    within.form store form :=
  Value.within_of_no_function store (Value.noFunction_of_isPrintable legible.printable)

end Invariant

/--
What a program gives behind others, of which the last one has a value, if it starts some
lines further down: the value so far, if all forms are comments.
-/
def Program.continuation
    (program : Program)
    (lines : Nat)
    (value : Value) :
    Except Fault Value → Except Fault Value
  | .ok later => .ok (if program.forms.all Value.isComment then value else later)
  | .error fault => .error (fault.relocate (Position.moveDown lines))

theorem Invariant.Allows.ne_parse
    {invariant : Invariant}
    {fault : Fault}
    (allows : invariant.Allows fault)
    (error : ParseError) :
    fault ≠ .parse error := by
  cases allows with
  | ordinary ordinary => exact ordinary.ne_parse error
  | _ => nofun

namespace Session

variable
  {session : Session}
  {store : Store}

/-- Behind other forms, a program is evaluated as if it stood alone, but for its continuation. -/
theorem outcome_evalForms_continuation
    (holds : Invariant.within.Holds store)
    (entered : session.root < store.nextFrame)
    (depth : Nat)
    (source : String)
    (lines : Nat)
    (value : Value) :
    Action.outcome
        (do
          let later ← session.evalForms depth value (Program.ofSource source).forms
          match (Program.ofSource source).stop.map
              (ParseError.relocate (Position.moveDown lines)) with
          | some error => Action.fail (.parse error)
          | none => pure later)
        store =
      ((session.evalAll depth source).outcome store).map fun ending =>
        ((Program.ofSource source).continuation lines value ending.1, ending.2) := by
  rw [evalAll, evalProgram]
  cases comments : (Program.ofSource source).forms.all Value.isComment with
  | true =>
      have allComments := List.all_eq_true.1 comments
      rw [session.evalForms_of_comments depth value allComments,
        session.evalForms_of_comments depth .nil allComments, pure_bind, pure_bind]
      cases (Program.ofSource source).stop with
      | none => simp [Program.continuation, comments]
      | some error => rfl
  | false =>
      rcases List.all_eq_false.1 comments with ⟨form, member, noComment⟩
      rw [session.evalForms_congr depth value .nil member (Bool.eq_false_iff.2 noComment),
        Action.outcome_bind, Action.outcome_bind]
      cases evaluated :
          (session.evalForms depth .nil (Program.ofSource source).forms).outcome store with
      | none => rfl
      | some ending =>
          rcases ending with ⟨result, after⟩
          cases result with
          | error fault =>
              have maintains := Invariant.maintains_evalForms_ofSource
                (Invariant.form_within_of_legible store) entered depth source
              have leaves := (maintains holds _ _ evaluated).2.1
              show some (Except.error fault, after) =
                some (Except.error (fault.relocate _), after)
              rw [Fault.relocate_of_ne_parse (leaves.allows fault rfl).ne_parse]
          | ok later =>
              cases (Program.ofSource source).stop with
              | none => simp [Program.continuation, comments]
              | some error => rfl

/--
A program behind another one that is separated by a line feed is evaluated in the store
that the first one leaves, if the first one ends with a value.  The outcome is that of
the second program alone, except that the value of the first one stays if all forms of
the second one are comments, and that an error in the text of the second one is reported
further down, by one line more than there are line feeds in the first one.
-/
theorem evalAll_append_newline
    {first : String}
    {forms : List Value}
    (complete : (Program.ofSource first).complete = .ok forms)
    (reachable : store.Reachable)
    (entered : session.root < store.nextFrame)
    (depth : Nat)
    (second : String) :
    (session.evalAll depth (first ++ "\n" ++ second)).outcome store =
      match (session.evalAll depth first).outcome store with
      | some (.ok value, between) =>
        ((session.evalAll depth second).outcome between).map fun ending =>
          ((Program.ofSource second).continuation (first.toList.count '\n' + 1) value ending.1,
            ending.2)
      | ended => ended := by
  rcases Program.complete_eq_ok_iff.1 complete with ⟨noError, -⟩
  have whole := Program.ofSource_append_newline noError second
  have maintains :=
    Invariant.maintains_evalForms_ofSource (Invariant.form_within_of_legible store) entered depth
      first
  rw [session.evalAll_of_complete depth noError, evalAll, whole, evalProgram,
    evalForms_append, bind_assoc, Action.outcome_bind]
  cases evaluated : (session.evalForms depth .nil (Program.ofSource first).forms).outcome store with
  | none => rfl
  | some ending =>
      rcases ending with ⟨result, between⟩
      rcases maintains reachable.holds _ _ evaluated with ⟨precedes, leaves, -⟩
      cases result with
      | error fault => rfl
      | ok value =>
          exact outcome_evalForms_continuation leaves.holds
            (Nat.lt_of_lt_of_le entered precedes.frames) depth second _ value

/-- The definitions in front of a wrong bracket stay, and the bracket is found on the third line. -/
theorem evalAll_append_newline_of_wrong_bracket :
    ((Session.next .empty).evalAll 2
          ("(def! x 2) ; two" ++ "\n" ++ "; three\n(def! y 3) ]")).outcome (enter .empty) =
      some
        (.error (.parse (.unopened .square ⟨3, 12⟩)),
          ((enter .empty).define 0 "x" (.number 2)).define 0 "y" (.number 3)) := by
  have entered : (Session.next .empty).root < (enter .empty).nextFrame := by decide +kernel
  have tokens :
      Token.ofSource "; three\n(def! y 3) ]" =
        [⟨[';', ' ', 't', 'h', 'r', 'e', 'e'], ⟨1, 1⟩⟩, ⟨['('], ⟨2, 1⟩⟩,
          ⟨['d', 'e', 'f', '!'], ⟨2, 2⟩⟩, ⟨['y'], ⟨2, 7⟩⟩, ⟨['3'], ⟨2, 9⟩⟩, ⟨[')'], ⟨2, 10⟩⟩,
          ⟨[']'], ⟨2, 12⟩⟩] := by decide +kernel
  have second :
      Program.ofSource "; three\n(def! y 3) ]" =
        ⟨[.comment "; three", .list [.symbol "def!", .symbol "y", .number 3]],
          some (.unopened .square ⟨2, 12⟩)⟩ := by
    rw [Program.ofSource, tokens, Program.ofTokens_of_run_ok rfl,
      Program.ofTokens_of_run_ok rfl, Program.ofTokens_of_run_error rfl]
    rfl
  rw [evalAll_append_newline complete_definition Store.Reachable.empty.enter entered, evalAll,
    evalAll, ofSource_definition, second]
  rfl

end Session

end MiniLisp
