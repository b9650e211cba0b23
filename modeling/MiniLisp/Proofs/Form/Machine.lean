import MiniLisp.Form.Program
import MiniLisp.Proofs.Form.Atom
import MiniLisp.Proofs.Token.Extension

/-!
# Reading with a stack of open brackets

This module supplies a second account of how forms are read: a machine that
goes over the tokens once and keeps the brackets that are open, innermost first,
each with the items collected so far.

An opening bracket is pushed, the matching closing bracket pops its items and
builds their collection, and every other form is supplied to the innermost open
bracket, or ends the reading if there is none.  The main theorem says that the
recursive reading and the machine have the same outcome on all tokens
(`outcome_read_eq_run`).  Since the machine recurses on the tokens alone,
statements about prefixes and continuations of a text are proved about it.

A step that is an error lies at its token, and takes it or leaves it (`liesAt_of_step`).
-/

namespace MiniLisp

/-- A bracket that waits for its closing bracket. -/
structure OpenBracket where
  bracket : Bracket
  opened : Position
  /-- The items collected since the bracket was opened, in order. -/
  items : List Value

namespace Machine

/-- What one token does to the machine. -/
inductive Step where
  /-- The reading goes on with these open brackets. -/
  | proceed (stack : List OpenBracket)
  /-- The token completes the form. -/
  | finish (form : Value)
  /-- The token is taken, and is an error. -/
  | reject (error : ParseError)
  /-- The token is an error and is left. -/
  | refuse (error : ParseError)

/-- A form becomes the next item of the innermost open bracket, or the result. -/
def supply (form : Value) : List OpenBracket → Step
  | [] => .finish form
  | top :: below => .proceed ({ top with items := top.items ++ [form] } :: below)

/-- A closing bracket builds the collection of the innermost open bracket. -/
def close (found : Bracket) (position : Position) : List OpenBracket → Step
  | [] => .refuse (.unopened found position)
  | top :: below =>
    if found = top.bracket then
      match Form.collect top.bracket top.items with
      | .ok form => supply form below
      | .error error => .reject error
    else
      .refuse (.mismatched top.bracket found position)

/-- A comment is the result where no bracket is open, and nothing elsewhere. -/
def passComment (text : List Char) : List OpenBracket → Step
  | [] => .finish (.comment (String.ofList text))
  | top :: below => .proceed (top :: below)

/-- The step that a token makes. -/
def step (stack : List OpenBracket) (token : Token) : Step :=
  match Bracket.ofOpening? token.text with
  | some bracket => .proceed (⟨bracket, token.position, []⟩ :: stack)
  | none =>
    match Bracket.ofClosing? token.text with
    | some found => close found token.position stack
    | none =>
      if token.isComment then
        passComment token.text stack
      else
        match Atom.ofText? token.text with
        | some form => supply form stack
        | none => .reject (.unterminated token.text token.position)

/-- The error of a text that ends while these brackets are open. -/
def exhausted : List OpenBracket → ParseError
  | [] => .endOfInput
  | top :: _ => .unclosed top.bracket top.opened

/-- The form or the error that the machine comes to, with the tokens that are left. -/
def run (stack : List OpenBracket) :
    List Token → Except ParseError Value × List Token
  | [] => (.error (exhausted stack), [])
  | token :: rest =>
    match step stack token with
    | .proceed stack => run stack rest
    | .finish form => (.ok form, rest)
    | .reject error => (.error error, rest)
    | .refuse error => (.error error, token :: rest)

/-- The continuation of a run after a form has been completed. -/
def deliver (form : Value) :
    List OpenBracket → List Token → Except ParseError Value × List Token
  | [], rest => (.ok form, rest)
  | top :: below, rest =>
    run ({ top with items := top.items ++ [form] } :: below) rest

/-! ## Steps on the kinds of tokens -/

theorem step_opening
    {stack : List OpenBracket}
    {token : Token}
    {bracket : Bracket}
    (opens : Bracket.ofOpening? token.text = some bracket) :
    step stack token = .proceed (⟨bracket, token.position, []⟩ :: stack) := by
  rw [step, opens]

theorem not_opening_of_closing
    {text : List Char}
    {found : Bracket}
    (closes : Bracket.ofClosing? text = some found) :
    Bracket.ofOpening? text = none := by
  rw [Bracket.ofClosing?_eq_some_iff.1 closes]
  cases found <;> rfl

theorem step_closing
    {stack : List OpenBracket}
    {token : Token}
    {found : Bracket}
    (closes : Bracket.ofClosing? token.text = some found) :
    step stack token = close found token.position stack := by
  rw [step, not_opening_of_closing closes, closes]

theorem not_bracket_of_isComment
    {token : Token}
    (comment : token.isComment = true) :
    Bracket.ofOpening? token.text = none ∧ Bracket.ofClosing? token.text = none := by
  constructor
  · cases opens : Bracket.ofOpening? token.text with
    | none => rfl
    | some bracket =>
        rw [Token.isComment, Bracket.ofOpening?_eq_some_iff.1 opens] at comment
        cases bracket <;> cases comment
  · cases closes : Bracket.ofClosing? token.text with
    | none => rfl
    | some bracket =>
        rw [Token.isComment, Bracket.ofClosing?_eq_some_iff.1 closes] at comment
        cases bracket <;> cases comment

theorem step_comment
    {stack : List OpenBracket}
    {token : Token}
    (comment : token.isComment = true) :
    step stack token = passComment token.text stack := by
  obtain ⟨noOpening, noClosing⟩ := not_bracket_of_isComment comment
  rw [step, noOpening, noClosing, comment]
  rfl

/-- A text that is neither a bracket nor a comment. -/
structure IsPlain (text : List Char) : Prop where
  noOpening : Bracket.ofOpening? text = none
  noClosing : Bracket.ofClosing? text = none
  noComment : text.head? ≠ some ';'

theorem IsPlain.isComment
    {token : Token}
    (plain : IsPlain token.text) :
    token.isComment = false := by
  rw [Token.isComment, beq_eq_false_iff_ne]
  exact plain.noComment

theorem step_plain
    (stack : List OpenBracket)
    {token : Token}
    (plain : IsPlain token.text) :
    step stack token =
      match Atom.ofText? token.text with
      | some form => supply form stack
      | none => .reject (.unterminated token.text token.position) := by
  rw [step, plain.noOpening, plain.noClosing, plain.isComment]
  rfl

theorem step_quote
    (stack : List OpenBracket)
    {body contents : List Char}
    (closed : Atom.contents? body = some contents)
    (position : Position) :
    step stack ⟨'"' :: body, position⟩ =
      supply (.string (String.ofList contents)) stack := by
  have plain : IsPlain ('"' :: body) := ⟨rfl, rfl, by simp⟩
  rw [step_plain stack plain, Atom.ofText?_quote, closed]
  rfl

theorem step_of_isOpen
    (stack : List OpenBracket)
    {token : Token}
    {body : List Char}
    (quoted : token.text = '"' :: body)
    (stays : Text.IsOpen body) :
    step stack token = .reject (.unterminated token.text token.position) := by
  have plain : IsPlain token.text := by
    rw [quoted]
    exact ⟨rfl, rfl, by simp⟩
  rw [step_plain stack plain, quoted, Atom.ofText?_quote, Text.contents?_of_isOpen stays]
  rfl

/-- A token opens or closes a bracket, is a comment or an atom, or is an open string. -/
theorem step_cases (stack : List OpenBracket) (token : Token) :
    (∃ bracket,
      token.text = [bracket.opening] ∧
        step stack token = .proceed (⟨bracket, token.position, []⟩ :: stack)) ∨
      (∃ found,
        token.text = [found.closing] ∧
          step stack token = close found token.position stack) ∨
      (token.isComment = true ∧ step stack token = passComment token.text stack) ∨
      (∃ form,
        IsPlain token.text ∧ Atom.ofText? token.text = some form ∧
          step stack token = supply form stack) ∨
      (Atom.ofText? token.text = none ∧
        step stack token = .reject (.unterminated token.text token.position)) := by
  cases opens : Bracket.ofOpening? token.text with
  | some bracket =>
      exact Or.inl ⟨bracket, Bracket.ofOpening?_eq_some_iff.1 opens, step_opening opens⟩
  | none =>
      refine Or.inr ?_
      cases closes : Bracket.ofClosing? token.text with
      | some found =>
          exact Or.inl ⟨found, Bracket.ofClosing?_eq_some_iff.1 closes, step_closing closes⟩
      | none =>
          refine Or.inr ?_
          by_cases comment : token.isComment = true
          · exact Or.inl ⟨comment, step_comment comment⟩
          · refine Or.inr ?_
            have plain : IsPlain token.text :=
              ⟨opens, closes, by simpa [Token.isComment] using comment⟩
            rw [step_plain stack plain]
            cases Atom.ofText? token.text with
            | some form => exact Or.inl ⟨form, plain, rfl, rfl⟩
            | none => exact Or.inr ⟨rfl, rfl⟩

/-! ## Steps that are errors -/

end Machine

/--
The token at which an error lies, and whether it is taken: an open string and the closing
bracket of an odd map are, a bracket that closes in the wrong place is not.
-/
inductive ParseError.LiesAt (token : Token) : ParseError → (taken : Bool) → Prop where
  | mismatched
      (expected : Bracket)
      {found : Bracket}
      (closes : token.text = [found.closing]) :
      LiesAt token (.mismatched expected found token.position) false
  | unopened
      {found : Bracket}
      (closes : token.text = [found.closing]) :
      LiesAt token (.unopened found token.position) false
  | unterminated
      (noAtom : Atom.ofText? token.text = none) :
      LiesAt token (.unterminated token.text token.position) true
  | oddMap
      (count : Nat)
      (closes : token.text = [Bracket.curly.closing]) :
      LiesAt token (.oddMap count) true

/-- Only a map can fail to be made of items, for their number. -/
theorem Form.eq_oddMap_of_collect
    {bracket : Bracket}
    {items : List Value}
    {error : ParseError}
    (failed : collect bracket items = .error error) :
    bracket = .curly ∧ error = .oddMap items.length := by
  cases bracket with
  | round => cases failed
  | square => cases failed
  | curly =>
      rw [collect] at failed
      split at failed
      · cases failed
      · cases failed
        exact ⟨rfl, rfl⟩

namespace Machine

theorem liesAt_of_close
    {token : Token}
    {found : Bracket}
    (closes : token.text = [found.closing])
    {stack : List OpenBracket}
    {error : ParseError}
    (wrong :
      close found token.position stack = .reject error ∨
        close found token.position stack = .refuse error) :
    (close found token.position stack = .reject error ∧ error.LiesAt token true) ∨
      (close found token.position stack = .refuse error ∧ error.LiesAt token false) := by
  cases stack with
  | nil =>
      rcases wrong with wrong | wrong <;> cases wrong
      exact Or.inr ⟨rfl, .unopened closes⟩
  | cons top below =>
      rw [close] at wrong ⊢
      by_cases same : found = top.bracket
      · rw [if_pos same] at wrong ⊢
        cases collected : Form.collect top.bracket top.items with
        | ok form =>
            rw [collected] at wrong
            cases below <;> simp [supply] at wrong
        | error failure =>
            rw [collected] at wrong
            rcases wrong with wrong | wrong <;> cases wrong
            obtain ⟨isCurly, rfl⟩ := Form.eq_oddMap_of_collect collected
            rw [same, isCurly] at closes
            exact Or.inl ⟨rfl, .oddMap _ closes⟩
      · rw [if_neg same] at wrong ⊢
        rcases wrong with wrong | wrong <;> cases wrong
        exact Or.inr ⟨rfl, .mismatched top.bracket closes⟩

/-- An error of a step lies at its token, which is taken if the step rejects it. -/
theorem liesAt_of_step
    {stack : List OpenBracket}
    {token : Token}
    {error : ParseError}
    (wrong : step stack token = .reject error ∨ step stack token = .refuse error) :
    (step stack token = .reject error ∧ error.LiesAt token true) ∨
      (step stack token = .refuse error ∧ error.LiesAt token false) := by
  rcases step_cases stack token with
    ⟨bracket, -, made⟩ | ⟨found, closes, made⟩ | ⟨-, made⟩ | ⟨form, -, -, made⟩ | ⟨noAtom, made⟩
  · rw [made] at wrong
    simp at wrong
  · rw [made] at wrong ⊢
    exact liesAt_of_close closes wrong
  · rw [made] at wrong
    cases stack <;> simp [passComment] at wrong
  · rw [made] at wrong
    cases stack <;> simp [supply] at wrong
  · rw [made] at wrong ⊢
    rcases wrong with wrong | wrong <;> cases wrong
    exact Or.inl ⟨rfl, .unterminated noAtom⟩

/-! ## Runs -/

theorem run_of_supply
    {stack : List OpenBracket}
    {token : Token}
    {form : Value}
    (rest : List Token)
    {below : List OpenBracket}
    (supplied : step stack token = supply form below) :
    run stack (token :: rest) = deliver form below rest := by
  rw [run, supplied]
  cases below <;> rfl

/-- The closing bracket delivers the collection of the items. -/
theorem run_closing
    {bracket : Bracket}
    {items : List Value}
    {form : Value}
    (collects : Form.collect bracket items = .ok form)
    (opened : Position)
    (below : List OpenBracket)
    (position : Position)
    (rest : List Token) :
    run (⟨bracket, opened, items⟩ :: below) (⟨[bracket.closing], position⟩ :: rest) =
      deliver form below rest := by
  apply run_of_supply
  rw [step_closing (Bracket.ofClosing?_eq_some_iff.2 rfl)]
  simp only [close, if_true, collects]

/-- How the outcome of the items of a collection continues the run around it. -/
def closeWith
    (bracket : Bracket)
    (items : List Value)
    (below : List OpenBracket) :
    Except ParseError (List Value) × List Token → Except ParseError Value × List Token
  | (.error error, left) => (.error error, left)
  | (.ok more, left) =>
    match Form.collect bracket (items ++ more) with
    | .ok form => deliver form below left
    | .error error => (.error error, left)

/-- How the outcome of a form continues the run around it. -/
def deliverOutcome
    (stack : List OpenBracket) :
    Except ParseError Value × List Token → Except ParseError Value × List Token
  | (.error error, left) => (.error error, left)
  | (.ok form, left) => deliver form stack left

/--
A form that starts with a bracket or is an atom is read like the machine reads
it, provided that the machine reads the items of collections behind its first
token like the recursion does.
-/
private theorem run_form
    {stack : List OpenBracket}
    {token : Token}
    {rest : List Token}
    (noClosing : Bracket.ofClosing? token.text = none)
    (noComment : token.isComment = false)
    (readsItems :
      ∀ bracket opened items below,
        run (⟨bracket, opened, items⟩ :: below) rest =
          closeWith bracket items below (Form.readItems bracket opened rest).outcome) :
    run stack (token :: rest) =
      deliverOutcome stack (Form.read (token :: rest)).outcome := by
  rw [Form.outcome_read_cons]
  cases opens : Bracket.ofOpening? token.text with
  | some bracket =>
      simp only [run, step_opening opens]
      rw [readsItems bracket token.position [] stack]
      cases outcome : (Form.readItems bracket token.position rest).outcome with
      | mk result left =>
          cases result with
          | error error => rfl
          | ok items =>
              simp only [closeWith, List.nil_append]
              cases Form.collect bracket items <;> rfl
  | none =>
      have plain : IsPlain token.text :=
        ⟨opens, noClosing, by simpa [Token.isComment] using noComment⟩
      have atom := step_plain stack plain
      simp only [noClosing, noComment]
      cases form : Atom.ofText? token.text with
      | some value =>
          rw [form] at atom
          exact run_of_supply rest atom
      | none =>
          rw [form] at atom
          simp only [run, atom]
          rfl

/-- Inside a bracket the machine collects the items that the recursion reads. -/
theorem run_eq_closeWith
    (tokens : List Token)
    (bracket : Bracket)
    (opened : Position)
    (items : List Value)
    (below : List OpenBracket) :
    run (⟨bracket, opened, items⟩ :: below) tokens =
      closeWith bracket items below (Form.readItems bracket opened tokens).outcome := by
  cases tokens with
  | nil =>
      rw [Form.outcome_readItems_nil]
      rfl
  | cons token rest =>
      rw [Form.outcome_readItems_cons]
      by_cases comment : token.isComment = true
      · rw [if_pos comment, run, step_comment comment]
        exact run_eq_closeWith rest bracket opened items below
      · rw [if_neg comment]
        cases closes : Bracket.ofClosing? token.text with
        | some found =>
            simp only [run, step_closing closes, close]
            by_cases same : found = bracket
            · rw [if_pos same, if_pos same]
              simp only [closeWith, List.append_nil]
              cases Form.collect bracket items with
              | error error => rfl
              | ok form => cases below <;> rfl
            · rw [if_neg same, if_neg same]
              rfl
        | none =>
            rw [run_form closes (Bool.eq_false_iff.2 comment)
              fun bracket opened items below =>
                run_eq_closeWith rest bracket opened items below]
            cases reading : Form.read (token :: rest) with
            | failed error left => rfl
            | done item left shorter =>
                have rest :=
                  run_eq_closeWith left bracket opened (items ++ [item]) below
                simp only [Reading.outcome_done, deliverOutcome, deliver]
                rw [rest]
                cases outcome : (Form.readItems bracket opened left).outcome with
                | mk result last =>
                    cases result with
                    | error error => rfl
                    | ok more => simp [closeWith]
termination_by tokens.length
decreasing_by
  all_goals simp only [List.length_cons] at *
  all_goals omega

/-- The outcome of a form continues the run around it, unless its first token is a comment. -/
theorem run_eq_deliverOutcome
    {stack : List OpenBracket}
    {token : Token}
    {rest : List Token}
    (noClosing : Bracket.ofClosing? token.text = none)
    (noComment : token.isComment = false) :
    run stack (token :: rest) =
      deliverOutcome stack (Form.read (token :: rest)).outcome :=
  run_form noClosing noComment (run_eq_closeWith rest)

/-- The recursive reading of a form and the machine come to the same outcome. -/
theorem outcome_read_eq_run (tokens : List Token) :
    (Form.read tokens).outcome = run [] tokens := by
  cases tokens with
  | nil => exact Form.outcome_read_nil
  | cons token rest =>
      by_cases comment : token.isComment = true
      · obtain ⟨noOpening, noClosing⟩ := not_bracket_of_isComment comment
        rw [Form.outcome_read_cons, noOpening, noClosing, run, step_comment comment]
        simp only [comment]
        rfl
      · cases closes : Bracket.ofClosing? token.text with
        | some found =>
            rw [Form.outcome_read_cons, not_opening_of_closing closes, closes, run,
              step_closing closes]
            rfl
        | none =>
            rw [run_eq_deliverOutcome closes (Bool.eq_false_iff.2 comment)]
            cases outcome : (Form.read (token :: rest)).outcome with
            | mk result left => cases result <;> rfl

end Machine

/-- The form of a text is what the machine comes to on its tokens. -/
theorem Form.ofSource_eq_run (source : String) :
    ofSource source = (Machine.run [] (Cursor.start source.toList).tokens).1 := by
  rw [← Machine.outcome_read_eq_run]
  rfl

end MiniLisp
