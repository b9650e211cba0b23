import MiniLisp.Proofs.Token.Relocation

/-!
# The division of a text into tokens

This module supplies a second account of the tokens of a text, in which no text is scanned.

A text is divided into gaps of separators and lexemes between them, so that the gaps and the
lexemes make up the text.  Each lexeme is a token, at the position that counting the
line feeds and the characters in front of it gives, and the cursor behind the token stands
where counting the characters up to there puts it (`Division`).

The main theorem says that a text has exactly one division, which consists of the tokens
that a cursor meets from the beginning of the text on (`division_iff_eq_trace`).
-/

namespace MiniLisp

/--
The division of the text behind a stretch that has been passed.  Each token comes with the
cursor behind it.
-/
inductive Division : List Char → List Char → List (Token × Cursor) → Prop where
  /-- Only separators follow. -/
  | gap
      {passed gap : List Char}
      (separators : ∀ character ∈ gap, Lexeme.isSeparator character = true) :
      Division passed gap []
  /-- A lexeme follows behind a gap of separators, which may be empty. -/
  | token
      {passed gap text rest : List Char}
      {kind : Lexeme.Kind}
      {steps : List (Token × Cursor)}
      (separators : ∀ character ∈ gap, Lexeme.isSeparator character = true)
      (lexeme : Lexeme.IsLexeme kind text rest)
      (later : Division (passed ++ gap ++ text) rest steps) :
      Division passed (gap ++ text ++ rest)
        ((⟨text, .behind (passed ++ gap)⟩, ⟨.behind (passed ++ gap ++ text), rest⟩) :: steps)

namespace Cursor

/-- Where only separators follow there is no token, and conversely. -/
theorem next?_eq_none_iff_separators {cursor : Cursor} :
    cursor.next? = none ↔
      ∀ character ∈ cursor.rest, Lexeme.isSeparator character = true := by
  rw [next?_eq_none_iff, skipSeparators]
  exact List.dropWhile_eq_nil_iff

/-- The next token is a lexeme behind separators. -/
theorem exists_isLexeme_of_next?
    {cursor after : Cursor}
    {token : Token}
    (found : cursor.next? = some (token, after)) :
    ∃ gap text rest kind,
      (∀ character ∈ gap, Lexeme.isSeparator character = true) ∧
        Lexeme.IsLexeme kind text rest ∧
        cursor.rest = gap ++ text ++ rest ∧
        token = ⟨text, cursor.position.advance gap⟩ ∧
        after = ⟨cursor.position.advance (gap ++ text), rest⟩ := by
  rcases next?_eq_some_iff.1 found with ⟨first, rest, whole, rfl, rfl⟩
  rcases Lexeme.isLexeme_split (isSeparator_of_skipSeparators whole) rest with ⟨kind, lexeme⟩
  refine ⟨cursor.rest.takeWhile Lexeme.isSeparator, _, _, kind, ?_, lexeme, ?_, rfl, ?_⟩
  · exact fun character member => List.mem_takeWhile_imp member
  · rw [List.append_assoc, Lexeme.split_append, ← whole]
    exact List.takeWhile_append_dropWhile.symm
  · rw [Position.advance_append]
    rfl

end Cursor

/-- The tokens that a cursor meets divide the text behind it. -/
theorem division_trace (passed rest : List Char) :
    Division passed rest (⟨.behind passed, rest⟩ : Cursor).trace := by
  cases found : (⟨.behind passed, rest⟩ : Cursor).next? with
  | none =>
      rw [Cursor.trace_of_next?_eq_none found]
      exact .gap (Cursor.next?_eq_none_iff_separators.1 found)
  | some next =>
      rcases next with ⟨token, after⟩
      have shorter : after.rest.length < rest.length := Cursor.length_lt_of_next? found
      rw [Cursor.trace_of_next? found]
      rcases Cursor.exists_isLexeme_of_next? found with
        ⟨gap, text, left, kind, separators, lexeme, whole, rfl, rfl⟩
      have later := division_trace (passed ++ gap ++ text) left
      simp only [Position.advance_behind, ← List.append_assoc] at later ⊢
      rw [show rest = gap ++ text ++ left from whole]
      exact .token separators lexeme later
termination_by rest.length
decreasing_by exact shorter

theorem division_start (text : List Char) :
    Division [] text (Cursor.start text).trace :=
  division_trace [] text

/-- A division of the text behind a stretch has the tokens that a cursor meets there. -/
theorem Division.eq_trace
    {passed rest : List Char}
    {steps : List (Token × Cursor)}
    (division : Division passed rest steps) :
    steps = (⟨.behind passed, rest⟩ : Cursor).trace := by
  induction division with
  | gap separators =>
      rw [Cursor.trace_of_next?_eq_none (Cursor.next?_eq_none_iff_separators.2 separators)]
  | @token passed gap text rest kind steps separators lexeme later ih =>
      rw [Cursor.trace_of_next? (Cursor.next?_of_isLexeme separators lexeme _)]
      simp only [Position.advance_behind, ← List.append_assoc]
      rw [← ih]

/-- At the end of a text there are no tokens. -/
theorem Division.eq_nil
    {passed : List Char}
    {steps : List (Token × Cursor)}
    (division : Division passed [] steps) :
    steps = [] := by
  rw [division.eq_trace, Cursor.trace_of_next?_eq_none rfl]

/-- Each token of a division is a lexeme at its place, and those behind it divide the rest. -/
theorem Division.exists_isLexeme
    {passed whole : List Char}
    {before behind : List (Token × Cursor)}
    {token : Token}
    {after : Cursor}
    (division : Division passed whole (before ++ (token, after) :: behind)) :
    ∃ front kind,
      passed ++ whole = front ++ token.text ++ after.rest ∧
        token.position = .behind front ∧
        Lexeme.IsLexeme kind token.text after.rest ∧
        Division (front ++ token.text) after.rest behind := by
  generalize all : before ++ (token, after) :: behind = steps at division
  induction division generalizing before with
  | gap separators => simp at all
  | @token passed gap text rest kind steps separators lexeme later ih =>
      cases before with
      | nil =>
          cases all
          exact ⟨passed ++ gap, kind, by simp, rfl, lexeme, later⟩
      | cons earlier before =>
          rcases ih (List.cons.inj all).2 with ⟨front, kind, sameText, others⟩
          exact ⟨front, kind, by simpa using sameText, others⟩

/--
A text has one division: the tokens that a cursor meets on its way through the text, each
with the cursor behind it.
-/
theorem division_iff_eq_trace
    (source : String)
    (steps : List (Token × Cursor)) :
    Division [] source.toList steps ↔ steps = (Cursor.start source.toList).trace := by
  constructor
  · exact fun division => division.eq_trace
  · rintro rfl
    exact division_start source.toList

end MiniLisp
