import MiniLisp.Proofs.Token.Division

/-!
# Tokens of texts that are joined by line feeds

This module shows that texts can be joined by line feeds without changing their tokens.

The line feed ends whatever the first text ends with, but for a string that is still open.
So the tokens of the second text follow those of the first, further down but in the same
columns.  A token that is not the last one is no open string, and each token is the only
token of its own text.  Hence the texts of all tokens of a text, joined by line feeds, are
again a text with these tokens (`Token.ofSource_joined`).
-/

namespace MiniLisp

open MiniLisp.Text (IsOpen)

namespace Token

/-- The texts of the tokens of a source text, in order. -/
def texts (source : String) : List String :=
  (ofSource source).map fun token => String.ofList token.text

theorem texts_eq_map (source : String) :
    texts source =
      ((Cursor.start source.toList).trace.map (·.1.text)).map String.ofList := by
  rw [texts, ofSource, scan, List.map_map, List.map_map]
  rfl

end Token

/-- The texts of the tokens of a division, joined by line feeds, have these tokens. -/
theorem Division.text_tokens_joined
    {passed rest : List Char}
    {steps : List (Token × Cursor)}
    (division : Division passed rest steps)
    (position : Position) :
    (⟨position, ['\n'].intercalate (steps.map (·.1.text))⟩ : Cursor).tokens.map Token.text =
      steps.map (·.1.text) := by
  induction division generalizing position with
  | gap separators =>
      show (⟨position, []⟩ : Cursor).tokens.map Token.text = []
      rw [Cursor.tokens_of_next?_eq_none rfl]
      rfl
  | @token passed gap text rest kind steps separators lexeme later ih =>
      have alone : (⟨position, text⟩ : Cursor).tokens = [⟨text, position⟩] := by
        rw [Cursor.tokens_of_next? (Cursor.next?_alone lexeme.alone position),
          Cursor.tokens_of_next?_eq_none rfl]
      cases steps with
      | nil =>
          simp only [List.map_singleton, List.intercalate_singleton]
          rw [alone]
          rfl
      | cons next steps =>
          have closed :
              ∀ token ∈ (⟨position, text⟩ : Cursor).tokens.getLast?,
                ∀ body, token.text = '"' :: body → ¬ IsOpen body := by
            rw [alone]
            rintro token ⟨⟩ body rfl stays
            rw [lexeme.rest_eq_nil_of_isOpen stays] at later
            cases later.eq_nil
          rw [List.map_cons, List.map_cons, List.intercalate_cons_cons, List.append_assoc,
            List.singleton_append, Cursor.tokens_append_newline closed, alone, List.map_append]
          exact congrArg (text :: ·) (ih _)

namespace Token

/--
Behind a text that does not end in an open string and a line feed, the tokens of a second
text follow, as many lines down as there are line feeds in front of them.  The texts of the
tokens of any text are the tokens of these texts, joined by line feeds.
-/
theorem ofSource_joined :
    (∀ first second : String,
      (∀ token ∈ (ofSource first).getLast?, ∀ body, token.text = '"' :: body → ¬ IsOpen body) →
        ofSource (first ++ "\n" ++ second) =
          ofSource first ++
            (ofSource second).map
              (relocate (Position.moveDown (first.toList.count '\n' + 1)))) ∧
      ∀ source : String, texts ("\n".intercalate (texts source)) = texts source := by
  constructor
  · intro first second closed
    have text : (first ++ "\n" ++ second).toList = first.toList ++ '\n' :: second.toList := by
      simp
    show (Cursor.start (first ++ "\n" ++ second).toList).tokens = _
    rw [text, Cursor.start, Cursor.tokens_append_newline closed, Position.advance_start_newline,
      Cursor.tokens_moveDown]
    rfl
  · intro source
    have sameTexts := (division_start source.toList).text_tokens_joined .start
    rw [Cursor.tokens, List.map_map] at sameTexts
    have joined :
        ("\n".intercalate (texts source)).toList =
          ['\n'].intercalate ((Cursor.start source.toList).trace.map (·.1.text)) := by
      rw [String.toList_intercalate, texts_eq_map, List.map_map]
      simp [Function.comp_def]
    rw [texts_eq_map, joined, texts_eq_map source]
    exact congrArg (List.map String.ofList) sameTexts

/--
A tilde and the sign on the next line stay two tokens, and the texts of tokens that end with
an open string are the tokens of these texts.
-/
theorem ofSource_joined_of_tilde :
    (∀ token ∈ (ofSource "~").getLast?, ∀ body, token.text = '"' :: body → ¬ IsOpen body) ∧
      ofSource ("~" ++ "\n" ++ "@x") =
        [⟨['~'], ⟨1, 1⟩⟩, ⟨['@'], ⟨2, 1⟩⟩, ⟨['x'], ⟨2, 2⟩⟩] ∧
      texts ("\n".intercalate (texts "[,\"a")) = ["[", "\"a"] := by
  have first : ofSource "~" = [⟨['~'], ⟨1, 1⟩⟩] := by
    show (Cursor.start "~".toList).tokens = _
    rw [Cursor.tokens_of_next? rfl, Cursor.tokens_of_next?_eq_none rfl]
    rfl
  have second : ofSource "@x" = [⟨['@'], ⟨1, 1⟩⟩, ⟨['x'], ⟨1, 2⟩⟩] := by
    show (Cursor.start "@x".toList).tokens = _
    rw [Cursor.tokens_of_next? rfl, Cursor.tokens_of_next? rfl,
      Cursor.tokens_of_next?_eq_none rfl]
    rfl
  have closed :
      ∀ token ∈ (ofSource "~").getLast?, ∀ body, token.text = '"' :: body → ¬ IsOpen body := by
    rw [first]
    rintro token ⟨⟩ body quoted
    cases quoted
  refine ⟨closed, ?_, ?_⟩
  · rw [ofSource_joined.1 "~" "@x" closed, first, second]
    rfl
  · rw [ofSource_joined.2 "[,\"a", texts_eq_map, Cursor.trace_of_next? rfl,
      Cursor.trace_of_next? rfl, Cursor.trace_of_next?_eq_none rfl]
    rfl

end Token

end MiniLisp
