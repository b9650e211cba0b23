import MiniLisp.Proofs.Form.Relocation
import MiniLisp.Proofs.Form.Spelling

/-!
# Texts that are put together

This module shows what is read from texts that are put together at a line feed.

The line feed ends a comment or a word at the end of the first text.  If the first text
is a program without an error, then its tokens are followed by those of the second text,
which stand further down (`Program.ofSource_append_newline`), or by those of whatever
else closes the text around it (`Form.ofSource_sequence`).
-/

namespace MiniLisp

/-- Behind a program without an error and a line feed, the tokens of a text follow. -/
theorem Cursor.tokens_append_newline_of_complete
    {position : Position}
    {text : List Char}
    (complete : (Program.ofTokens (⟨position, text⟩ : Cursor).tokens).stop = none)
    (tail : List Char) :
    (⟨position, text ++ '\n' :: tail⟩ : Cursor).tokens =
      (⟨position, text⟩ : Cursor).tokens ++
        (⟨position.advance (text ++ ['\n']), tail⟩ : Cursor).tokens := by
  have closed := Program.not_isOpen_of_stop_eq_none complete
  exact tokens_append_newline (fun token isLast => closed token (List.mem_of_getLast? isLast)) tail

namespace Program

/-- The forms of a text follow those of a program in front of it, and its error moves down. -/
theorem ofSource_append_newline
    {first : String}
    (complete : (ofSource first).stop = none)
    (second : String) :
    ofSource (first ++ "\n" ++ second) =
      ⟨(ofSource first).forms ++ (ofSource second).forms,
        (ofSource second).stop.map
          (ParseError.relocate (Position.moveDown (first.toList.count '\n' + 1)))⟩ := by
  have text : (first ++ "\n" ++ second).toList = first.toList ++ '\n' :: second.toList := by
    simp
  have firstComplete : (ofTokens (Cursor.start first.toList).tokens).stop = none := complete
  show ofTokens (Cursor.start (first ++ "\n" ++ second).toList).tokens = _
  rw [Cursor.start] at firstComplete ⊢
  rw [text, Cursor.tokens_append_newline_of_complete firstComplete, Position.advance_start_newline,
    Cursor.tokens_moveDown, ofTokens_append firstComplete, ofTokens_relocate]
  rfl

end Program

namespace Form

/-- The tokens of a program without an error in round brackets, behind a word. -/
private theorem tokens_sequence
    {source : List Char}
    (complete : (Program.ofTokens (Cursor.start source).tokens).stop = none) :
    ∃ position others last,
      (Cursor.start (['('] ++ (['d', 'o'] ++ ' ' :: (source ++ '\n' :: [')'])))).tokens =
          ⟨['('], .start⟩ :: ⟨['d', 'o'], position⟩ :: (others ++ [⟨[')'], last⟩]) ∧
        (Program.ofTokens others).forms =
          (Program.ofTokens (Cursor.start source).tokens).forms ∧
        (Program.ofTokens others).stop = none := by
  have opening : Lexeme.Standalone ['('] := Lexeme.standalone_mark rfl
  have closing : Lexeme.Standalone [')'] := Lexeme.standalone_mark rfl
  have word : Lexeme.Standalone ['d', 'o'] := by
    apply Lexeme.IsWord.standalone
    constructor <;> decide
  have breaking : Lexeme.Breaking (' ' :: (source ++ '\n' :: [')'])) := by
    rintro next ⟨⟩
    decide
  have nothing : ∀ position, (⟨position, []⟩ : Cursor).tokens = [] :=
    fun _ => Cursor.tokens_of_next?_eq_none rfl
  have sameTexts :
      (⟨⟨1, 5⟩, source⟩ : Cursor).tokens.map Token.text =
        (Cursor.start source).tokens.map Token.text :=
    Cursor.text_tokens_congr rfl
  have same := Program.ofTokens_congr sameTexts complete
  refine ⟨⟨1, 2⟩, (⟨⟨1, 5⟩, source⟩ : Cursor).tokens,
    (⟨1, 5⟩ : Position).advance (source ++ ['\n']), ?_, same⟩
  rw [Cursor.start, opening.tokens_append (Or.inl ⟨'(', rfl, rfl⟩),
    word.tokens_append (word.settledBy breaking), Cursor.tokens_cons_separator (by decide)]
  show _ :: ⟨['d', 'o'], ⟨1, 2⟩⟩ ::
    (⟨⟨1, 5⟩, source ++ '\n' :: ([')'] ++ [])⟩ : Cursor).tokens = _
  rw [Cursor.tokens_append_newline_of_complete same.2,
    closing.tokens_append (Or.inl ⟨')', rfl, rfl⟩), nothing]

/-- A program without an error is read as one list if it is put behind a symbol. -/
theorem ofSource_sequence
    {source : String}
    (complete : (Program.ofSource source).stop = none) :
    ofSource ("(do " ++ source ++ "\n)") =
      .ok
        (.list
          (.symbol "do" :: (Program.ofSource source).forms.filter (!·.isComment))) := by
  have text :
      ("(do " ++ source ++ "\n)").toList =
        ['('] ++ (['d', 'o'] ++ ' ' :: (source.toList ++ '\n' :: [')'])) := by
    simp
  rcases tokens_sequence complete with ⟨position, others, last, tokens, sameForms, stop⟩
  have opens : Bracket.ofOpening? (⟨['('], .start⟩ : Token).text = some .round := rfl
  have plain : Machine.IsPlain ['d', 'o'] := by
    constructor <;> decide
  have symbol : Atom.ofText? ['d', 'o'] = some (.symbol "do") := rfl
  have supplied :
      Machine.step [⟨.round, .start, []⟩] ⟨['d', 'o'], position⟩ =
        Machine.supply (.symbol "do") [⟨.round, .start, []⟩] := by
    rw [Machine.step_plain _ plain, symbol]
  have collects :
      collect .round
          ([.symbol "do"] ++ (Program.ofSource source).forms.filter (!·.isComment)) =
        .ok
          (.list
            (.symbol "do" :: (Program.ofSource source).forms.filter (!·.isComment))) := rfl
  rw [ofSource_eq_run, text, tokens, Machine.run, Machine.step_opening opens]
  show (Machine.run [⟨.round, .start, []⟩] (⟨['d', 'o'], position⟩ :: _)).1 = _
  rw [Machine.run_of_supply _ supplied]
  show (Machine.run [⟨.round, .start, [.symbol "do"]⟩] (others ++ _)).1 = _
  rw [Machine.run_append_program stop, sameForms]
  exact congrArg Prod.fst (Machine.run_closing collects .start [] last [])

end Form

end MiniLisp
