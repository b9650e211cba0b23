import MiniLisp.Proofs.Form.Completion
import MiniLisp.Proofs.Form.Programs
import MiniLisp.Proofs.Token.Division

/-!
# Where strings end

This module shows that the scan of a text and the reading of its tokens agree on the strings
that are closed.

The scan of a string goes forward and ends at the first quote that no backslash consumes,
or where the text ends.  The reader looks at the token alone, and counts the backslashes in
front of its last quote.  A string token has contents exactly if its scan ended at a quote,
and the contents are what stands between the two quotes; it has none exactly if its scan
ended with the text, and then it is the last token (`Token.contents?_iff_scanString`).
-/

namespace MiniLisp

open MiniLisp.Text (IsOpen fitsQuotes)
open MiniLisp.Atom (contents?)

namespace Lexeme

/-- What ends the scan of a string. -/
inductive StringEnd where
  /-- A quote that no backslash consumes. -/
  | closingQuote
  /-- The end of the text. -/
  | endOfText
deriving DecidableEq, Repr

/-- The scan of a string behind its opening quote, with what ends it. -/
def scanString : List Char → (List Char × List Char) × StringEnd
  | [] => (([], []), .endOfText)
  | '"' :: rest => ((['"'], rest), .closingQuote)
  | '\\' :: character :: rest =>
    let ((body, tail), ending) := scanString rest
    (('\\' :: character :: body, tail), ending)
  | character :: rest =>
    let ((body, tail), ending) := scanString rest
    ((character :: body, tail), ending)

/-- Keeping track of the end does not change where a string is cut off. -/
theorem scanString_fst (text : List Char) : (scanString text).1 = splitString text := by
  fun_induction scanString text with
  | case1 => rfl
  | case2 rest => rfl
  | case3 character rest body tail ending scanned ih =>
      rw [scanned] at ih
      rw [splitString, ← ih]
  | case4 character rest noQuote noEscape body tail ending scanned ih =>
      rw [scanned] at ih
      rw [splitString, ← ih]
      · exact noQuote
      · exact noEscape

theorem scanString_snd_cons_of_ne
    {character : Char}
    (noBackslash : character ≠ '\\')
    (noQuote : character ≠ '"')
    (rest : List Char) :
    (scanString (character :: rest)).2 = (scanString rest).2 := by
  rw [scanString]
  · exact noQuote
  · intro next more backslash
    exact absurd backslash noBackslash

/-- The scan of a string that has a closing quote ends at the first one. -/
theorem scanString_append_quote
    {contents : List Char}
    (fits : fitsQuotes contents = true)
    (rest : List Char) :
    scanString (contents ++ '"' :: rest) = ((contents ++ ['"'], rest), .closingQuote) := by
  refine Prod.ext ((scanString_fst _).trans (Text.splitString_append_quote fits rest)) ?_
  show (scanString (contents ++ '"' :: rest)).2 = .closingQuote
  induction contents using Text.scan_induction with
  | nil => rfl
  | lone => cases fits
  | escape character contents ih => exact ih fits
  | quote contents => cases fits
  | plain character contents noBackslash noQuote ih =>
      rw [Text.fitsQuotes_cons_of_ne noBackslash noQuote] at fits
      rw [List.cons_append, scanString_snd_cons_of_ne noBackslash noQuote]
      exact ih fits

/-- The scan of a string without a closing quote ends with the text. -/
theorem scanString_of_isOpen
    {body : List Char}
    (stays : IsOpen body) :
    scanString body = ((body, []), .endOfText) := by
  refine Prod.ext ((scanString_fst _).trans (Text.splitString_of_isOpen stays)) ?_
  show (scanString body).2 = .endOfText
  induction body using Text.scan_induction with
  | nil => rfl
  | lone => rfl
  | escape character rest ih => exact ih stays
  | quote rest =>
      rcases stays with fits | fits <;> cases fits
  | plain character rest noBackslash noQuote ih =>
      rw [Text.isOpen_cons_of_ne noBackslash noQuote] at stays
      rw [scanString_snd_cons_of_ne noBackslash noQuote]
      exact ih stays

/--
The scan that cuts off a string, and the contents of the string, which are read without the
text behind it.
-/
theorem IsLexeme.exists_stringEnd
    {kind : Kind}
    {body rest : List Char}
    (lexeme : IsLexeme kind ('"' :: body) rest) :
    (∃ contents,
      scanString (body ++ rest) = ((body, rest), .closingQuote) ∧
        contents? body = some contents ∧
        body = contents ++ ['"'] ∧ fitsQuotes contents = true) ∨
      (scanString (body ++ rest) = ((body, rest), .endOfText) ∧
        contents? body = none ∧ rest = []) := by
  rcases lexeme.closed_or_isOpen with ⟨contents, fits, rfl⟩ | ⟨stays, rfl⟩
  · refine Or.inl ⟨contents, ?_, Text.contents?_append_quote fits, rfl, fits⟩
    rw [List.append_assoc, List.singleton_append]
    exact scanString_append_quote fits rest
  · refine Or.inr ⟨?_, Text.contents?_of_isOpen stays, rfl⟩
    rw [List.append_nil]
    exact scanString_of_isOpen stays

end Lexeme

/-! ## The error of an open string -/

/-- The machine rejects an open string where it stands. -/
theorem Machine.mem_of_run_unterminated
    {stack : List OpenBracket}
    {tokens left : List Token}
    {text : List Char}
    {position : Position}
    (failed : run stack tokens = (.error (.unterminated text position), left)) :
    ⟨text, position⟩ ∈ tokens ∧ Atom.ofText? text = none := by
  rcases run_error_cases failed with ⟨before, after, -, -, ⟨-, exhaust⟩ | stopped⟩
  · cases after <;> cases exhaust
  · rcases stopped with ⟨token, rest, rfl, wrong⟩
    rcases ofText?_eq_none_of_not_isFinal wrong rfl with ⟨noAtom, named⟩
    cases named
    exact ⟨List.mem_append_right before List.mem_cons_self, noAtom⟩

/-- A program that ends with the error of an open string has this string among its tokens. -/
theorem Program.mem_of_stop_unterminated
    {tokens : List Token}
    {text : List Char}
    {position : Position}
    (stopped : (ofTokens tokens).stop = some (.unterminated text position)) :
    ⟨text, position⟩ ∈ tokens ∧ Atom.ofText? text = none := by
  induction tokens using induction_on_tokens with
  | nil =>
      rw [ofTokens_nil] at stopped
      cases stopped
  | failed token rest error left failed =>
      rw [ofTokens_of_run_error failed] at stopped
      cases stopped
      exact Machine.mem_of_run_unterminated failed
  | form tokens form left success ih =>
      rw [ofTokens_of_run_ok success] at stopped
      rcases Machine.exists_taken_of_run success with ⟨taken, rfl, -, -, -⟩
      rcases ih stopped with ⟨member, noAtom⟩
      exact ⟨List.mem_append_right taken member, noAtom⟩

/-- A string token without contents is the last one. -/
theorem Division.eq_nil_of_contents?
    {passed whole body : List Char}
    {before behind : List (Token × Cursor)}
    {token : Token}
    {after : Cursor}
    (division : Division passed whole (before ++ (token, after) :: behind))
    (quoted : token.text = '"' :: body)
    (noContents : contents? body = none) :
    behind = [] := by
  rcases division.exists_isLexeme with ⟨front, kind, -, -, lexeme, later⟩
  rw [quoted] at lexeme
  rcases lexeme.exists_stringEnd with ⟨contents, -, closed, -⟩ | ⟨-, -, ended⟩
  · rw [noContents] at closed
    cases closed
  · rw [ended] at later
    exact later.eq_nil

/-- A program that fails with the error of an open string has this string as its last token. -/
theorem Program.getLast?_of_complete_unterminated
    {source : String}
    {text : List Char}
    {position : Position}
    (failed : (ofSource source).complete = .error (.unterminated text position)) :
    (Token.ofSource source).getLast? = some ⟨text, position⟩ := by
  have stopped : (ofSource source).stop = some (.unterminated text position) := by
    rw [complete] at failed
    split at failed
    · cases failed
      assumption
    · cases failed
  rcases mem_of_stop_unterminated stopped with ⟨member, noAtom⟩
  rcases Atom.ofText?_eq_none_iff.1 noAtom with ⟨body, quoted, noContents⟩
  rcases List.mem_map.1 member with ⟨⟨token, after⟩, isStep, rfl⟩
  rcases List.append_of_mem isStep with ⟨before, behind, found⟩
  have division := division_start source.toList
  rw [found] at division
  rw [division.eq_nil_of_contents? quoted noContents] at found
  rw [Token.ofSource, Token.scan, found, List.map_append]
  exact List.getLast?_concat

namespace Token

/--
A string token has contents exactly if the scan that cut it off ended at a quote, and then
it consists of the contents between two quotes.  It has none exactly if the scan ended with
the text, and then it is the last token.  So only at its last token a program fails with
the error of an open string.
-/
theorem contents?_iff_scanString (source : String) :
    (∀ (before behind : List (Token × Cursor)) (token : Token) (after : Cursor)
        (body : List Char),
      (Cursor.start source.toList).trace = before ++ (token, after) :: behind →
        token.text = '"' :: body →
          ∃ front ending,
            source.toList = front ++ '"' :: (body ++ after.rest) ∧
              token.position = .behind front ∧
              Lexeme.scanString (body ++ after.rest) = ((body, after.rest), ending) ∧
              ((∃ contents, contents? body = some contents) ↔ ending = .closingQuote) ∧
              (∀ contents, contents? body = some contents →
                token.text = '"' :: (contents ++ ['"']) ∧ fitsQuotes contents = true) ∧
              (contents? body = none ↔ ending = .endOfText) ∧
              (ending = .endOfText → after.rest = [] ∧ behind = [])) ∧
      ∀ text position,
        (Program.ofSource source).complete = .error (.unterminated text position) →
          (ofSource source).getLast? = some ⟨text, position⟩ := by
  constructor
  · intro before behind token after body found quoted
    have division := division_start source.toList
    rw [found] at division
    rcases division.exists_isLexeme with ⟨front, kind, whole, place, lexeme, -⟩
    have last := division.eq_nil_of_contents? quoted
    rw [quoted] at whole lexeme ⊢
    have sameText : source.toList = front ++ '"' :: (body ++ after.rest) := by
      simpa using whole
    rcases lexeme.exists_stringEnd with
      ⟨contents, scanned, closed, rfl, fits⟩ | ⟨scanned, noContents, ended⟩
    · refine ⟨front, .closingQuote, sameText, place, scanned, ?_, ?_, ?_, ?_⟩
      · simp [closed]
      · intro other isContents
        rw [closed] at isContents
        cases isContents
        exact ⟨rfl, fits⟩
      · simp [closed]
      · rintro ⟨⟩
    · refine ⟨front, .endOfText, sameText, place, scanned, ?_, ?_, ?_, ?_⟩
      · simp [noContents]
      · simp [noContents]
      · simp [noContents]
      · exact fun _ => ⟨ended, last noContents⟩
  · exact fun _ _ failed => Program.getLast?_of_complete_unterminated failed

/-- A string that ends in an escaped backslash, and one whose last quote is escaped. -/
def twoStrings : String :=
  "\"a\\\\\" \"b\\\""

private theorem complete_twoStrings :
    (Program.ofSource twoStrings).complete =
      .error (.unterminated ['"', 'b', '\\', '"'] ⟨1, 7⟩) := by
  have tokens :
      ofSource twoStrings =
        [⟨['"', 'a', '\\', '\\', '"'], ⟨1, 1⟩⟩, ⟨['"', 'b', '\\', '"'], ⟨1, 7⟩⟩] := by
    decide +kernel
  rw [Program.ofSource, tokens, Program.ofTokens_of_run_ok rfl, Program.ofTokens_of_run_error rfl]
  rfl

/-- The first string is closed and has contents, and the second one is the last token. -/
theorem contents?_iff_scanString_of_two :
    (∃ front,
      twoStrings.toList =
          front ++ ['"', 'a', '\\', '\\', '"', ' ', '"', 'b', '\\', '"'] ∧
        Lexeme.scanString ['a', '\\', '\\', '"', ' ', '"', 'b', '\\', '"'] =
          ((['a', '\\', '\\', '"'], [' ', '"', 'b', '\\', '"']), .closingQuote)) ∧
      (Program.ofSource twoStrings).complete =
        .error (.unterminated ['"', 'b', '\\', '"'] ⟨1, 7⟩) ∧
      (ofSource twoStrings).getLast? = some ⟨['"', 'b', '\\', '"'], ⟨1, 7⟩⟩ := by
  have trace :
      (Cursor.start twoStrings.toList).trace =
        [] ++
          (⟨['"', 'a', '\\', '\\', '"'], ⟨1, 1⟩⟩,
            ⟨⟨1, 6⟩, [' ', '"', 'b', '\\', '"']⟩) ::
          [(⟨['"', 'b', '\\', '"'], ⟨1, 7⟩⟩, ⟨⟨1, 11⟩, []⟩)] := by
    decide +kernel
  have closed : Atom.contents? ['a', '\\', '\\', '"'] = some ['a', '\\', '\\'] := rfl
  rcases (contents?_iff_scanString twoStrings).1 _ _ _ _ _ trace rfl with
    ⟨front, ending, whole, -, scanned, closes, -⟩
  rw [closes.1 ⟨_, closed⟩] at scanned
  refine ⟨⟨front, whole, scanned⟩, complete_twoStrings, ?_⟩
  exact (contents?_iff_scanString twoStrings).2 _ _ complete_twoStrings

end Token

end MiniLisp
