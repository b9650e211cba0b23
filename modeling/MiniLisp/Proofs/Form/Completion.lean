import MiniLisp.Proofs.Form.Machine

/-!
# Completing a text that stops too early

This module shows that the errors of the reader tell texts which stop too early
from texts that are wrong.

A bracket that is closed in the wrong place, and a map with a key too many, are
errors whatever follows: the token that shows them is a closing bracket, and
neither it nor any token in front of it changes when the text continues.  Every
other text can be continued to one that has a form.  A string that stays open is
closed first; then the machine stands at the end of the text with some open
brackets, and these are closed from the innermost outwards, after a further item
where a map would have a key too many.
-/

namespace MiniLisp

open MiniLisp.Text (IsOpen fitsQuotes)
open MiniLisp.Atom (contents?)
open MiniLisp.Lexeme (Standalone Breaking)

/-- The error remains whatever text follows. -/
def ParseError.isFinal : ParseError → Bool
  | endOfInput => false
  | unclosed _ _ => false
  | mismatched _ _ _ => true
  | unopened _ _ => true
  | unterminated _ _ => false
  | oddMap _ => true

namespace Machine

/-! ## How a run ends in an error -/

/-- The machine takes the tokens from one stack to the other without ending. -/
def Passes (before : List OpenBracket) (tokens : List Token) (after : List OpenBracket) : Prop :=
  ∀ more, run before (tokens ++ more) = run after more

/-- A token that the machine passes over is no open string. -/
theorem not_isOpen_of_proceed
    {before after : List OpenBracket}
    {token : Token}
    (made : step before token = .proceed after)
    (body : List Char)
    (quoted : token.text = '"' :: body) :
    ¬ IsOpen body := by
  intro stays
  rw [step_of_isOpen before quoted stays] at made
  cases made

/--
A run that fails passes over some tokens without open strings, and fails at the
token behind them or at the end.
-/
theorem run_error_cases
    {stack : List OpenBracket}
    {tokens left : List Token}
    {error : ParseError}
    (failed : run stack tokens = (.error error, left)) :
    ∃ before after,
      Passes stack before after ∧
        (∀ token ∈ before, ∀ body, token.text = '"' :: body → ¬ IsOpen body) ∧
        ((tokens = before ∧ error = exhausted after) ∨
          ∃ token rest,
            tokens = before ++ token :: rest ∧
              (step after token = .reject error ∨ step after token = .refuse error)) := by
  induction tokens generalizing stack with
  | nil =>
      cases failed
      exact ⟨[], stack, fun more => rfl, by simp, Or.inl ⟨rfl, rfl⟩⟩
  | cons token rest ih =>
      rw [run] at failed
      cases made : step stack token with
      | proceed next =>
          rw [made] at failed
          obtain ⟨before, after, passes, closed, ends⟩ := ih failed
          refine ⟨token :: before, after, ?_, ?_, ?_⟩
          · intro more
            rw [List.cons_append, run, made]
            exact passes more
          · intro other member
            rcases List.mem_cons.1 member with rfl | later
            · exact not_isOpen_of_proceed made
            · exact closed other later
          · rcases ends with ⟨rfl, exhaust⟩ | ⟨culprit, behind, rfl, wrong⟩
            · exact Or.inl ⟨rfl, exhaust⟩
            · exact Or.inr ⟨culprit, behind, rfl, wrong⟩
      | finish form =>
          rw [made] at failed
          cases failed
      | reject found =>
          rw [made] at failed
          cases failed
          exact ⟨[], stack, fun more => rfl, by simp,
            Or.inr ⟨token, left, rfl, Or.inl made⟩⟩
      | refuse found =>
          rw [made] at failed
          cases failed
          exact ⟨[], stack, fun more => rfl, by simp,
            Or.inr ⟨token, rest, rfl, Or.inr made⟩⟩

/-- A final error is found at a closing bracket. -/
theorem exists_closing_of_isFinal
    {stack : List OpenBracket}
    {token : Token}
    {error : ParseError}
    (wrong : step stack token = .reject error ∨ step stack token = .refuse error)
    (final : error.isFinal = true) :
    ∃ found : Bracket, token.text = [found.closing] := by
  rcases liesAt_of_step wrong with ⟨-, lies⟩ | ⟨-, lies⟩
  · cases lies with
    | unterminated => cases final
    | oddMap _ closes => exact ⟨.curly, closes⟩
  · cases lies with
    | mismatched _ closes => exact ⟨_, closes⟩
    | unopened closes => exact ⟨_, closes⟩

/-! ## Closing what is open -/

/-- The texts of the tokens that complete a form: an item, and the closing brackets. -/
def IsCompleting (text : List Char) : Prop :=
  text = ['n', 'i', 'l'] ∨ ∃ bracket : Bracket, text = [bracket.closing]

theorem step_nil
    (stack : List OpenBracket)
    (position : Position) :
    step stack ⟨['n', 'i', 'l'], position⟩ = supply .nil stack := rfl

/-- The items of a bracket make a collection, if need be with one item more. -/
theorem exists_collect
    (bracket : Bracket)
    (items : List Value)
    (item : Value) :
    ∃ form,
      Form.collect bracket items = .ok form ∨
        Form.collect bracket (items ++ [item]) = .ok form := by
  cases bracket with
  | round => exact ⟨.list items, Or.inl rfl⟩
  | square => exact ⟨.vector items, Or.inl rfl⟩
  | curly =>
      by_cases even : items.length % 2 = 0
      · refine ⟨.map (Entries.ofPairs (Entries.pairs items)), Or.inl ?_⟩
        simp [Form.collect, Entries.ofItems?, even]
      · refine ⟨.map (Entries.ofPairs (Entries.pairs (items ++ [item]))), Or.inr ?_⟩
        have longer : (items.length + 1) % 2 = 0 := by omega
        simp [Form.collect, Entries.ofItems?, longer]

/-- The tokens with these texts complete a form, wherever they stand. -/
def Completes
    (outcome : List Token → Except ParseError Value × List Token)
    (texts : List (List Char)) : Prop :=
  ∀ tokens : List Token, tokens.map Token.text = texts →
    ∃ form, outcome tokens = (.ok form, [])

theorem Completes.cons
    {outcome next : List Token → Except ParseError Value × List Token}
    {text : List Char}
    {texts : List (List Char)}
    (rest : Completes next texts)
    (taken : ∀ position tokens, outcome (⟨text, position⟩ :: tokens) = next tokens) :
    Completes outcome (text :: texts) := by
  intro tokens spelled
  cases tokens with
  | nil => cases spelled
  | cons token tokens =>
      obtain ⟨tokenText, position⟩ := token
      cases spelled
      rw [taken]
      exact rest tokens rfl

/-- Closing brackets, and items where they are needed, complete a form. -/
theorem exists_completes_deliver
    (form : Value)
    (stack : List OpenBracket) :
    ∃ texts, (∀ text ∈ texts, IsCompleting text) ∧ Completes (deliver form stack) texts := by
  induction stack generalizing form with
  | nil =>
      refine ⟨[], by simp, ?_⟩
      intro tokens spelled
      rw [List.map_eq_nil_iff.1 spelled]
      exact ⟨form, rfl⟩
  | cons top below ih =>
      obtain ⟨bracket, opened, items⟩ := top
      obtain ⟨built, collected⟩ := exists_collect bracket (items ++ [form]) .nil
      obtain ⟨texts, completing, completes⟩ := ih built
      rcases collected with collected | collected
      · refine ⟨[bracket.closing] :: texts, ?_, ?_⟩
        · intro text member
          rcases List.mem_cons.1 member with rfl | later
          · exact Or.inr ⟨bracket, rfl⟩
          · exact completing text later
        · exact completes.cons (run_closing collected opened below)
      · refine ⟨['n', 'i', 'l'] :: [bracket.closing] :: texts, ?_, ?_⟩
        · intro text member
          rcases List.mem_cons.1 member with rfl | later
          · exact Or.inl rfl
          rcases List.mem_cons.1 later with rfl | last
          · exact Or.inr ⟨bracket, rfl⟩
          · exact completing text last
        · refine (completes.cons (run_closing collected opened below)).cons ?_
          intro position tokens
          show run (⟨bracket, opened, items ++ [form]⟩ :: below) _ = _
          exact run_of_supply tokens (step_nil _ position)

/-- Whatever is open, some tokens complete a form. -/
theorem exists_completes_run (stack : List OpenBracket) :
    ∃ texts, (∀ text ∈ texts, IsCompleting text) ∧ Completes (run stack) texts := by
  obtain ⟨texts, completing, completes⟩ := exists_completes_deliver .nil stack
  refine ⟨['n', 'i', 'l'] :: texts, ?_, ?_⟩
  · intro text member
    rcases List.mem_cons.1 member with rfl | later
    · exact Or.inl rfl
    · exact completing text later
  · refine completes.cons ?_
    intro position tokens
    exact run_of_supply tokens (step_nil stack position)

/-- An error that is not final is found at a string without a closing quote, and names it. -/
theorem ofText?_eq_none_of_not_isFinal
    {stack : List OpenBracket}
    {token : Token}
    {error : ParseError}
    (wrong : step stack token = .reject error ∨ step stack token = .refuse error)
    (notFinal : error.isFinal = false) :
    Atom.ofText? token.text = none ∧ error = .unterminated token.text token.position := by
  rcases liesAt_of_step wrong with ⟨-, lies⟩ | ⟨-, lies⟩
  · cases lies with
    | unterminated noAtom => exact ⟨noAtom, rfl⟩
    | oddMap => cases notFinal
  · cases lies <;> cases notFinal

theorem IsCompleting.standalone
    {text : List Char}
    (completing : IsCompleting text) :
    Standalone text := by
  rcases completing with rfl | ⟨bracket, rfl⟩
  · exact ⟨⟨'n', ['i', 'l'], rfl, by decide, by decide⟩, by decide, by simp⟩
  · apply Lexeme.standalone_mark
    cases bracket <;> decide

end Machine

namespace Form

/-- A final error remains whatever text follows. -/
theorem ofSource_append_of_isFinal
    {source : String}
    {error : ParseError}
    (failed : ofSource source = .error error)
    (final : error.isFinal = true)
    (more : String) :
    ofSource (source ++ more) = .error error := by
  rw [ofSource_eq_run] at failed
  obtain ⟨before, after, passes, -, ends⟩ := Machine.run_error_cases (Prod.ext failed rfl)
  rcases ends with ⟨-, rfl⟩ | ⟨token, rest, equality, wrong⟩
  · cases after <;> cases final
  · obtain ⟨found, closes⟩ := Machine.exists_closing_of_isFinal wrong final
    obtain ⟨here, behind, foundHere, -, kept⟩ := Cursor.exists_cursor_at equality
    have settled : Lexeme.SettledBy token.text more.toList :=
      Or.inl ⟨found.closing, closes, by cases found <;> decide⟩
    have foundAgain := Cursor.next?_extend foundHere fun _ => settled
    have tokens :
        (Cursor.start (source ++ more).toList).tokens =
          before ++ token :: (behind.extend more.toList).tokens := by
      rw [String.toList_append, ← Cursor.tokens_of_next? foundAgain]
      exact kept more.toList
    rw [ofSource_eq_run, tokens, passes, Machine.run]
    rcases wrong with wrong | wrong <;> rw [wrong]

/--
A text that ends while brackets are open is completed by the brackets that close
them, behind a line feed that ends the last token.
-/
private theorem exists_completion_of_exhausted
    {source : String}
    {stack : List OpenBracket}
    (passes : Machine.Passes [] (Cursor.start source.toList).tokens stack)
    (closed :
      ∀ token ∈ (Cursor.start source.toList).tokens,
        ∀ body, token.text = '"' :: body → ¬ IsOpen body) :
    ∃ more form, ofSource (source ++ more) = .ok form := by
  obtain ⟨texts, completing, completes⟩ := Machine.exists_completes_run stack
  have settled :
      ∀ token ∈ (Cursor.start source.toList).tokens.getLast?,
        Lexeme.SettledBy token.text ('\n' :: Lexeme.spread texts) := by
    intro token isLast
    exact Lexeme.settledBy_newline (closed token (List.mem_of_getLast? isLast)) _
  have tokens := Cursor.tokens_extend settled
  rw [Cursor.tokens_cons_separator (by decide)] at tokens
  obtain ⟨form, completed⟩ :=
    completes _
      (Lexeme.text_tokens_spread (fun text member => (completing text member).standalone) _)
  refine ⟨String.ofList ('\n' :: Lexeme.spread texts), form, ?_⟩
  rw [ofSource_eq_run, String.toList_append, String.toList_ofList]
  show (Machine.run [] ((Cursor.start source.toList).extend _).tokens).1 = _
  rw [tokens, passes, completed]

/--
A text that ends in an open string is completed by the quote that closes it, and
by the brackets that close what is open around it.
-/
private theorem exists_completion_of_open_string
    {source : String}
    {before rest : List Token}
    {token : Token}
    {stack : List OpenBracket}
    (passes : Machine.Passes [] before stack)
    (equality : (Cursor.start source.toList).tokens = before ++ token :: rest)
    (noAtom : Atom.ofText? token.text = none) :
    ∃ more form, ofSource (source ++ more) = .ok form := by
  obtain ⟨here, behind, foundHere, -, kept⟩ := Cursor.exists_cursor_at equality
  obtain ⟨first, text, whole, rfl, -⟩ := Cursor.next?_eq_some_iff.1 foundHere
  obtain ⟨body, quoted, noContents⟩ := Atom.ofText?_eq_none_iff.1 noAtom
  have isQuote : first = '"' := by
    have parts := Lexeme.split_append first text
    rw [show (Lexeme.split first text).1 = '"' :: body from quoted] at parts
    exact (List.cons.inj parts).1.symm
  subst isQuote
  obtain rfl : body = (Lexeme.splitString text).1 := (List.cons.inj quoted).2.symm
  obtain ⟨quotes, contents, fits, closing⟩ :=
    (Text.isOpen_of_contents?_eq_none noContents).exists_closing
  obtain ⟨texts, completing, completes⟩ :=
    Machine.exists_completes_deliver (.string (String.ofList contents)) stack
  have more : here.skipSeparators.rest ≠ [] := by simp [whole]
  have cut :
      Lexeme.split '"' (text ++ (quotes ++ Lexeme.spread texts)) =
        ('"' :: (contents ++ ['"']), Lexeme.spread texts) := by
    rw [← List.append_assoc, closing, List.append_assoc]
    rw [Lexeme.split_quote, List.singleton_append, Text.splitString_append_quote fits]
  have foundAgain :
      (here.extend (quotes ++ Lexeme.spread texts)).next? =
        some
          (⟨'"' :: (contents ++ ['"']), here.skipSeparators.position⟩,
            ⟨here.skipSeparators.position.advance ('"' :: (contents ++ ['"'])),
              Lexeme.spread texts⟩) := by
    apply Cursor.next?_eq_some_iff.2
    rw [Cursor.skipSeparators_extend more]
    refine ⟨'"', text ++ (quotes ++ Lexeme.spread texts), ?_, ?_, ?_⟩
    · rw [Cursor.extend, whole]
      rfl
    · rw [cut]
      rfl
    · rw [cut]
      rfl
  have spelled :=
    Lexeme.text_tokens_spread
      (fun text member => (completing text member).standalone)
      (here.skipSeparators.position.advance ('"' :: (contents ++ ['"'])))
  obtain ⟨form, completed⟩ := completes _ spelled
  refine ⟨String.ofList (quotes ++ Lexeme.spread texts), form, ?_⟩
  rw [ofSource_eq_run, String.toList_append, String.toList_ofList]
  show (Machine.run [] ((Cursor.start source.toList).extend _).tokens).1 = _
  rw [kept, Cursor.tokens_of_next? foundAgain, passes]
  rw [Machine.run_of_supply _ (Machine.step_quote stack (Text.contents?_append_quote fits) _)]
  rw [completed]

/-- Any text without a final error can be continued to one that has a form. -/
theorem exists_ofSource_append_eq_ok
    {source : String}
    (notFinal : ∀ error, ofSource source = .error error → error.isFinal = false) :
    ∃ more form, ofSource (source ++ more) = .ok form := by
  cases outcome : ofSource source with
  | ok form =>
      exact ⟨"", form, by rw [String.append_empty, outcome]⟩
  | error error =>
      have failed := outcome
      rw [ofSource_eq_run] at failed
      obtain ⟨before, after, passes, closed, ends⟩ :=
        Machine.run_error_cases (Prod.ext failed rfl)
      rcases ends with ⟨rfl, -⟩ | ⟨token, rest, equality, wrong⟩
      · exact exists_completion_of_exhausted passes closed
      · have noAtom :=
          (Machine.ofText?_eq_none_of_not_isFinal wrong (notFinal error outcome)).1
        exact exists_completion_of_open_string passes equality noAtom

/--
The errors of the reader tell texts that stop too early from texts that are wrong:
a final error remains the same whatever text follows, and any other text can be
continued to one that has a form.
-/
theorem errors_final_or_completable :
    (∀ (source : String) (error : ParseError),
      ofSource source = .error error → error.isFinal = true →
        ∀ more : String, ofSource (source ++ more) = .error error) ∧
      ∀ source : String,
        (∀ error, ofSource source = .error error → error.isFinal = false) →
          ∃ more form, ofSource (source ++ more) = .ok form :=
  ⟨fun _ _ failed final more => ofSource_append_of_isFinal failed final more,
    fun _ notFinal => exists_ofSource_append_eq_ok notFinal⟩

private theorem ofSource_mismatched :
    ofSource "(1]" = .error (.mismatched .round .square ⟨1, 3⟩) := by
  have tokens :
      (Cursor.start "(1]".toList).tokens =
        [⟨['('], ⟨1, 1⟩⟩, ⟨['1'], ⟨1, 2⟩⟩, ⟨[']'], ⟨1, 3⟩⟩] := by
    rw [Cursor.tokens_of_next? rfl, Cursor.tokens_of_next? rfl,
      Cursor.tokens_of_next? rfl, Cursor.tokens_of_next?_eq_none rfl]
    rfl
  rw [ofSource_eq_run, tokens]
  rfl

private theorem ofSource_unterminated :
    ofSource "[\"a" = .error (.unterminated ['"', 'a'] ⟨1, 2⟩) := by
  have tokens :
      (Cursor.start "[\"a".toList).tokens =
        [⟨['['], ⟨1, 1⟩⟩, ⟨['"', 'a'], ⟨1, 2⟩⟩] := by
    rw [Cursor.tokens_of_next? rfl, Cursor.tokens_of_next? rfl,
      Cursor.tokens_of_next?_eq_none rfl]
    rfl
  rw [ofSource_eq_run, tokens]
  rfl

/-- A wrong bracket stays wrong, and a string that stays open can be completed. -/
theorem errors_final_or_completable_of_brackets :
    (ofSource "(1]" = .error (.mismatched .round .square ⟨1, 3⟩) ∧
      ofSource ("(1]" ++ ")") = .error (.mismatched .round .square ⟨1, 3⟩)) ∧
      ofSource "[\"a" = .error (.unterminated ['"', 'a'] ⟨1, 2⟩) ∧
      ∃ more form, ofSource ("[\"a" ++ more) = .ok form := by
  refine ⟨⟨ofSource_mismatched, ?_⟩, ofSource_unterminated, ?_⟩
  · exact errors_final_or_completable.1 _ _ ofSource_mismatched rfl ")"
  · apply errors_final_or_completable.2
    intro error failed
    rw [ofSource_unterminated] at failed
    cases failed
    rfl

end Form

end MiniLisp
