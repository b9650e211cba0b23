import MiniLisp.Proofs.Token.Kinds
import MiniLisp.Token.Cursor

/-!
# Tokens of a longer text

This module shows how the tokens of a text change when more text is appended.
A lexeme behind separators is the next token (`Cursor.next?_of_isLexeme`), and a
lexeme that is followed by anything at all is settled (`split_append_tail`):
only the last token can grow, and with it everything that has been read so far
keeps its tokens and their positions (`exists_cursor_at`).

The last token does not grow either in front of a text that breaks words, unless
it is a comment or a string that stays open.  A line feed also ends a comment,
so it settles every last token but an open string.
-/

namespace MiniLisp

open MiniLisp.Text (IsOpen)

/-- Appending to a list changes no run of leading elements that ends before the new part. -/
theorem takeWhile_append_of_stops
    {Element : Type}
    {test : Element → Bool}
    {list tail : List Element}
    (stops :
      list.dropWhile test = [] → ∀ next ∈ tail.head?, test next = false) :
    (list ++ tail).takeWhile test = list.takeWhile test ∧
      (list ++ tail).dropWhile test = list.dropWhile test ++ tail := by
  induction list with
  | nil =>
      cases tail with
      | nil => simp
      | cons next tail => simp [stops rfl next rfl]
  | cons element list ih =>
      by_cases passes : test element = true
      · simp only [List.cons_append, List.takeWhile_cons, List.dropWhile_cons,
          passes, if_true] at stops ⊢
        exact ⟨congrArg _ (ih stops).1, (ih stops).2⟩
      · simp [passes]

namespace Lexeme

/-! ## Lexemes in front of more text -/

/-- A text that begins with a character at which words end, or is empty. -/
def Breaking (text : List Char) : Prop :=
  ∀ next ∈ text.head?, breaksWord next = true

/--
A lexeme does not grow into the text behind it: it is a mark, or the text breaks
words, the lexeme is no open string, and a comment meets the end of its line.
-/
def SettledBy (lexeme tail : List Char) : Prop :=
  (∃ mark, lexeme = [mark] ∧ isMark mark = true) ∨
    (Breaking tail ∧ (∀ body, lexeme = '"' :: body → ¬ IsOpen body) ∧
      (lexeme.head? = some ';' → ∀ next ∈ tail.head?, endsLine next = true))

/-- A line feed settles every lexeme but an open string. -/
theorem settledBy_newline
    {lexeme : List Char}
    (closed : ∀ body, lexeme = '"' :: body → ¬ IsOpen body)
    (tail : List Char) :
    SettledBy lexeme ('\n' :: tail) := by
  refine Or.inr ⟨?_, closed, ?_⟩
  · rintro next ⟨⟩
    decide
  · rintro - next ⟨⟩
    decide

/--
A lexeme stays as it is in front of more text if something followed it already,
or if the new text settles it.
-/
theorem split_append_tail
    {first : Char}
    {rest tail : List Char}
    (settled :
      (split first rest).2 = [] → SettledBy (first :: rest) tail) :
    split first (rest ++ tail) =
      ((split first rest).1, (split first rest).2 ++ tail) := by
  by_cases mark : isMark first = true
  · rw [split_mark mark, split_mark mark]
  replace settled :
      (split first rest).2 = [] →
        Breaking tail ∧ (first = '"' → ¬ IsOpen rest) ∧
          (first = ';' → ∀ next ∈ tail.head?, endsLine next = true) := by
    intro whole
    rcases settled whole with ⟨single, equality, isMark⟩ | ⟨breaking, closed, endsLine⟩
    · cases equality
      exact absurd isMark mark
    · refine ⟨breaking, ?_, ?_⟩
      · rintro rfl
        exact closed rest rfl
      · rintro rfl
        exact endsLine rfl
  by_cases tilde : first = '~'
  · subst tilde
    cases rest with
    | nil =>
        have breaking := (settled rfl).1
        cases tail with
        | nil => rfl
        | cons next tail =>
            have noAt : next ≠ '@' := by
              rintro rfl
              exact absurd (breaking '@' rfl) (by decide)
            simp [split, noAt]
    | cons next rest =>
        by_cases isAt : next = '@' <;> simp [split, isAt]
  by_cases quote : first = '"'
  · subst quote
    rw [split_quote, split_quote]
    rcases Text.exists_closing_or_isOpen rest with ⟨contents, after, fits, rfl⟩ | stays
    · rw [List.append_assoc, List.cons_append,
        Text.splitString_append_quote fits, Text.splitString_append_quote fits]
    · have whole : (split '"' rest).2 = [] := by
        rw [split_quote, Text.splitString_of_isOpen stays]
      exact absurd stays ((settled whole).2.1 rfl)
  by_cases comment : first = ';'
  · subst comment
    rw [split_semicolon, split_semicolon]
    have stops : rest.dropWhile (!endsLine ·) = [] →
        ∀ next ∈ tail.head?, (!endsLine next) = false := by
      intro whole next isNext
      rw [(settled whole).2.2 rfl next isNext]
      rfl
    obtain ⟨taken, dropped⟩ := takeWhile_append_of_stops stops
    rw [taken, dropped]
  · have word := split_word tilde (Bool.eq_false_iff.2 mark) quote comment
    rw [word] at settled
    rw [word, word]
    have stops : rest.dropWhile (!breaksWord ·) = [] →
        ∀ next ∈ tail.head?, (!breaksWord next) = false := by
      intro whole next isNext
      rw [(settled whole).1 next isNext]
      rfl
    obtain ⟨taken, dropped⟩ := takeWhile_append_of_stops stops
    rw [taken, dropped]

end Lexeme

namespace Cursor

/-! ## The tokens from a cursor on -/

/-- The tokens from the cursor on, in order. -/
def tokens (cursor : Cursor) : List Token :=
  cursor.trace.map Prod.fst

theorem trace_of_next?_eq_none
    {cursor : Cursor}
    (ended : cursor.next? = none) :
    cursor.trace = [] := by
  rw [trace_eq, ended]

theorem trace_of_next?
    {cursor after : Cursor}
    {token : Token}
    (found : cursor.next? = some (token, after)) :
    cursor.trace = (token, after) :: after.trace := by
  rw [trace_eq, found]

theorem tokens_of_next?_eq_none
    {cursor : Cursor}
    (ended : cursor.next? = none) :
    cursor.tokens = [] := by
  rw [tokens, trace_of_next?_eq_none ended]
  rfl

theorem tokens_of_next?
    {cursor after : Cursor}
    {token : Token}
    (found : cursor.next? = some (token, after)) :
    cursor.tokens = token :: after.tokens := by
  rw [tokens, trace_of_next? found]
  rfl

theorem next?_eq_none_iff {cursor : Cursor} :
    cursor.next? = none ↔ cursor.skipSeparators.rest = [] := by
  rw [next?]
  split
  · next whole => simp [whole]
  · next whole => simp [whole]

theorem next?_eq_some_iff
    {cursor after : Cursor}
    {token : Token} :
    cursor.next? = some (token, after) ↔
      ∃ first rest,
        cursor.skipSeparators.rest = first :: rest ∧
          token = ⟨(Lexeme.split first rest).1, cursor.skipSeparators.position⟩ ∧
          after =
            ⟨cursor.skipSeparators.position.advance (Lexeme.split first rest).1,
              (Lexeme.split first rest).2⟩ := by
  rw [next?]
  split
  · next whole => simp [whole]
  · next first rest whole =>
      rw [whole]
      constructor
      · intro equality
        cases equality
        exact ⟨first, rest, rfl, rfl, rfl⟩
      · rintro ⟨_, _, equality, rfl, rfl⟩
        cases equality
        rfl

/-- No separator is left where separators have been skipped. -/
theorem isSeparator_of_skipSeparators
    {cursor : Cursor}
    {first : Char}
    {rest : List Char}
    (whole : cursor.skipSeparators.rest = first :: rest) :
    Lexeme.isSeparator first = false := by
  have stopped := List.head?_dropWhile_not Lexeme.isSeparator cursor.rest
  simp only [skipSeparators] at whole
  rwa [whole] at stopped

theorem skipSeparators_cons
    {position : Position}
    {character : Char}
    (separator : Lexeme.isSeparator character = true)
    (rest : List Char) :
    (⟨position, character :: rest⟩ : Cursor).skipSeparators =
      (⟨position.step character, rest⟩ : Cursor).skipSeparators := by
  simp [skipSeparators, separator]

theorem tokens_cons_separator
    {position : Position}
    {character : Char}
    (separator : Lexeme.isSeparator character = true)
    (rest : List Char) :
    (⟨position, character :: rest⟩ : Cursor).tokens =
      (⟨position.step character, rest⟩ : Cursor).tokens := by
  have same :
      (⟨position, character :: rest⟩ : Cursor).next? =
        (⟨position.step character, rest⟩ : Cursor).next? := by
    rw [next?, next?, skipSeparators_cons separator]
  rw [tokens, trace_eq, same, tokens, trace_eq]

/-- The next token is the lexeme behind the separators. -/
theorem next?_of_isLexeme
    {gap text rest : List Char}
    {kind : Lexeme.Kind}
    (separators : ∀ character ∈ gap, Lexeme.isSeparator character = true)
    (lexeme : Lexeme.IsLexeme kind text rest)
    (position : Position) :
    (⟨position, gap ++ text ++ rest⟩ : Cursor).next? =
      some (⟨text, position.advance gap⟩, ⟨position.advance (gap ++ text), rest⟩) := by
  rcases lexeme.exists_cons with ⟨first, more, rfl, -⟩
  have noSeparator := lexeme.isSeparator_eq_false
  have skipped :
      (⟨position, gap ++ (first :: more) ++ rest⟩ : Cursor).skipSeparators =
        ⟨position.advance gap, first :: (more ++ rest)⟩ := by
    rw [skipSeparators, List.append_assoc, List.takeWhile_append_of_pos separators,
      List.dropWhile_append_of_pos separators]
    simp [noSeparator]
  apply next?_eq_some_iff.2
  refine ⟨first, more ++ rest, ?_, ?_, ?_⟩
  · rw [skipped]
  · rw [skipped, lexeme.split_eq]
  · rw [skipped, lexeme.split_eq, Position.advance_append]

/-- A lexeme is the only token of its own text. -/
theorem next?_alone
    {kind : Lexeme.Kind}
    {text : List Char}
    (lexeme : Lexeme.IsLexeme kind text [])
    (position : Position) :
    (⟨position, text⟩ : Cursor).next? =
      some (⟨text, position⟩, ⟨position.advance text, []⟩) := by
  have found := next?_of_isLexeme (List.forall_mem_nil _) lexeme position
  rwa [List.nil_append, List.append_nil] at found

/-- A token is a lexeme in front of some text. -/
theorem exists_isLexeme_of_mem_tokens
    {cursor : Cursor}
    {token : Token}
    (member : token ∈ cursor.tokens) :
    ∃ kind rest, Lexeme.IsLexeme kind token.text rest := by
  fun_induction trace cursor with
  | case1 cursor ended =>
      rw [tokens_of_next?_eq_none ended] at member
      cases member
  | case2 cursor next after found ih =>
      rw [tokens_of_next? found] at member
      rcases List.mem_cons.1 member with rfl | later
      · rcases next?_eq_some_iff.1 found with ⟨first, rest, whole, rfl, -⟩
        rcases Lexeme.isLexeme_split (isSeparator_of_skipSeparators whole) rest with
          ⟨kind, lexeme⟩
        exact ⟨kind, _, lexeme⟩
      · exact ih later

/-! ## Appending text behind a cursor -/

/-- The cursor in a text that continues. -/
def extend (cursor : Cursor) (tail : List Char) : Cursor :=
  ⟨cursor.position, cursor.rest ++ tail⟩

theorem skipSeparators_extend
    {cursor : Cursor}
    (more : cursor.skipSeparators.rest ≠ [])
    (tail : List Char) :
    (cursor.extend tail).skipSeparators = cursor.skipSeparators.extend tail := by
  have stops : cursor.rest.dropWhile Lexeme.isSeparator = [] →
      ∀ next ∈ tail.head?, Lexeme.isSeparator next = false :=
    fun ended => absurd ended more
  obtain ⟨taken, dropped⟩ := takeWhile_append_of_stops stops
  simp only [skipSeparators, extend, taken, dropped]

/-- The next token is the same in a text that continues, once it is settled. -/
theorem next?_extend
    {cursor after : Cursor}
    {token : Token}
    {tail : List Char}
    (found : cursor.next? = some (token, after))
    (settled : after.rest = [] → Lexeme.SettledBy token.text tail) :
    (cursor.extend tail).next? = some (token, after.extend tail) := by
  obtain ⟨first, rest, whole, rfl, rfl⟩ := next?_eq_some_iff.1 found
  have more : cursor.skipSeparators.rest ≠ [] := by simp [whole]
  have grown :
      Lexeme.split first (rest ++ tail) =
        ((Lexeme.split first rest).1, (Lexeme.split first rest).2 ++ tail) := by
    apply Lexeme.split_append_tail
    intro ended
    have all : (Lexeme.split first rest).1 = first :: rest := by
      have parts := Lexeme.split_append first rest
      rwa [ended, List.append_nil] at parts
    rw [← all]
    exact settled ended
  apply next?_eq_some_iff.2
  refine ⟨first, rest ++ tail, ?_, ?_, ?_⟩
  · rw [skipSeparators_extend more, extend, whole]
    rfl
  · rw [skipSeparators_extend more, grown]
    rfl
  · rw [skipSeparators_extend more, grown]
    rfl

/--
Every token of a text is found at a cursor, and all tokens in front of it stay
where they are when the text continues.
-/
theorem exists_cursor_at
    {cursor : Cursor}
    {before rest : List Token}
    {token : Token}
    (equality : cursor.tokens = before ++ token :: rest) :
    ∃ here after : Cursor,
      here.next? = some (token, after) ∧ after.tokens = rest ∧
        ∀ tail, (cursor.extend tail).tokens = before ++ (here.extend tail).tokens := by
  induction before generalizing cursor with
  | nil =>
      cases found : cursor.next? with
      | none =>
          rw [tokens_of_next?_eq_none found] at equality
          cases equality
      | some next =>
          obtain ⟨first, after⟩ := next
          rw [tokens_of_next? found] at equality
          cases equality
          exact ⟨cursor, after, found, rfl, fun tail => rfl⟩
  | cons earlier before ih =>
      cases found : cursor.next? with
      | none =>
          rw [tokens_of_next?_eq_none found] at equality
          cases equality
      | some next =>
          obtain ⟨first, after⟩ := next
          rw [tokens_of_next? found] at equality
          obtain ⟨rfl, later⟩ := List.cons.inj equality
          obtain ⟨here, behind, foundHere, tokensBehind, settled⟩ := ih later
          refine ⟨here, behind, foundHere, tokensBehind, ?_⟩
          intro tail
          have more : after.rest ≠ [] := by
            intro ended
            have none : after.next? = none := by
              apply next?_eq_none_iff.2
              simp [skipSeparators, ended]
            rw [tokens_of_next?_eq_none none] at later
            simp at later
          have kept : (cursor.extend tail).next? = some (first, after.extend tail) :=
            next?_extend found fun ended => absurd ended more
          rw [tokens_of_next? kept, settled tail]
          rfl

/-- The next token and the separators in front of it are passed over. -/
theorem advance_of_next?
    {cursor after : Cursor}
    {token : Token}
    (found : cursor.next? = some (token, after)) :
    after.position.advance after.rest = cursor.position.advance cursor.rest := by
  obtain ⟨first, rest, whole, rfl, rfl⟩ := next?_eq_some_iff.1 found
  have separators :
      cursor.rest =
        cursor.rest.takeWhile Lexeme.isSeparator ++ cursor.skipSeparators.rest :=
    List.takeWhile_append_dropWhile.symm
  rw [separators, Position.advance_append, whole, ← Lexeme.split_append first rest,
    Position.advance_append]
  rfl

/-- A text without tokens moves nothing but the position of the text behind it. -/
theorem tokens_extend_of_tokens_eq_nil
    {cursor : Cursor}
    (empty : cursor.tokens = [])
    (tail : List Char) :
    (cursor.extend tail).tokens =
      (⟨cursor.position.advance cursor.rest, tail⟩ : Cursor).tokens := by
  obtain ⟨position, rest⟩ := cursor
  induction rest generalizing position with
  | nil => rfl
  | cons character rest ih =>
      cases found : (⟨position, character :: rest⟩ : Cursor).next? with
      | some next =>
          rw [tokens_of_next? found] at empty
          cases empty
      | none =>
          have separator : Lexeme.isSeparator character = true := by
            have ended := next?_eq_none_iff.1 found
            simp only [skipSeparators, List.dropWhile_cons] at ended
            split at ended
            · assumption
            · cases ended
          rw [tokens_cons_separator separator] at empty
          rw [extend, List.cons_append, tokens_cons_separator separator]
          exact ih _ empty

/--
The tokens of a text that continues are those of its first part and those of the
second, if the second part settles the last token of the first.
-/
theorem tokens_extend
    {cursor : Cursor}
    {tail : List Char}
    (settled :
      ∀ token ∈ cursor.tokens.getLast?, Lexeme.SettledBy token.text tail) :
    (cursor.extend tail).tokens =
      cursor.tokens ++ (⟨cursor.position.advance cursor.rest, tail⟩ : Cursor).tokens := by
  fun_induction trace cursor with
  | case1 cursor ended =>
      have empty := tokens_of_next?_eq_none ended
      rw [tokens_extend_of_tokens_eq_nil empty, empty]
      rfl
  | case2 cursor token after found ih =>
      rw [tokens_of_next? found] at settled ⊢
      have kept : (cursor.extend tail).next? = some (token, after.extend tail) := by
        apply next?_extend found
        intro ended
        have none : after.next? = none := by
          apply next?_eq_none_iff.2
          simp [skipSeparators, ended]
        apply settled
        rw [tokens_of_next?_eq_none none]
        rfl
      have settledLater :
          ∀ last ∈ after.tokens.getLast?, Lexeme.SettledBy last.text tail := by
        intro last isLast
        apply settled
        rw [List.getLast?_cons, Option.mem_def.1 isLast]
        rfl
      rw [tokens_of_next? kept, ih settledLater, advance_of_next? found]
      rfl

/-- Behind a line feed the tokens of a text follow, unless a string is open in front of it. -/
theorem tokens_append_newline
    {position : Position}
    {text : List Char}
    (closed :
      ∀ token ∈ (⟨position, text⟩ : Cursor).tokens.getLast?,
        ∀ body, token.text = '"' :: body → ¬ IsOpen body)
    (tail : List Char) :
    (⟨position, text ++ '\n' :: tail⟩ : Cursor).tokens =
      (⟨position, text⟩ : Cursor).tokens ++
        (⟨position.advance (text ++ ['\n']), tail⟩ : Cursor).tokens := by
  have settled :
      ∀ token ∈ (⟨position, text⟩ : Cursor).tokens.getLast?,
        Lexeme.SettledBy token.text ('\n' :: tail) :=
    fun token isLast => Lexeme.settledBy_newline (closed token isLast) tail
  have tokens := tokens_extend settled
  rw [tokens_cons_separator (by decide)] at tokens
  rw [Position.advance_append]
  exact tokens

end Cursor

/-! ## Texts that are one lexeme -/

namespace Lexeme

/-- A text that is one lexeme, and stays one in front of a text that breaks words. -/
structure Standalone (text : List Char) : Prop where
  whole :
    ∃ first rest,
      text = first :: rest ∧ isSeparator first = false ∧
        split first rest = (text, [])
  noComment : text.head? ≠ some ';'
  closed : ∀ body, text = '"' :: body → ¬ IsOpen body

theorem Standalone.settledBy
    {text tail : List Char}
    (standalone : Standalone text)
    (breaking : Breaking tail) :
    SettledBy text tail :=
  Or.inr ⟨breaking, standalone.closed, fun comment => absurd comment standalone.noComment⟩

/-- A lexeme in front of a text that settles it is the first token. -/
theorem Standalone.tokens_append
    {text tail : List Char}
    (standalone : Standalone text)
    (settled : SettledBy text tail)
    (position : Position) :
    (⟨position, text ++ tail⟩ : Cursor).tokens =
      ⟨text, position⟩ :: (⟨position.advance text, tail⟩ : Cursor).tokens := by
  rcases standalone.whole with ⟨first, rest, equality, noSeparator, whole⟩
  rcases isLexeme_split noSeparator rest with ⟨kind, lexeme⟩
  rw [whole] at lexeme
  exact Cursor.tokens_of_next?
    (Cursor.next?_extend (Cursor.next?_alone lexeme position) fun _ => settled)

theorem standalone_mark
    {mark : Char}
    (isMark : isMark mark = true) :
    Standalone [mark] where
  whole := ⟨mark, [], rfl, isSeparator_of_isMark isMark, split_mark isMark []⟩
  noComment := by
    rintro equality
    cases equality
    cases isMark
  closed := by
    rintro body equality
    cases equality
    cases isMark

/-- Lexemes with a space in front of each of them. -/
def spread (lexemes : List (List Char)) : List Char :=
  lexemes.flatMap fun lexeme => ' ' :: lexeme

/-- Lexemes with a space in front of each of them are the tokens of their text. -/
theorem text_tokens_spread
    {lexemes : List (List Char)}
    (standalone : ∀ lexeme ∈ lexemes, Standalone lexeme)
    (position : Position) :
    (⟨position, spread lexemes⟩ : Cursor).tokens.map Token.text = lexemes := by
  induction lexemes generalizing position with
  | nil =>
      have ended : (⟨position, []⟩ : Cursor).next? = none := rfl
      show (⟨position, []⟩ : Cursor).tokens.map Token.text = []
      rw [Cursor.tokens_of_next?_eq_none ended]
      rfl
  | cons lexeme lexemes ih =>
      have breaking : Breaking (spread lexemes) := by
        intro next isNext
        cases lexemes with
        | nil => cases isNext
        | cons other lexemes =>
            cases isNext
            decide
      have first := standalone lexeme List.mem_cons_self
      have rest := ih fun other member => standalone other (List.mem_cons_of_mem _ member)
      show (⟨position, ' ' :: (lexeme ++ spread lexemes)⟩ : Cursor).tokens.map Token.text = _
      rw [Cursor.tokens_cons_separator (by decide), first.tokens_append (first.settledBy breaking),
        List.map_cons, rest]

end Lexeme

end MiniLisp
