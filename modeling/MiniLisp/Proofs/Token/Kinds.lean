import MiniLisp.Proofs.Token.Quotation
import Mathlib.Data.List.TakeWhile

/-!
# Kinds of lexemes

This module says what a lexeme is without saying how it is scanned.

There are five kinds of lexemes, and the first character decides which one it starts.
Each kind accepts some texts, and a lexeme is the longest stretch that its kind accepts
(`Lexeme.IsLexeme`).  No text has two lexemes at its head (`Lexeme.IsLexeme.unique`), and
the lexeme that is split off is the one that it has (`Lexeme.isLexeme_split`).
-/

namespace MiniLisp

open MiniLisp.Text (IsOpen fitsQuotes)

namespace Lexeme

/-! ## Classes of characters -/

theorem breaksWord_of_isSeparator
    {character : Char}
    (separator : isSeparator character = true) :
    breaksWord character = true := by
  rw [isSeparator, Bool.or_eq_true, beq_iff_eq] at separator
  rcases separator with blank | rfl
  · rw [breaksWord, blank, Bool.true_or]
  · decide

theorem breaksWord_of_isMark
    {character : Char}
    (mark : isMark character = true) :
    character = '^' ∨ character = '@' ∨ breaksWord character = true := by
  have marks :
      ['(', ')', '[', ']', '{', '}', '\x27', '\x60', '^', '@'].all
        (fun mark => mark == '^' || mark == '@' || breaksWord mark) = true := by
    decide
  have found := List.all_eq_true.1 marks character (List.contains_iff_mem.1 mark)
  simpa only [Bool.or_eq_true, beq_iff_eq, or_assoc] using found

theorem isSeparator_of_isMark
    {character : Char}
    (mark : isMark character = true) :
    isSeparator character = false := by
  have marks :
      ['(', ')', '[', ']', '{', '}', '\x27', '\x60', '^', '@'].all (!isSeparator ·) = true := by
    decide
  have found := List.all_eq_true.1 marks character (List.contains_iff_mem.1 mark)
  rwa [Bool.not_eq_true'] at found

/-- The characters that break words are separators or start a lexeme of another kind. -/
theorem breaksWord_eq_false_of_first
    {first : Char}
    (noSeparator : isSeparator first = false)
    (noMark : isMark first = false)
    (noQuote : first ≠ '"')
    (noSemicolon : first ≠ ';') :
    breaksWord first = false := by
  rw [isSeparator, Bool.or_eq_false_iff, beq_eq_false_iff_ne] at noSeparator
  rw [breaksWord, noSeparator.1, Bool.false_or, ← Bool.not_eq_true]
  intro member
  have others :
      ['(', ')', '[', ']', '{', '}', '\x27', '"', '\x60', ',', ';'].all
        (fun other => isMark other || other == '"' || other == ',' || other == ';') = true := by
    decide
  have found := List.all_eq_true.1 others first (List.contains_iff_mem.1 member)
  simp only [noMark, Bool.or_eq_true, beq_iff_eq, Bool.false_eq_true, false_or, or_assoc] at found
  rcases found with quote | comma | semicolon
  · exact noQuote quote
  · exact noSeparator.2 comma
  · exact noSemicolon semicolon

/-! ## The lexeme of each kind -/

theorem split_mark
    {first : Char}
    (mark : isMark first = true)
    (rest : List Char) :
    split first rest = ([first], rest) := by
  have noTilde : first ≠ '~' := by
    rintro rfl
    cases mark
  rw [split.eq_def, if_neg noTilde, if_pos mark]

theorem split_quote (rest : List Char) :
    split '"' rest =
      ('"' :: (splitString rest).1, (splitString rest).2) := rfl

theorem split_semicolon (rest : List Char) :
    split ';' rest =
      (';' :: rest.takeWhile (!endsLine ·), rest.dropWhile (!endsLine ·)) := rfl

theorem split_word
    {first : Char}
    (noTilde : first ≠ '~')
    (noMark : isMark first = false)
    (noQuote : first ≠ '"')
    (noSemicolon : first ≠ ';')
    (rest : List Char) :
    split first rest =
      (first :: rest.takeWhile (!breaksWord ·), rest.dropWhile (!breaksWord ·)) := by
  rw [split.eq_def, if_neg noTilde, noMark, if_neg Bool.false_ne_true, if_neg noQuote,
    if_neg noSemicolon]

/-! ## Lexemes -/

/-- The kinds of lexemes. -/
inductive Kind where
  /-- A tilde, alone or with an at sign. -/
  | tilde
  /-- A mark of one character. -/
  | mark
  /-- A string, closed by a quote or open. -/
  | string
  /-- A comment. -/
  | comment
  /-- A run of characters that do not break words. -/
  | word
deriving DecidableEq, Repr

/-- The kind of the lexeme that a character starts. -/
def Kind.ofFirst (first : Char) : Kind :=
  if first = '~' then
    .tilde
  else if isMark first then
    .mark
  else if first = '"' then
    .string
  else if first = ';' then
    .comment
  else
    .word

theorem Kind.ofFirst_eq_word_iff {first : Char} :
    ofFirst first = .word ↔
      first ≠ '~' ∧ isMark first = false ∧ first ≠ '"' ∧ first ≠ ';' := by
  unfold ofFirst
  split_ifs <;> simp_all

/--
The texts of a kind.  Behind the opening quote of a string a backslash consumes the
character after it, and a quote that is not consumed can only be the last character.
-/
def Kind.Accepts : Kind → List Char → Prop
  | tilde, text => text = ['~'] ∨ text = ['~', '@']
  | mark, text => ∃ mark, isMark mark = true ∧ text = [mark]
  | string, text =>
      ∃ body, text = '"' :: body ∧
        (IsOpen body ∨ ∃ contents, fitsQuotes contents = true ∧ body = contents ++ ['"'])
  | comment, text =>
      ∃ body, text = ';' :: body ∧ ∀ character ∈ body, endsLine character = false
  | word, text => ∀ character ∈ text, breaksWord character = false

/-- A text, in front of the rest, that is the longest one of the kind that it starts. -/
structure IsLexeme (kind : Kind) (text rest : List Char) : Prop where
  starts : text.head?.map Kind.ofFirst = some kind
  accepted : kind.Accepts text
  longest : ∀ more, more <+: rest → kind.Accepts (text ++ more) → more = []

namespace IsLexeme

variable {kind kind' : Kind} {text text' rest rest' : List Char}

theorem exists_cons (lexeme : IsLexeme kind text rest) :
    ∃ first more, text = first :: more ∧ Kind.ofFirst first = kind := by
  have starts := lexeme.starts
  cases text with
  | nil => cases starts
  | cons first more => exact ⟨first, more, rfl, Option.some.inj starts⟩

theorem ofFirst_eq
    {first : Char}
    {more : List Char}
    (lexeme : IsLexeme kind (first :: more) rest) :
    Kind.ofFirst first = kind :=
  Option.some.inj lexeme.starts

/-- A lexeme is one also at the end of a text. -/
theorem alone (lexeme : IsLexeme kind text rest) : IsLexeme kind text [] where
  starts := lexeme.starts
  accepted := lexeme.accepted
  longest := fun _ isPrefix _ => List.prefix_nil.1 isPrefix

/-- No text has two lexemes at its head. -/
theorem unique
    (lexeme : IsLexeme kind text rest)
    (lexeme' : IsLexeme kind' text' rest')
    (whole : text ++ rest = text' ++ rest') :
    text = text' ∧ rest = rest' := by
  have sameKind : kind = kind' := by
    rcases lexeme.exists_cons with ⟨first, more, rfl, rfl⟩
    rcases lexeme'.exists_cons with ⟨first', more', rfl, rfl⟩
    rw [(List.cons.inj whole).1]
  subst sameKind
  rcases List.append_eq_append_iff.1 whole with ⟨more, rfl, rfl⟩ | ⟨more, rfl, rfl⟩
  · have none := lexeme.longest more (List.prefix_append more rest') lexeme'.accepted
    subst none
    exact ⟨(List.append_nil text).symm, rfl⟩
  · have none := lexeme'.longest more (List.prefix_append more rest) lexeme.accepted
    subst none
    exact ⟨List.append_nil text', rfl⟩

/-- A lexeme does not start with a separator. -/
theorem isSeparator_eq_false
    {first : Char}
    {more : List Char}
    (lexeme : IsLexeme kind (first :: more) rest) :
    isSeparator first = false := by
  have accepted := lexeme.accepted
  cases kind with
  | tilde =>
      rcases accepted with single | double
      · cases single
        decide
      · cases double
        decide
  | mark =>
      rcases accepted with ⟨mark, isMark, single⟩
      cases single
      exact isSeparator_of_isMark isMark
  | string =>
      rcases accepted with ⟨body, quoted, -⟩
      cases quoted
      decide
  | comment =>
      rcases accepted with ⟨body, commented, -⟩
      cases commented
      decide
  | word =>
      have unbroken := accepted first List.mem_cons_self
      rw [← Bool.not_eq_true] at unbroken ⊢
      exact fun separator => unbroken (breaksWord_of_isSeparator separator)

end IsLexeme

/-! ## The lexeme that is split off -/

/-- A string of which no part is behind its closing quote is cut off whole. -/
theorem splitString_of_accepts
    {body : List Char}
    (accepted : Kind.string.Accepts ('"' :: body)) :
    splitString body = (body, []) := by
  rcases accepted with ⟨body, quoted, stays | ⟨contents, fits, rfl⟩⟩
  · cases quoted
    exact Text.splitString_of_isOpen stays
  · cases quoted
    exact Text.splitString_append_quote fits []

/-- Nothing behind a run of elements continues the run. -/
theorem eq_nil_of_prefix_dropWhile
    {Element : Type}
    {test : Element → Bool}
    {list more : List Element}
    (isPrefix : more <+: list.dropWhile test)
    (passes : ∀ element ∈ more, test element = true) :
    more = [] := by
  cases more with
  | nil => rfl
  | cons first more =>
      rcases isPrefix with ⟨rest, whole⟩
      have stops := List.head?_dropWhile_not test list
      rw [← whole] at stops
      exact absurd (passes first List.mem_cons_self) (ne_true_of_eq_false stops)

theorem isLexeme_string (rest : List Char) :
    IsLexeme .string ('"' :: (splitString rest).1) (splitString rest).2 := by
  rcases Text.exists_closing_or_isOpen rest with ⟨contents, tail, fits, rfl⟩ | stays
  · rw [Text.splitString_append_quote fits]
    refine ⟨rfl, ⟨_, rfl, Or.inr ⟨contents, fits, rfl⟩⟩, ?_⟩
    intro more isPrefix accepted
    have whole : splitString (contents ++ '"' :: more) = (contents ++ '"' :: more, []) :=
      splitString_of_accepts (by simpa using accepted)
    rw [Text.splitString_append_quote fits] at whole
    exact (Prod.mk.inj whole).2
  · rw [Text.splitString_of_isOpen stays]
    exact ⟨rfl, ⟨rest, rfl, Or.inl stays⟩, fun _ isPrefix _ => List.prefix_nil.1 isPrefix⟩

theorem isLexeme_comment (rest : List Char) :
    IsLexeme .comment
      (';' :: rest.takeWhile (!endsLine ·)) (rest.dropWhile (!endsLine ·)) where
  starts := rfl
  accepted := by
    refine ⟨_, rfl, ?_⟩
    intro character member
    simpa using List.mem_takeWhile_imp member
  longest := by
    rintro more isPrefix ⟨body, whole, within⟩
    apply eq_nil_of_prefix_dropWhile isPrefix
    intro character member
    rw [← (List.cons.inj whole).2] at within
    rw [within character (List.mem_append_right _ member)]
    rfl

theorem isLexeme_word
    {first : Char}
    (kind : Kind.ofFirst first = .word)
    (unbroken : breaksWord first = false)
    (rest : List Char) :
    IsLexeme .word
      (first :: rest.takeWhile (!breaksWord ·)) (rest.dropWhile (!breaksWord ·)) where
  starts := congrArg some kind
  accepted := by
    refine List.forall_mem_cons.2 ⟨unbroken, ?_⟩
    intro character member
    simpa using List.mem_takeWhile_imp member
  longest := by
    intro more isPrefix within
    apply eq_nil_of_prefix_dropWhile isPrefix
    intro character member
    rw [within character (List.mem_append_right _ member)]
    rfl

theorem isLexeme_tilde (rest : List Char) :
    IsLexeme .tilde (split '~' rest).1 (split '~' rest).2 := by
  cases rest with
  | nil => exact ⟨rfl, Or.inl rfl, fun _ isPrefix _ => List.prefix_nil.1 isPrefix⟩
  | cons next rest =>
      by_cases isAt : next = '@'
      · subst isAt
        refine ⟨rfl, Or.inr rfl, ?_⟩
        rintro more - (single | double)
        · cases single
        · simpa [split] using double
      · have single : split '~' (next :: rest) = (['~'], next :: rest) := by
          simp [split, isAt]
        rw [single]
        refine ⟨rfl, Or.inl rfl, ?_⟩
        rintro more ⟨tail, whole⟩ (single | double)
        · simpa using single
        · have isAtSign : more = ['@'] := by simpa using double
          subst isAtSign
          exact absurd (List.cons.inj whole).1.symm isAt

theorem isLexeme_mark
    {mark : Char}
    (isMark : isMark mark = true)
    (rest : List Char) :
    IsLexeme .mark [mark] rest where
  starts := by
    have noTilde : mark ≠ '~' := by
      rintro rfl
      cases isMark
    rw [List.head?_cons, Option.map_some, Kind.ofFirst, if_neg noTilde, if_pos isMark]
  accepted := ⟨mark, isMark, rfl⟩
  longest := by
    rintro more - ⟨other, -, whole⟩
    exact (List.cons.inj whole).2

/-- The lexeme that is split off a text is the longest one of its kind. -/
theorem isLexeme_split
    {first : Char}
    (noSeparator : isSeparator first = false)
    (rest : List Char) :
    ∃ kind, IsLexeme kind (split first rest).1 (split first rest).2 := by
  by_cases tilde : first = '~'
  · subst tilde
    exact ⟨.tilde, isLexeme_tilde rest⟩
  by_cases mark : isMark first = true
  · rw [split_mark mark]
    exact ⟨.mark, isLexeme_mark mark rest⟩
  by_cases quote : first = '"'
  · subst quote
    exact ⟨.string, isLexeme_string rest⟩
  by_cases semicolon : first = ';'
  · subst semicolon
    exact ⟨.comment, isLexeme_comment rest⟩
  · have noMark := Bool.eq_false_iff.2 mark
    have kind := Kind.ofFirst_eq_word_iff.2 ⟨tilde, noMark, quote, semicolon⟩
    have unbroken := breaksWord_eq_false_of_first noSeparator noMark quote semicolon
    rw [split_word tilde noMark quote semicolon]
    exact ⟨.word, isLexeme_word kind unbroken rest⟩

/-- A lexeme is what is split off the text at whose head it stands. -/
theorem IsLexeme.split_eq
    {kind : Kind}
    {first : Char}
    {more rest : List Char}
    (lexeme : IsLexeme kind (first :: more) rest) :
    split first (more ++ rest) = (first :: more, rest) := by
  rcases isLexeme_split lexeme.isSeparator_eq_false (more ++ rest) with ⟨kind', lexeme'⟩
  rcases lexeme'.unique lexeme (split_append first (more ++ rest)) with ⟨sameText, sameRest⟩
  exact Prod.ext sameText sameRest

/-- A lexeme at the end of a text is all that is left of it. -/
theorem IsLexeme.exists_split
    {kind : Kind}
    {text : List Char}
    (lexeme : IsLexeme kind text []) :
    ∃ first rest,
      text = first :: rest ∧ isSeparator first = false ∧ split first rest = (text, []) := by
  rcases lexeme.exists_cons with ⟨first, rest, rfl, -⟩
  have whole := lexeme.split_eq
  rw [List.append_nil] at whole
  exact ⟨first, rest, rfl, lexeme.isSeparator_eq_false, whole⟩

/-- A string that is a lexeme is closed by its last quote, or the text ends with it. -/
theorem IsLexeme.closed_or_isOpen
    {kind : Kind}
    {body rest : List Char}
    (lexeme : IsLexeme kind ('"' :: body) rest) :
    (∃ contents, fitsQuotes contents = true ∧ body = contents ++ ['"']) ∨
      (IsOpen body ∧ rest = []) := by
  have whole : splitString (body ++ rest) = (body, rest) := by
    have cut := lexeme.split_eq
    rw [split_quote] at cut
    rcases Prod.mk.inj cut with ⟨sameText, sameRest⟩
    exact Prod.ext (List.cons.inj sameText).2 sameRest
  rcases Text.exists_closing_or_isOpen (body ++ rest) with
    ⟨contents, tail, fits, closed⟩ | stays
  · rw [closed, Text.splitString_append_quote fits] at whole
    exact Or.inl ⟨contents, fits, (congrArg Prod.fst whole).symm⟩
  · rw [Text.splitString_of_isOpen stays] at whole
    have ended : rest = [] := (congrArg Prod.snd whole).symm
    rw [ended, List.append_nil] at stays
    exact Or.inr ⟨stays, ended⟩

/-- An open string reaches up to the end of the text. -/
theorem IsLexeme.rest_eq_nil_of_isOpen
    {kind : Kind}
    {body rest : List Char}
    (lexeme : IsLexeme kind ('"' :: body) rest)
    (stays : IsOpen body) :
    rest = [] := by
  rcases lexeme.closed_or_isOpen with ⟨contents, fits, rfl⟩ | ⟨-, ended⟩
  · have even := Text.trailingBackslashes_mod_two_of_fits fits
    exact absurd stays (Text.not_isOpen_append_quote even)
  · exact ended

end Lexeme

end MiniLisp
