import MiniLisp.Form.Atom
import MiniLisp.Token.Lexeme

/-!
# Quotations

This module shows that the two places which look for the end of a string agree.
A lexeme is cut at the first quote that no backslash consumes, by a scan from
the left.  An atom takes the contents of a string by counting the backslashes
in front of the last quote, from the right.

A text fits between quotes if the scan passes over all of it.  In front of a
closing quote such a text is cut off whole, and its contents are read back.  A
text without a closing quote is cut off whole as well, but it is read as a
string that stays open.
-/

namespace MiniLisp

open MiniLisp.Lexeme (splitString)
open MiniLisp.Atom (contents?)

namespace Text

/--
Scanned from the left, with a backslash consuming the character after it, the
text meets no double quote and does not end after a lone backslash.
-/
def fitsQuotes : List Char → Bool
  | [] => true
  | ['\\'] => false
  | '\\' :: _ :: rest => fitsQuotes rest
  | '"' :: _ => false
  | _ :: rest => fitsQuotes rest

/-- A text after an opening quote in which no quote closes the string. -/
def IsOpen (body : List Char) : Prop :=
  fitsQuotes body = true ∨ fitsQuotes (body ++ ['"']) = true

/-- The steps of a scan from the left in which a backslash consumes a character. -/
@[elab_as_elim]
theorem scan_induction
    {motive : List Char → Prop}
    (text : List Char)
    (nil : motive [])
    (lone : motive ['\\'])
    (escape :
      ∀ character rest, motive rest → motive ('\\' :: character :: rest))
    (quote : ∀ rest, motive ('"' :: rest))
    (plain :
      ∀ character rest, character ≠ '\\' → character ≠ '"' →
        motive rest → motive (character :: rest)) :
    motive text := by
  fun_induction fitsQuotes text with
  | case1 => exact nil
  | case2 => exact lone
  | case3 character rest ih => exact escape character rest ih
  | case4 rest => exact quote rest
  | case5 character rest noLone noEscape noQuote ih =>
      refine plain character rest ?_ noQuote ih
      intro backslash
      cases rest with
      | nil => exact noLone backslash rfl
      | cons next rest => exact noEscape next rest backslash rfl

theorem fitsQuotes_cons_of_ne
    {character : Char}
    (noBackslash : character ≠ '\\')
    (noQuote : character ≠ '"')
    (rest : List Char) :
    fitsQuotes (character :: rest) = fitsQuotes rest := by
  rw [fitsQuotes.eq_def]
  split <;> simp_all

theorem isOpen_cons_of_ne
    {character : Char}
    (noBackslash : character ≠ '\\')
    (noQuote : character ≠ '"')
    (rest : List Char) :
    IsOpen (character :: rest) ↔ IsOpen rest := by
  unfold IsOpen
  rw [List.cons_append, fitsQuotes_cons_of_ne noBackslash noQuote,
    fitsQuotes_cons_of_ne noBackslash noQuote]

theorem splitString_cons_of_ne
    {character : Char}
    (noBackslash : character ≠ '\\')
    (noQuote : character ≠ '"')
    (rest : List Char) :
    splitString (character :: rest) =
      (character :: (splitString rest).1, (splitString rest).2) := by
  rw [splitString]
  · exact noQuote
  · intro next more backslash
    exact absurd backslash noBackslash

/-- A string is closed by a quote, or it stays open. -/
theorem exists_closing_or_isOpen (body : List Char) :
    (∃ contents rest,
      fitsQuotes contents = true ∧ body = contents ++ '"' :: rest) ∨
      IsOpen body := by
  induction body using scan_induction with
  | nil =>
      exact Or.inr (Or.inl rfl)
  | lone =>
      exact Or.inr (Or.inr rfl)
  | escape character rest ih =>
      rcases ih with ⟨contents, tail, fits, rfl⟩ | stays
      · exact Or.inl ⟨'\\' :: character :: contents, tail, fits, rfl⟩
      · exact Or.inr stays
  | quote rest =>
      exact Or.inl ⟨[], rest, rfl, rfl⟩
  | plain character rest noBackslash noQuote ih =>
      rcases ih with ⟨contents, tail, fits, rfl⟩ | stays
      · refine Or.inl ⟨character :: contents, tail, ?_, rfl⟩
        rw [fitsQuotes_cons_of_ne noBackslash noQuote]
        exact fits
      · exact Or.inr ((isOpen_cons_of_ne noBackslash noQuote rest).2 stays)

/-! ## The scan from the left -/

/-- A text that fits between quotes is cut off at the quote after it. -/
theorem splitString_append_quote
    {contents : List Char}
    (fits : fitsQuotes contents = true)
    (rest : List Char) :
    splitString (contents ++ '"' :: rest) = (contents ++ ['"'], rest) := by
  induction contents using scan_induction with
  | nil => rfl
  | lone => cases fits
  | escape character contents ih =>
      simp only [List.cons_append, splitString]
      rw [ih fits]
  | quote contents => cases fits
  | plain character contents noBackslash noQuote ih =>
      rw [fitsQuotes_cons_of_ne noBackslash noQuote] at fits
      rw [List.cons_append, splitString_cons_of_ne noBackslash noQuote, ih fits]
      rfl

/-- A string that stays open is cut off at the end of the text. -/
theorem splitString_of_isOpen
    {body : List Char}
    (stays : IsOpen body) :
    splitString body = (body, []) := by
  induction body using scan_induction with
  | nil => rfl
  | lone => rfl
  | escape character rest ih =>
      simp only [splitString]
      rw [ih stays]
  | quote rest =>
      rcases stays with fits | fits <;> cases fits
  | plain character rest noBackslash noQuote ih =>
      rw [isOpen_cons_of_ne noBackslash noQuote] at stays
      rw [splitString_cons_of_ne noBackslash noQuote, ih stays]

/-! ## The backslashes in front of the last quote -/

/-- The number of backslashes at the end of a text. -/
def trailingBackslashes (text : List Char) : Nat :=
  (text.reverse.takeWhile (· = '\\')).length

theorem trailingBackslashes_cons
    (character : Char)
    (rest : List Char) :
    trailingBackslashes (character :: rest) =
      if trailingBackslashes rest = rest.length ∧ character = '\\' then
        rest.length + 1
      else
        trailingBackslashes rest := by
  unfold trailingBackslashes
  rw [List.reverse_cons, List.takeWhile_append, List.length_reverse]
  by_cases all : (rest.reverse.takeWhile (· = '\\')).length = rest.length
  · by_cases backslash : character = '\\' <;> simp [all, backslash]
  · simp [all]

/-- A backslash and the character that it consumes keep the parity of the trailing run. -/
theorem trailingBackslashes_escape_mod_two
    (character : Char)
    (rest : List Char) :
    trailingBackslashes ('\\' :: character :: rest) % 2 =
      trailingBackslashes rest % 2 := by
  rw [trailingBackslashes_cons, trailingBackslashes_cons character rest]
  by_cases all : trailingBackslashes rest = rest.length
  · by_cases backslash : character = '\\' <;> simp [all, backslash]
    omega
  · have bound : trailingBackslashes rest ≤ rest.length := by
      calc
        trailingBackslashes rest ≤ rest.reverse.length :=
          (List.takeWhile_sublist _).length_le
        _ = rest.length := List.length_reverse
    have below : trailingBackslashes rest ≠ rest.length + 1 := by omega
    simp [all, below]

/-- A text that fits between quotes ends in an even number of backslashes. -/
theorem trailingBackslashes_mod_two_of_fits
    {contents : List Char}
    (fits : fitsQuotes contents = true) :
    trailingBackslashes contents % 2 = 0 := by
  induction contents using scan_induction with
  | nil => rfl
  | lone => cases fits
  | escape character contents ih =>
      rw [trailingBackslashes_escape_mod_two]
      exact ih fits
  | quote contents => cases fits
  | plain character contents noBackslash noQuote ih =>
      rw [fitsQuotes_cons_of_ne noBackslash noQuote] at fits
      rw [trailingBackslashes_cons, if_neg fun both => noBackslash both.2]
      exact ih fits

/-- After an even number of backslashes a quote is not consumed. -/
theorem not_isOpen_append_quote
    {contents : List Char}
    (even : trailingBackslashes contents % 2 = 0) :
    ¬ IsOpen (contents ++ ['"']) := by
  induction contents using scan_induction with
  | nil =>
      rintro (fits | fits) <;> cases fits
  | lone => cases even
  | escape character contents ih =>
      rw [trailingBackslashes_escape_mod_two] at even
      exact ih even
  | quote contents =>
      rintro (fits | fits) <;> cases fits
  | plain character contents noBackslash noQuote ih =>
      rw [trailingBackslashes_cons, if_neg fun both => noBackslash both.2] at even
      rw [List.cons_append, isOpen_cons_of_ne noBackslash noQuote]
      exact ih even

/-! ## Reading the contents -/

/-- The contents of a closed string are the text between the quotes. -/
theorem contents?_append_quote
    {contents : List Char}
    (fits : fitsQuotes contents = true) :
    contents? (contents ++ ['"']) = some contents := by
  have even := trailingBackslashes_mod_two_of_fits fits
  unfold trailingBackslashes at even
  simp [contents?, even]

/-- A string that stays open has no contents. -/
theorem contents?_of_isOpen
    {body : List Char}
    (stays : IsOpen body) :
    contents? body = none := by
  unfold contents?
  split
  · next inner reversed =>
      have closed : body = inner.reverse ++ ['"'] := by
        rw [← List.reverse_reverse body, reversed, List.reverse_cons]
      split
      · next even =>
          rw [closed] at stays
          refine absurd stays (not_isOpen_append_quote ?_)
          simpa [trailingBackslashes] using even
      · rfl
  · rfl

/-- A string without contents stays open. -/
theorem isOpen_of_contents?_eq_none
    {body : List Char}
    (noContents : contents? (splitString body).1 = none) :
    IsOpen body := by
  rcases exists_closing_or_isOpen body with ⟨inner, rest, fits, rfl⟩ | stays
  · rw [splitString_append_quote fits, contents?_append_quote fits] at noContents
    cases noContents
  · exact stays

/-- A string that stays open is closed by one quote more or by two. -/
theorem IsOpen.exists_closing
    {body : List Char}
    (stays : IsOpen body) :
    ∃ quotes contents,
      fitsQuotes contents = true ∧ body ++ quotes = contents ++ ['"'] := by
  rcases stays with fits | fits
  · exact ⟨['"'], body, fits, rfl⟩
  · exact ⟨['"', '"'], body ++ ['"'], fits, by simp⟩

end Text

end MiniLisp
