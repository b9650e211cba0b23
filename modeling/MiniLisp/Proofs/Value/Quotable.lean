import MiniLisp.Builtin.Printed
import MiniLisp.Proofs.Form.Atom
import MiniLisp.Proofs.Token.Quotation
import MiniLisp.Proofs.Value.Parts
import MiniLisp.Proofs.Value.Texts

/-!
# Texts that fit between quotes

This module shows which values have a raw text that can stand inside a string.

Texts that fit between quotes do so in a row.  An escaped text always fits
(`fitsQuotes_encode`).  The raw text of a value fits if the contents of its strings
and the names of its keywords and symbols do, at every depth
(`fitsQuotes_write_raw`): whatever else it has neither a backslash nor a quote.
-/

namespace MiniLisp

namespace Text

/-- Neither a backslash nor a double quote. -/
def isUnquoted (character : Char) : Bool :=
  character != '\\' && character != '"'

theorem fitsQuotes_append
    {first second : List Char}
    (firstFits : fitsQuotes first = true)
    (secondFits : fitsQuotes second = true) :
    fitsQuotes (first ++ second) = true := by
  induction first using scan_induction with
  | nil => exact secondFits
  | lone => cases firstFits
  | escape character rest ih => exact ih firstFits
  | quote rest => cases firstFits
  | plain character rest noBackslash noQuote ih =>
      rw [fitsQuotes_cons_of_ne noBackslash noQuote] at firstFits
      rw [List.cons_append, fitsQuotes_cons_of_ne noBackslash noQuote]
      exact ih firstFits

theorem fitsQuotes_of_all
    {text : List Char}
    (plain : text.all isUnquoted = true) :
    fitsQuotes text = true := by
  induction text with
  | nil => rfl
  | cons character rest ih =>
      rw [List.all_cons, isUnquoted, Bool.and_eq_true, Bool.and_eq_true, bne_iff_ne,
        bne_iff_ne] at plain
      rw [fitsQuotes_cons_of_ne plain.1.1 plain.1.2]
      exact ih plain.2

/-- An escaped text fits between quotes. -/
theorem fitsQuotes_encode (text : List Char) :
    fitsQuotes (Escape.encode text) = true := by
  fun_induction Escape.encode text with
  | case1 => rfl
  | case2 rest ih => exact ih
  | case3 rest ih => exact ih
  | case4 rest ih => exact ih
  | case5 character rest noBackslash noQuote noLineFeed ih =>
      rw [fitsQuotes_cons_of_ne (fun same => noBackslash same) (fun same => noQuote same)]
      exact ih

theorem fitsQuotes_spaced
    {texts : List (List Char)}
    (fit : ∀ text ∈ texts, fitsQuotes text = true) :
    fitsQuotes (Value.spaced texts) = true := by
  induction texts with
  | nil => rfl
  | cons text texts ih =>
      have rest := ih fun other member => fit other (List.mem_cons_of_mem text member)
      have here := fit text List.mem_cons_self
      cases texts with
      | nil =>
          rw [Value.spaced_singleton]
          exact here
      | cons next texts =>
          rw [Value.spaced_cons_cons]
          apply fitsQuotes_append here
          rw [fitsQuotes_cons_of_ne (by decide) (by decide)]
          exact rest

theorem isUnquoted_of_isDigit
    {digit : Char}
    (isDigit : digit.isDigit = true) :
    isUnquoted digit = true := by
  rw [isUnquoted, Bool.and_eq_true, bne_iff_ne, bne_iff_ne]
  constructor
  · rintro rfl
    cases isDigit
  · rintro rfl
    cases isDigit

theorem fitsQuotes_ofInt64 (integer : Int64) :
    fitsQuotes (Decimal.ofInt64 integer) = true := by
  obtain ⟨first, rest, equality, start, digits⟩ := Atom.exists_ofInt64_eq_cons integer
  rw [equality]
  apply fitsQuotes_of_all
  rw [List.all_cons, Bool.and_eq_true, List.all_eq_true]
  refine ⟨?_, fun digit member => isUnquoted_of_isDigit (digits digit member)⟩
  rcases start with rfl | isDigit
  · rfl
  · exact isUnquoted_of_isDigit isDigit

end Text

namespace Value

open MiniLisp.Text (fitsQuotes fitsQuotes_append fitsQuotes_of_all fitsQuotes_spaced)

/-- The contents of a string and the names of symbols and keywords fit between quotes. -/
def isQuotableHere : Value → Bool
  | string contents => fitsQuotes contents.toList
  | symbol name => fitsQuotes name.toList
  | keyword name => fitsQuotes name.toList
  | _ => true

theorem fitsQuotes_enclosed
    {opening closing : Char}
    (openingPlain : Text.isUnquoted opening = true)
    (closingPlain : Text.isUnquoted closing = true)
    {text : List Char}
    (fits : fitsQuotes text = true) :
    fitsQuotes (opening :: text ++ [closing]) = true := by
  have before : fitsQuotes [opening] = true :=
    fitsQuotes_of_all (by rw [List.all_cons, openingPlain]; rfl)
  have behind : fitsQuotes [closing] = true :=
    fitsQuotes_of_all (by rw [List.all_cons, closingPlain]; rfl)
  show fitsQuotes ([opening] ++ (text ++ [closing])) = true
  exact fitsQuotes_append before (fitsQuotes_append fits behind)

/-- All functions are written alike. -/
theorem fitsQuotes_function : fitsQuotes "#<function>".toList = true := by
  decide

/-- The raw text of a value with fitting contents and names fits between quotes. -/
theorem fitsQuotes_write_raw
    {value : Value}
    (quotable : value.everywhere isQuotableHere = true) :
    fitsQuotes (value.write .raw) = true := by
  induction value using induction_on_parts with
  | step value ih =>
      obtain ⟨here, inParts⟩ := everywhere_iff.1 quotable
      have spaced : fitsQuotes (spaced (value.parts.map (write .raw))) = true := by
        apply fitsQuotes_spaced
        intro text member
        obtain ⟨part, isPart, rfl⟩ := List.mem_map.1 member
        exact ih part isPart (inParts part isPart)
      cases value with
      | boolean truth => cases truth <;> rfl
      | number integer => exact Text.fitsQuotes_ofInt64 integer
      | string contents => exact here
      | symbol name => exact here
      | keyword name =>
          have colon : fitsQuotes [':'] = true := rfl
          exact fitsQuotes_append colon here
      | list items =>
          rw [write_list]
          exact fitsQuotes_enclosed rfl rfl spaced
      | vector items =>
          rw [write_vector]
          exact fitsQuotes_enclosed rfl rfl spaced
      | map entries =>
          rw [write_map]
          exact fitsQuotes_enclosed rfl rfl spaced
      | closure => exact fitsQuotes_function
      | native => exact fitsQuotes_function
      | _ => rfl

end Value

namespace Printed

open MiniLisp.Text (fitsQuotes)

theorem fitsQuotes_raw
    {arguments : List Value}
    (quotable : ∀ argument ∈ arguments, argument.everywhere Value.isQuotableHere = true) :
    fitsQuotes (raw arguments) = true := by
  unfold raw
  induction arguments with
  | nil => rfl
  | cons argument arguments ih =>
      rw [List.flatMap_cons]
      apply Text.fitsQuotes_append
      · exact Value.fitsQuotes_write_raw (quotable argument List.mem_cons_self)
      · exact ih fun other member => quotable other (List.mem_cons_of_mem argument member)

theorem fitsQuotes_escaped (arguments : List Value) :
    fitsQuotes (escaped arguments) = true := by
  apply Text.fitsQuotes_spaced
  intro text member
  obtain ⟨argument, -, rfl⟩ := List.mem_map.1 member
  exact Text.fitsQuotes_encode _

end Printed

end MiniLisp
