import MiniLisp.Proofs.Form.Machine
import MiniLisp.Proofs.Value.AscendingEntries
import MiniLisp.Proofs.Value.Printable
import MiniLisp.Value.Printer
import MiniLisp.Proofs.Value.Texts

/-!
# The spelling of printable values

This module shows that the text of a printable value is read back as the value.

The text of a value that is no collection is one lexeme, and the atom of this
lexeme is the value (`IsAtom`).  The text of a collection is a bracket, the texts
of its parts with a space between neighbours, and the closing bracket, whatever
the kind of collection.  So a value spells itself if its parts do
(`spells_of_isPrintable`), in front of any text that breaks words and with any
brackets open around it.
-/

namespace MiniLisp

open MiniLisp.Lexeme
open MiniLisp.Machine (IsPlain run deliver)

namespace Lexeme

/-! ## Words and strings as lexemes -/

theorem breaksWord_of_isDigit
    {character : Char}
    (digit : character.isDigit = true) :
    breaksWord character = false := by
  have bounds : 48 ≤ character.toNat ∧ character.toNat ≤ 57 := by
    simpa [Char.isDigit, UInt32.le_iff_toNat_le] using digit
  have notBlank : Text.isBlank character = false := by
    simp only [Text.isBlank, Text.blankRanges, List.any_cons, List.any_nil]
    simp
    omega
  have others :
      ['(', ')', '[', ']', '{', '}', '\x27', '"', '\x60', ',', ';'].all
        (!Char.isDigit ·) = true := by
    decide
  rw [breaksWord, notBlank, Bool.false_or, ← Bool.not_eq_true]
  intro member
  have noDigit := List.all_eq_true.1 others character (List.contains_iff_mem.1 member)
  rw [digit] at noDigit
  cases noDigit

/-- A text free of characters at which words end, that starts with no sign of its own. -/
structure IsWord (text : List Char) : Prop where
  nonempty : text ≠ []
  unbroken : text.all (!breaksWord ·) = true
  noTilde : text.head? ≠ some '~'
  noCaret : text.head? ≠ some '^'
  noAt : text.head? ≠ some '@'

theorem IsWord.breaksWord_eq_false
    {text : List Char}
    (word : IsWord text)
    {character : Char}
    (member : character ∈ text) :
    breaksWord character = false := by
  have unbroken := List.all_eq_true.1 word.unbroken character member
  rwa [Bool.not_eq_true'] at unbroken

theorem IsWord.head?_ne
    {text : List Char}
    (word : IsWord text)
    {first : Char}
    (breaks : breaksWord first = true) :
    text.head? ≠ some first := by
  intro isFirst
  obtain ⟨rest, rfl⟩ := List.head?_eq_some_iff.1 isFirst
  rw [word.breaksWord_eq_false List.mem_cons_self] at breaks
  cases breaks

/-- A word is one lexeme. -/
theorem IsWord.isLexeme
    {text : List Char}
    (word : IsWord text) :
    IsLexeme .word text [] where
  starts := by
    cases text with
    | nil => exact absurd rfl word.nonempty
    | cons first rest =>
        have noMark : isMark first = false := by
          rw [← Bool.not_eq_true]
          intro mark
          rcases breaksWord_of_isMark mark with rfl | rfl | breaks
          · exact word.noCaret rfl
          · exact word.noAt rfl
          · exact word.head?_ne breaks rfl
        have isFirst : ∀ other : Char, (first :: rest).head? ≠ some other → first ≠ other := by
          rintro other notFirst rfl
          exact notFirst rfl
        refine congrArg some (Kind.ofFirst_eq_word_iff.2 ⟨?_, noMark, ?_, ?_⟩)
        · exact isFirst '~' word.noTilde
        · exact isFirst '"' (word.head?_ne (by decide))
        · exact isFirst ';' (word.head?_ne (by decide))
  accepted := fun _ member => word.breaksWord_eq_false member
  longest := fun _ isPrefix _ => List.prefix_nil.1 isPrefix

theorem IsWord.standalone
    {text : List Char}
    (word : IsWord text) :
    Standalone text where
  whole := word.isLexeme.exists_split
  noComment := word.head?_ne (by decide)
  closed := by
    rintro body rfl
    exact absurd rfl (word.head?_ne (by decide))

theorem IsWord.isPlain
    {text : List Char}
    (word : IsWord text) :
    IsPlain text where
  noOpening := by
    cases opens : Bracket.ofOpening? text with
    | none => rfl
    | some bracket =>
        have single := Bracket.ofOpening?_eq_some_iff.1 opens
        cases bracket <;> exact absurd (congrArg List.head? single) (word.head?_ne (by decide))
  noClosing := by
    cases closes : Bracket.ofClosing? text with
    | none => rfl
    | some bracket =>
        have single := Bracket.ofClosing?_eq_some_iff.1 closes
        cases bracket <;> exact absurd (congrArg List.head? single) (word.head?_ne (by decide))
  noComment := word.head?_ne (by decide)

theorem standalone_string
    {contents : List Char}
    (fits : Text.fitsQuotes contents = true) :
    Standalone ('"' :: contents ++ ['"']) where
  whole := by
    refine ⟨'"', contents ++ ['"'], rfl, by decide, ?_⟩
    rw [split_quote, Text.splitString_append_quote fits]
    rfl
  noComment := by
    rintro equality
    cases equality
  closed := by
    intro body equality stays
    have same : contents ++ ['"'] = body := (List.cons.inj equality).2
    rw [← same] at stays
    have closed := Text.contents?_append_quote fits
    rw [Text.contents?_of_isOpen stays] at closed
    cases closed

theorem standalone_tilde : Standalone ['~'] where
  whole := ⟨'~', [], rfl, by decide, rfl⟩
  noComment := by decide
  closed := by
    rintro body equality
    cases equality

theorem standalone_tilde_at : Standalone ['~', '@'] where
  whole := ⟨'~', ['@'], rfl, by decide, rfl⟩
  noComment := by decide
  closed := by
    rintro body equality
    cases equality

end Lexeme

/-! ## Atoms -/

/-- A text that is one lexeme, whose atom is the value. -/
structure IsAtom (text : List Char) (value : Value) : Prop where
  standalone : Standalone text
  plain : IsPlain text
  atom : Atom.ofText? text = some value

namespace IsAtom

theorem word
    {text : List Char}
    {value : Value}
    (word : IsWord text)
    (atom : Atom.ofText? text = some value) :
    IsAtom text value :=
  ⟨word.standalone, word.isPlain, atom⟩

/-- The token of an atom delivers its value to the innermost open bracket. -/
theorem run_cons
    {text : List Char}
    {value : Value}
    (isAtom : IsAtom text value)
    (stack : List OpenBracket)
    (position : Position)
    (rest : List Token) :
    run stack (⟨text, position⟩ :: rest) = deliver value stack rest := by
  apply Machine.run_of_supply
  rw [Machine.step_plain stack isAtom.plain, isAtom.atom]

theorem nil : IsAtom ['n', 'i', 'l'] .nil :=
  word ⟨by decide, by decide, by decide, by decide, by decide⟩ rfl

theorem boolean (truth : Bool) :
    IsAtom (Value.write .readable (.boolean truth)) (.boolean truth) := by
  cases truth with
  | false =>
      exact word ⟨by decide, by decide, by decide, by decide, by decide⟩ rfl
  | true =>
      exact word ⟨by decide, by decide, by decide, by decide, by decide⟩ rfl

theorem number (integer : Int64) :
    IsAtom (Text.Decimal.ofInt64 integer) (.number integer) := by
  refine word ?_ (Atom.ofText?_ofInt64 integer)
  obtain ⟨first, rest, equality, start, digits⟩ := Atom.exists_ofInt64_eq_cons integer
  rw [equality]
  have noSign
      (sign : Char)
      (noMinus : sign ≠ '-')
      (noDigit : sign.isDigit = false) :
      (first :: rest).head? ≠ some sign := by
    intro isFirst
    cases isFirst
    rcases start with minus | digit
    · exact noMinus minus
    · rw [noDigit] at digit
      cases digit
  refine ⟨List.cons_ne_nil first rest, ?_, ?_, ?_, ?_⟩
  · rw [List.all_eq_true]
    intro character member
    rcases List.mem_cons.1 member with rfl | later
    · rcases start with rfl | digit
      · decide
      · rw [breaksWord_of_isDigit digit]
        rfl
    · rw [breaksWord_of_isDigit (digits character later)]
      rfl
  · exact noSign '~' (by decide) (by decide)
  · exact noSign '^' (by decide) (by decide)
  · exact noSign '@' (by decide) (by decide)

theorem string
    {contents : String}
    (fits : Text.fitsQuotes contents.toList = true) :
    IsAtom ('"' :: contents.toList ++ ['"']) (.string contents) where
  standalone := standalone_string fits
  plain := ⟨rfl, rfl, by simp⟩
  atom := by
    show Atom.ofText? ('"' :: (contents.toList ++ ['"'])) = some (.string contents)
    rw [Atom.ofText?_quote, Text.contents?_append_quote fits]
    simp

theorem keyword
    {name : String}
    (unbroken : name.toList.all (!breaksWord ·) = true) :
    IsAtom (':' :: name.toList) (.keyword name) := by
  have atom : Atom.ofText? (':' :: name.toList) = some (.keyword name) := by
    rw [Atom.ofText?_colon, String.ofList_toList]
  refine word ⟨List.cons_ne_nil _ _, ?_, by simp, by simp, by simp⟩ atom
  rw [List.all_cons, unbroken]
  rfl

/-- The signs are lexemes although they are no words. -/
theorem sign
    {name : List Char}
    (member : name ∈ Atom.signs) :
    IsAtom name (.symbol (String.ofList name)) := by
  simp only [Atom.signs, List.mem_cons, List.not_mem_nil, or_false] at member
  rcases member with rfl | rfl | rfl | rfl | rfl | rfl
  · exact ⟨standalone_mark (by decide), ⟨rfl, rfl, by decide⟩, rfl⟩
  · exact ⟨standalone_mark (by decide), ⟨rfl, rfl, by decide⟩, rfl⟩
  · exact ⟨standalone_tilde, ⟨rfl, rfl, by decide⟩, rfl⟩
  · exact ⟨standalone_tilde_at, ⟨rfl, rfl, by decide⟩, rfl⟩
  · exact ⟨standalone_mark (by decide), ⟨rfl, rfl, by decide⟩, rfl⟩
  · exact ⟨standalone_mark (by decide), ⟨rfl, rfl, by decide⟩, rfl⟩

theorem symbol
    {name : String}
    (readable : Atom.isSymbolName name.toList = true) :
    IsAtom name.toList (.symbol name) := by
  rw [Atom.isSymbolName, Bool.or_eq_true] at readable
  rcases readable with isSign | isWord
  · have sign := IsAtom.sign (List.contains_iff_mem.1 isSign)
    rwa [String.ofList_toList] at sign
  · cases equality : name.toList with
    | nil =>
        rw [equality] at isWord
        cases isWord
    | cons first rest =>
        rw [equality, Atom.isSymbolWord] at isWord
        simp only [Bool.and_eq_true, Option.isNone_iff_eq_none] at isWord
        obtain ⟨⟨⟨unbroken, noSign⟩, notReserved⟩, noNumeral⟩ := isWord
        have isWord : IsWord (first :: rest) := by
          refine ⟨List.cons_ne_nil first rest, unbroken, ?_, ?_, ?_⟩
          all_goals
            intro isFirst
            cases isFirst
            simp at noSign
        have atom : Atom.ofText? (first :: rest) = some (.symbol name) := by
          rw [Atom.ofText?_symbol notReserved noNumeral ?_ (isWord.head?_ne (by decide)),
            ← equality, String.ofList_toList]
          rintro colon
          cases colon
          simp at noSign
        exact word isWord atom

end IsAtom

/-! ## Texts in front of more text -/

/--
In front of any text that breaks words, the tokens of the text deliver the value,
whatever brackets are open around it.
-/
def Spells (text : List Char) (value : Value) : Prop :=
  ∀ position tail,
    Breaking tail →
      ∃ tokens after,
        (⟨position, text ++ tail⟩ : Cursor).tokens =
            tokens ++ (⟨after, tail⟩ : Cursor).tokens ∧
          ∀ stack rest, run stack (tokens ++ rest) = deliver value stack rest

theorem IsAtom.spells
    {text : List Char}
    {value : Value}
    (isAtom : IsAtom text value) :
    Spells text value := by
  intro position tail breaking
  have settled := isAtom.standalone.settledBy breaking
  refine ⟨[⟨text, position⟩], position.advance text, ?_, ?_⟩
  · exact isAtom.standalone.tokens_append settled position
  · intro stack rest
    exact isAtom.run_cons stack position rest

/-- The tokens of texts with spaces between them supply the values one after the other. -/
theorem tokens_spaced
    {values : List Value}
    (spells : ∀ value ∈ values, Spells (value.write .readable) value)
    (position : Position)
    {tail : List Char}
    (breaking : Breaking tail) :
    ∃ tokens after,
      (⟨position, Value.spaced (values.map (Value.write .readable)) ++ tail⟩ : Cursor).tokens =
          tokens ++ (⟨after, tail⟩ : Cursor).tokens ∧
        ∀ bracket opened items below rest,
          run (⟨bracket, opened, items⟩ :: below) (tokens ++ rest) =
            run (⟨bracket, opened, items ++ values⟩ :: below) rest := by
  induction values generalizing position with
  | nil =>
      refine ⟨[], position, rfl, ?_⟩
      intro bracket opened items below rest
      rw [List.append_nil, List.nil_append]
  | cons value values ih =>
      have first := spells value List.mem_cons_self
      have others : ∀ other ∈ values, Spells (other.write .readable) other :=
        fun other member => spells other (List.mem_cons_of_mem value member)
      cases values with
      | nil =>
          obtain ⟨tokens, after, same, runs⟩ := first position tail breaking
          refine ⟨tokens, after, ?_, ?_⟩
          · rw [List.map_singleton, Value.spaced_singleton, same]
          · intro bracket opened items below rest
            rw [runs]
            rfl
      | cons next values =>
          have space : ∀ rest, Breaking (' ' :: rest) := by
            intro rest character isFirst
            cases isFirst
            decide
          obtain ⟨tokens, between, same, runs⟩ := first position
            (' ' :: (Value.spaced ((next :: values).map (Value.write .readable)) ++ tail))
            (space _)
          obtain ⟨more, after, sameMore, runsMore⟩ := ih others (between.step ' ')
          refine ⟨tokens ++ more, after, ?_, ?_⟩
          · have split :
                Value.spaced ((value :: next :: values).map (Value.write .readable)) ++ tail =
                  value.write .readable ++
                    ' ' :: (Value.spaced ((next :: values).map (Value.write .readable)) ++
                      tail) := by
              rw [List.map_cons, List.map_cons, Value.spaced_cons_cons, List.append_assoc]
              rfl
            rw [split, same, Cursor.tokens_cons_separator (by decide), sameMore,
              List.append_assoc]
          · intro bracket opened items below rest
            rw [List.append_assoc, runs]
            show run (⟨bracket, opened, items ++ [value]⟩ :: below) (more ++ rest) = _
            rw [runsMore, List.append_assoc, List.singleton_append]

/-- A collection spells itself if its parts do. -/
theorem spells_collection
    {bracket : Bracket}
    {values : List Value}
    {value : Value}
    (collects : Form.collect bracket values = .ok value)
    (spells : ∀ part ∈ values, Spells (part.write .readable) part) :
    Spells
      (bracket.opening :: Value.spaced (values.map (Value.write .readable)) ++
        [bracket.closing])
      value := by
  intro position tail breaking
  have opening : isMark bracket.opening = true := by cases bracket <;> decide
  have closing : isMark bracket.closing = true := by cases bracket <;> decide
  have closes : Breaking (bracket.closing :: tail) := by
    intro character isFirst
    cases isFirst
    cases bracket <;> decide
  obtain ⟨tokens, here, same, runs⟩ :=
    tokens_spaced spells (position.advance [bracket.opening]) closes
  refine ⟨⟨[bracket.opening], position⟩ :: (tokens ++ [⟨[bracket.closing], here⟩]),
    here.advance [bracket.closing], ?_, ?_⟩
  · have first := (standalone_mark opening).tokens_append
      (Or.inl ⟨bracket.opening, rfl, opening⟩ :
        SettledBy [bracket.opening]
          (Value.spaced (values.map (Value.write .readable)) ++ bracket.closing :: tail))
      position
    have last := (standalone_mark closing).tokens_append
      (Or.inl ⟨bracket.closing, rfl, closing⟩ : SettledBy [bracket.closing] tail) here
    rw [List.singleton_append] at first last
    rw [List.cons_append, List.cons_append, List.append_assoc, List.singleton_append, first,
      same, last]
    simp
  · intro stack rest
    have opens : Bracket.ofOpening? [bracket.opening] = some bracket :=
      Bracket.ofOpening?_eq_some_iff.2 rfl
    rw [List.cons_append, run, Machine.step_opening opens]
    show run (⟨bracket, position, []⟩ :: stack) (tokens ++ [_] ++ rest) = _
    rw [List.append_assoc, runs, List.nil_append, List.singleton_append]
    exact Machine.run_closing collects position stack here rest

/-! ## Printable values -/

/-- A collection is written as its parts between brackets that collect them again. -/
theorem exists_bracket
    {value : Value}
    (collection : value.isCollection = true)
    (ascending : value.hasAscendingEntries = true) :
    ∃ bracket : Bracket,
      value.write .readable =
          bracket.opening :: Value.spaced (value.parts.map (Value.write .readable)) ++
            [bracket.closing] ∧
        Form.collect bracket value.parts = .ok value := by
  cases value with
  | list items =>
      exact ⟨.round, Value.write_list .readable items, rfl⟩
  | vector items =>
      exact ⟨.square, Value.write_vector .readable items, rfl⟩
  | map entries =>
      have built := Entries.ofItems?_items (of_decide_eq_true ascending)
      refine ⟨.curly, Value.write_map .readable entries, ?_⟩
      rw [Value.parts_map, Form.collect, built]
  | _ =>
      cases collection

/-- A printable value that is no collection is written as an atom. -/
theorem isAtom_write
    {value : Value}
    (single : value.isCollection = false)
    (printable : value.isPrintableHere = true) :
    IsAtom (value.write .readable) value := by
  cases value with
  | nil => exact .nil
  | boolean truth => exact .boolean truth
  | number integer => exact .number integer
  | string contents => exact .string printable
  | symbol name => exact .symbol printable
  | keyword name => exact .keyword printable
  | list items => cases single
  | vector items => cases single
  | map entries => cases single
  | closure => cases printable
  | native => cases printable
  | comment => cases printable

/-- A printable value whose maps are ordered spells itself. -/
theorem spells_of_isPrintable
    {value : Value}
    (printable : value.isPrintable = true)
    (ordered : value.isOrdered = true) :
    Spells (value.write .readable) value := by
  induction value using Value.induction_on_parts with
  | step value ih =>
      obtain ⟨here, inParts⟩ := Value.everywhere_iff.1 printable
      obtain ⟨ascending, orderedParts⟩ := Value.everywhere_iff.1 ordered
      cases collection : value.isCollection with
      | false =>
          exact (isAtom_write collection here).spells
      | true =>
          obtain ⟨bracket, written, collects⟩ := exists_bracket collection ascending
          rw [written]
          apply spells_collection collects
          intro part member
          exact ih part member (inParts part member) (orderedParts part member)

end MiniLisp
