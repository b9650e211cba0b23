import MiniLisp.Proofs.Form.Spelling

/-!
# Writing a value and reading it back

This module shows that the text of a value is read back as an equal value exactly
if the value is printable, and that it is then read back as the value itself.

One direction is the spelling of printable values.  The other rests on what the
reader makes: of whatever text, it makes nothing but comments and forms that are
printable and whose maps are ordered (`legible_of_ofSource`).  A value that is
equal to a printable one is printable.
-/

namespace MiniLisp

open MiniLisp.Lexeme
open MiniLisp.Machine (IsPlain Step step run)

namespace Value

/-- A printable value whose maps are ordered. -/
structure Legible (value : Value) : Prop where
  printable : value.isPrintable = true
  ordered : value.isOrdered = true

theorem legible_iff {value : Value} :
    value.Legible ↔
      value.isPrintableHere = true ∧ value.hasAscendingEntries = true ∧
        ∀ part ∈ value.parts, part.Legible := by
  constructor
  · rintro ⟨printable, ordered⟩
    obtain ⟨here, printableParts⟩ := everywhere_iff.1 printable
    obtain ⟨ascending, orderedParts⟩ := everywhere_iff.1 ordered
    exact ⟨here, ascending, fun part member =>
      ⟨printableParts part member, orderedParts part member⟩⟩
  · rintro ⟨here, ascending, parts⟩
    constructor
    · exact everywhere_iff.2 ⟨here, fun part member => (parts part member).printable⟩
    · exact everywhere_iff.2 ⟨ascending, fun part member => (parts part member).ordered⟩

/-- A value without parts is legible if it is printable. -/
theorem legible_of_parts_eq_nil
    {value : Value}
    (here : value.isPrintableHere = true)
    (ascending : value.hasAscendingEntries = true)
    (single : value.parts = []) :
    value.Legible := by
  refine legible_iff.2 ⟨here, ascending, ?_⟩
  intro part member
  rw [single] at member
  cases member

end Value

namespace Form

/-- The collection of legible items is legible. -/
theorem legible_of_collect
    {bracket : Bracket}
    {items : List Value}
    {form : Value}
    (collects : collect bracket items = .ok form)
    (legible : ∀ item ∈ items, item.Legible) :
    form.Legible := by
  cases bracket with
  | round =>
      cases collects
      exact Value.legible_iff.2 ⟨rfl, rfl, legible⟩
  | square =>
      cases collects
      exact Value.legible_iff.2 ⟨rfl, rfl, legible⟩
  | curly =>
      rw [collect] at collects
      split at collects
      · next entries built =>
          cases collects
          refine Value.legible_iff.2 ⟨rfl, ?_, ?_⟩
          · exact decide_eq_true (Entries.ofItems?_ascending built)
          · intro part member
            exact legible part (Entries.mem_of_mem_items_ofItems? built member)
      · cases collects

end Form

namespace Atom

/-! ## Atoms of lexemes -/

theorem mem_signs_of_isMark
    {mark : Char}
    (isMark : isMark mark = true)
    (plain : IsPlain [mark]) :
    [mark] ∈ signs := by
  have marks :
      ['(', ')', '[', ']', '{', '}', '\x27', '\x60', '^', '@'].all
        (fun mark =>
          (Bracket.ofOpening? [mark]).isSome || (Bracket.ofClosing? [mark]).isSome ||
            signs.contains [mark]) = true := by
    decide
  have found := List.all_eq_true.1 marks mark (List.contains_iff_mem.1 isMark)
  rw [plain.noOpening, plain.noClosing] at found
  exact List.contains_iff_mem.1 found

/-- A word that is no keyword starts with none of the signs that no symbol starts with. -/
theorem contains_eq_false_of_word
    {first : Char}
    (word : Kind.ofFirst first = .word)
    (noColon : first ≠ ':') :
    ['~', '^', '@', ':'].contains first = false := by
  rcases Kind.ofFirst_eq_word_iff.1 word with ⟨noTilde, noMark, -, -⟩
  rw [← Bool.not_eq_true]
  intro member
  have signs :
      ['~', '^', '@', ':'].all
        (fun sign => sign == '~' || isMark sign || sign == ':') = true := by
    decide
  have found := List.all_eq_true.1 signs first (List.contains_iff_mem.1 member)
  simp only [noMark, Bool.or_eq_true, beq_iff_eq, Bool.or_false] at found
  rcases found with tilde | colon
  · exact noTilde tilde
  · exact noColon colon

theorem all_of_word
    {text rest : List Char}
    (lexeme : IsLexeme .word text rest) :
    text.all (!breaksWord ·) = true := by
  rw [List.all_eq_true]
  intro character member
  rw [lexeme.accepted character member]
  rfl

/-- A lexeme that is read as a symbol has the form of a symbol name. -/
theorem isSymbolName_of_isLexeme
    {kind : Kind}
    {text rest : List Char}
    (lexeme : IsLexeme kind text rest)
    (plain : IsPlain text)
    (notReserved : reserved? text = none)
    (noNumeral : Text.Decimal.int64? text = none)
    (noColon : text.head? ≠ some ':')
    (noQuote : text.head? ≠ some '"') :
    isSymbolName text = true := by
  rw [isSymbolName, Bool.or_eq_true]
  have accepted := lexeme.accepted
  cases kind with
  | tilde =>
      refine Or.inl ?_
      rcases accepted with rfl | rfl <;> rfl
  | mark =>
      rcases accepted with ⟨mark, isMark, rfl⟩
      exact Or.inl (List.contains_iff_mem.2 (mem_signs_of_isMark isMark plain))
  | string =>
      rcases accepted with ⟨body, rfl, -⟩
      exact absurd rfl noQuote
  | comment =>
      rcases accepted with ⟨body, rfl, -⟩
      exact absurd rfl plain.noComment
  | word =>
      refine Or.inr ?_
      have unbroken := all_of_word lexeme
      rcases lexeme.exists_cons with ⟨first, more, rfl, word⟩
      have noSign := contains_eq_false_of_word word fun colon => noColon (congrArg some colon)
      rw [isSymbolWord, unbroken, notReserved, noNumeral, noSign]
      rfl

/-- The atom of a lexeme is legible. -/
theorem legible_of_isLexeme
    {kind : Kind}
    {text rest : List Char}
    {value : Value}
    (lexeme : IsLexeme kind text rest)
    (plain : IsPlain text)
    (isAtom : ofText? text = some value) :
    value.Legible := by
  rcases ofText?_cases isAtom with
    rfl | ⟨truth, rfl⟩ | ⟨integer, rfl⟩ | ⟨name, rfl, rfl⟩ |
      ⟨body, contents, rfl, closed, rfl⟩ |
      ⟨notReserved, noNumeral, noColon, noQuote, rfl⟩
  · exact Value.legible_of_parts_eq_nil rfl rfl rfl
  · exact Value.legible_of_parts_eq_nil rfl rfl rfl
  · exact Value.legible_of_parts_eq_nil rfl rfl rfl
  · have word : kind = .word := lexeme.ofFirst_eq.symm
    subst word
    refine Value.legible_of_parts_eq_nil ?_ rfl rfl
    rw [Value.isPrintableHere, String.toList_ofList]
    exact (Bool.and_eq_true_iff.1 (all_of_word lexeme)).2
  · refine Value.legible_of_parts_eq_nil ?_ rfl rfl
    rw [Value.isPrintableHere, String.toList_ofList]
    rcases lexeme.closed_or_isOpen with ⟨inner, fits, rfl⟩ | ⟨stays, -⟩
    · rw [Text.contents?_append_quote fits] at closed
      cases closed
      exact fits
    · rw [Text.contents?_of_isOpen stays] at closed
      cases closed
  · refine Value.legible_of_parts_eq_nil ?_ rfl rfl
    rw [Value.isPrintableHere, String.toList_ofList]
    exact isSymbolName_of_isLexeme lexeme plain notReserved noNumeral noColon noQuote

end Atom

/-! ## Everything that is read is legible -/

namespace Machine

/-- All items collected so far are legible. -/
def HasLegibleItems (stack : List OpenBracket) : Prop :=
  ∀ waiting ∈ stack, ∀ item ∈ waiting.items, item.Legible

/-- What the reader may make: a comment or a legible form. -/
def IsResult (form : Value) : Prop :=
  (∃ text, form = .comment text) ∨ form.Legible

/-- A step keeps the items legible, and what it completes is a result. -/
def Keeps : Step → Prop
  | .proceed stack => HasLegibleItems stack
  | .finish form => IsResult form
  | .reject _ => True
  | .refuse _ => True

theorem keeps_supply
    {stack : List OpenBracket}
    {form : Value}
    (items : HasLegibleItems stack)
    (legible : form.Legible) :
    Keeps (supply form stack) := by
  cases stack with
  | nil =>
      exact Or.inr legible
  | cons top below =>
      intro waiting member item itemMember
      rcases List.mem_cons.1 member with rfl | later
      · rcases List.mem_append.1 itemMember with old | new
        · exact items top List.mem_cons_self item old
        · rw [List.mem_singleton.1 new]
          exact legible
      · exact items waiting (List.mem_cons_of_mem top later) item itemMember

theorem keeps_close
    {stack : List OpenBracket}
    (items : HasLegibleItems stack)
    (found : Bracket)
    (position : Position) :
    Keeps (close found position stack) := by
  cases stack with
  | nil =>
      trivial
  | cons top below =>
      rw [close]
      split
      · split
        · next form collects =>
            apply keeps_supply
            · exact fun waiting member => items waiting (List.mem_cons_of_mem top member)
            · exact Form.legible_of_collect collects (items top List.mem_cons_self)
        · trivial
      · trivial

theorem keeps_passComment
    {stack : List OpenBracket}
    (items : HasLegibleItems stack)
    (text : List Char) :
    Keeps (passComment text stack) := by
  cases stack with
  | nil =>
      exact Or.inl ⟨_, rfl⟩
  | cons top below =>
      exact items

/-- What one token of a text does to legible items. -/
theorem keeps_step
    {stack : List OpenBracket}
    {cursor : Cursor}
    {token : Token}
    (items : HasLegibleItems stack)
    (member : token ∈ cursor.tokens) :
    Keeps (step stack token) := by
  rcases step_cases stack token with
    ⟨bracket, -, made⟩ | ⟨found, -, made⟩ | ⟨-, made⟩ | ⟨form, plain, atom, made⟩ | ⟨-, made⟩
  · rw [made]
    intro waiting isWaiting
    rcases List.mem_cons.1 isWaiting with rfl | later
    · intro item itemMember
      cases itemMember
    · exact items waiting later
  · rw [made]
    exact keeps_close items found token.position
  · rw [made]
    exact keeps_passComment items token.text
  · rw [made]
    rcases Cursor.exists_isLexeme_of_mem_tokens member with ⟨kind, rest, lexeme⟩
    exact keeps_supply items (Atom.legible_of_isLexeme lexeme plain atom)
  · rw [made]
    trivial

/-- A run on tokens of a text makes a comment or a legible form. -/
theorem isResult_of_run
    {cursor : Cursor}
    {stack : List OpenBracket}
    {tokens left : List Token}
    {form : Value}
    (items : HasLegibleItems stack)
    (members : ∀ token ∈ tokens, token ∈ cursor.tokens)
    (success : run stack tokens = (.ok form, left)) :
    IsResult form := by
  induction tokens generalizing stack with
  | nil =>
      cases success
  | cons token rest ih =>
      have kept := keeps_step items (members token List.mem_cons_self)
      rw [run] at success
      cases made : step stack token with
      | proceed after =>
          rw [made] at success kept
          exact ih kept (fun other member => members other (List.mem_cons_of_mem token member))
            success
      | finish result =>
          rw [made] at success kept
          cases success
          exact kept
      | reject error =>
          rw [made] at success
          cases success
      | refuse error =>
          rw [made] at success
          cases success

end Machine

namespace Form

theorem legible_of_ofSource
    {source : String}
    {form : Value}
    (success : ofSource source = .ok form) :
    (∃ text, form = .comment text) ∨ form.Legible := by
  rw [ofSource_eq_run] at success
  have noItems : Machine.HasLegibleItems [] := by
    intro waiting member
    cases member
  exact Machine.isResult_of_run noItems (fun token member => member) (Prod.ext success rfl)

/-! ## The round trip -/

/-- The text of a printable value is read back as the value. -/
theorem ofSource_readable
    {value : Value}
    (printable : value.isPrintable = true)
    (ordered : value.isOrdered = true) :
    ofSource value.readable = .ok value := by
  have nothing : Breaking [] := by
    intro next isNext
    cases isNext
  obtain ⟨tokens, after, same, runs⟩ :=
    spells_of_isPrintable printable ordered Position.start [] nothing
  have ended : (⟨after, []⟩ : Cursor).next? = none := rfl
  have all : (Cursor.start value.readable.toList).tokens = tokens := by
    rw [Value.readable, String.toList_ofList, Cursor.start]
    rw [List.append_nil, Cursor.tokens_of_next?_eq_none ended, List.append_nil] at same
    exact same
  have whole := runs [] []
  rw [List.append_nil] at whole
  rw [ofSource_eq_run, all, whole]
  rfl

/-- A value whose text is read back as an equal value is printable. -/
theorem isPrintable_of_ofSource_readable
    {value reread : Value}
    (success : ofSource value.readable = .ok reread)
    (same : (reread == value) = true) :
    value.isPrintable = true := by
  rcases legible_of_ofSource success with ⟨text, rfl⟩ | legible
  · have alike := Value.rank_eq_of_equal same
    cases value with
    | comment other =>
        have ended : (Cursor.start (Value.comment other).readable.toList).next? = none := rfl
        rw [ofSource_eq_run, Cursor.tokens_of_next?_eq_none ended] at success
        cases success
    | _ =>
        cases alike
  · exact Value.isPrintable_of_equal same legible.printable

/--
A value whose maps are ordered is read back from its text, up to equality, exactly
if it is printable, and a printable value is read back as it is.  Everything that
is read from a text but a comment is printable, and its maps are ordered.
-/
theorem readable_roundtrip :
    (∀ value : Value,
      value.isOrdered = true →
        ((∃ reread, ofSource value.readable = .ok reread ∧ (reread == value) = true) ↔
            value.isPrintable = true) ∧
          (value.isPrintable = true → ofSource value.readable = .ok value)) ∧
      (∀ source form,
        ofSource source = .ok form →
          (∃ text, form = .comment text) ∨
            (form.isPrintable = true ∧ form.isOrdered = true)) := by
  constructor
  · intro value ordered
    have back : value.isPrintable = true → ofSource value.readable = .ok value :=
      fun printable => ofSource_readable printable ordered
    refine ⟨⟨?_, ?_⟩, back⟩
    · rintro ⟨reread, success, same⟩
      exact isPrintable_of_ofSource_readable success same
    · intro printable
      exact ⟨value, back printable, BEq.refl value⟩
  · intro source form success
    rcases legible_of_ofSource success with comment | ⟨printable, ordered⟩
    · exact Or.inl comment
    · exact Or.inr ⟨printable, ordered⟩

/-- A map keyed by a list, with a sign, an empty keyword and quotes that backslashes hide. -/
def nestedExample : Value :=
  .list
    [.map
      [(.keyword "", .vector [.symbol "~@", .number (-7)]),
        (.list [.symbol "a"], .string "\\\"\n")]]

theorem readable_roundtrip_of_nested :
    nestedExample.isOrdered = true ∧
      ofSource nestedExample.readable = .ok nestedExample ∧
        ((∃ text, nestedExample = .comment text) ∨
          (nestedExample.isPrintable = true ∧ nestedExample.isOrdered = true)) := by
  have ordered : nestedExample.isOrdered = true := by decide
  have printable : nestedExample.isPrintable = true := by decide
  have back := (readable_roundtrip.1 nestedExample ordered).2 printable
  exact ⟨ordered, back, readable_roundtrip.2 nestedExample.readable nestedExample back⟩

end Form

end MiniLisp
