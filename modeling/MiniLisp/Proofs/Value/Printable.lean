import MiniLisp.Proofs.Token.Quotation
import MiniLisp.Proofs.Value.TotalOrder

/-!
# Printable values

This module supplies the values whose text can be read back.  Functions and
comments have no text of their own.  The contents of a string must fit between
quotes, the name of a keyword must be free of characters at which words end, and
the name of a symbol must be a lexeme that is read as a symbol.

Equality does not tell a list from a vector, and neither does the condition, so
of two equal values both are printable or neither is (`isPrintable_of_equal`).
-/

namespace MiniLisp

namespace Atom

open MiniLisp.Lexeme (breaksWord)

/-- The lexemes that are read as symbols although they start like no word. -/
def signs : List (List Char) :=
  [['\x27'], ['\x60'], ['~'], ['~', '@'], ['^'], ['@']]

/-- The words that are read as symbols. -/
def isSymbolWord : List Char → Bool
  | [] => false
  | first :: rest =>
    (first :: rest).all (!breaksWord ·) && !(['~', '^', '@', ':'].contains first) &&
      (reserved? (first :: rest)).isNone &&
      (Text.Decimal.int64? (first :: rest)).isNone

/-- The texts that are read as symbols. -/
def isSymbolName (name : List Char) : Bool :=
  signs.contains name || isSymbolWord name

end Atom

namespace Value

/-- The condition on a value itself, whatever its parts are. -/
def isPrintableHere : Value → Bool
  | string contents => Text.fitsQuotes contents.toList
  | symbol name => Atom.isSymbolName name.toList
  | keyword name => name.toList.all (!Lexeme.breaksWord ·)
  | closure .. => false
  | native .. => false
  | comment _ => false
  | _ => true

/-- The text of the value can be read back. -/
def isPrintable (value : Value) : Bool :=
  value.everywhere isPrintableHere

/-- A printable value has no functions. -/
theorem noFunction_of_isPrintable
    {value : Value}
    (printable : value.isPrintable = true) :
    value.everywhere (!·.isFunction) = true := by
  apply everywhere_mono ?_ printable
  intro value here
  cases value with
  | closure => cases here
  | native => cases here
  | _ => rfl

/-! ## Equal values -/

theorem parts_of_not_collection
    {value : Value}
    (single : value.isCollection = false) :
    value.parts = [] := by
  cases value <;> first | rfl | cases single

theorem rank_eq_of_equal
    {left right : Value}
    (equal : left.equal right = true) :
    left.rank = right.rank := by
  by_cases sameRank : left.rank = right.rank
  · exact sameRank
  · rw [equal_of_rank_ne sameRank] at equal
    cases equal

theorem exists_equal_of_mem
    {lefts rights : List Value}
    (equal : equalItems lefts rights = true)
    {right : Value}
    (member : right ∈ rights) :
    ∃ left ∈ lefts, left.equal right = true := by
  induction rights generalizing lefts with
  | nil => cases member
  | cons other rights ih =>
      cases lefts with
      | nil => cases equal
      | cons left lefts =>
          rw [equalItems, Bool.and_eq_true] at equal
          rcases List.mem_cons.1 member with rfl | later
          · exact ⟨left, List.mem_cons_self, equal.1⟩
          · obtain ⟨found, foundMember, same⟩ := ih equal.2 later
            exact ⟨found, List.mem_cons_of_mem left foundMember, same⟩

/-- A test that equal values pass alike holds everywhere in equal values alike. -/
theorem everywhere_of_equal
    {test : Value → Bool}
    (respects :
      ∀ left right : Value,
        left.equal right = true → test left = true → test right = true)
    {left right : Value}
    (equal : left.equal right = true)
    (holds : left.everywhere test = true) :
    right.everywhere test = true := by
  induction right using induction_on_parts generalizing left with
  | step right ih =>
      obtain ⟨here, inParts⟩ := everywhere_iff.1 holds
      refine everywhere_iff.2 ⟨respects left right equal here, ?_⟩
      intro part member
      have sameRank := rank_eq_of_equal equal
      cases collection : right.isCollection with
      | false =>
          rw [parts_of_not_collection collection] at member
          cases member
      | true =>
          have leftCollection := isCollection_of_rank_eq collection sameRank.symm
          rw [equal_of_collections leftCollection sameRank] at equal
          obtain ⟨other, otherMember, same⟩ := exists_equal_of_mem equal member
          exact ih part member same (inParts other otherMember)

theorem isPrintableHere_of_equal
    (left right : Value)
    (equal : left.equal right = true)
    (holds : left.isPrintableHere = true) :
    right.isPrintableHere = true := by
  -- Equal values have the same rank, which leaves few kinds for the left one.
  have sameRank := rank_eq_of_equal equal
  cases right with
  | string contents =>
      cases left with
      | string other =>
          rw [Value.equal, beq_iff_eq] at equal
          rwa [equal] at holds
      | _ => cases sameRank
  | symbol name =>
      cases left with
      | symbol other =>
          rw [Value.equal, beq_iff_eq] at equal
          rwa [equal] at holds
      | _ => cases sameRank
  | keyword name =>
      cases left with
      | keyword other =>
          rw [Value.equal, beq_iff_eq] at equal
          rwa [equal] at holds
      | _ => cases sameRank
  | closure =>
      cases left with
      | closure => cases holds
      | _ => cases sameRank
  | native =>
      cases left with
      | native => cases holds
      | _ => cases sameRank
  | comment =>
      cases left with
      | comment => cases holds
      | _ => cases sameRank
  | _ => rfl

/-- A value that is equal to a printable one is printable. -/
theorem isPrintable_of_equal
    {left right : Value}
    (equal : left.equal right = true)
    (printable : left.isPrintable = true) :
    right.isPrintable = true :=
  everywhere_of_equal isPrintableHere_of_equal equal printable

end Value

end MiniLisp
