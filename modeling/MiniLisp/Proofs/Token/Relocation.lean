import MiniLisp.Proofs.Token.Extension
import Mathlib.Data.List.Forall2

/-!
# Tokens of a text that starts elsewhere

This module shows what becomes of the tokens of a text when the text starts at
another position.  Their texts are the same (`Cursor.text_tokens_congr`), and if the
text starts some lines further down, in the same column, then so does every token
(`Cursor.tokens_moveDown`).

The position behind a text comes from counting its line feeds and the characters behind
the last of them (`Position.advance_behind`).  So text behind a line feed starts in the
first column, as far down as there are line feeds in front of it
(`Position.advance_start_newline`).
-/

namespace MiniLisp

namespace Position

/-- The position some lines further down. -/
def moveDown
    (lines : Nat)
    (position : Position) :
    Position :=
  ⟨position.line + lines, position.column⟩

theorem step_moveDown
    (lines : Nat)
    (position : Position)
    (character : Char) :
    (position.moveDown lines).step character = (position.step character).moveDown lines := by
  unfold step
  split
  · show (⟨position.line + lines + 1, 1⟩ : Position) = ⟨position.line + 1 + lines, 1⟩
    rw [Nat.add_right_comm]
  · rfl

/--
The position behind a text from its beginning: one line more than the text has line feeds,
and one column more than it has characters behind the last of them.
-/
def behind (text : List Char) : Position :=
  ⟨1 + text.count '\n', 1 + (text.reverse.takeWhile (· ≠ '\n')).length⟩

theorem behind_concat
    (text : List Char)
    (character : Char) :
    behind (text ++ [character]) = (behind text).step character := by
  unfold behind step
  by_cases newline : character = '\n'
  · simp [newline, Nat.add_assoc]
  · simp [newline, Nat.add_comm]

/-- Going on from character to character comes to the position that counting gives. -/
theorem advance_behind (passed text : List Char) :
    (behind passed).advance text = behind (passed ++ text) := by
  induction text generalizing passed with
  | nil => rw [List.append_nil, advance_nil]
  | cons character text ih =>
      rw [advance_cons, ← behind_concat, ih, List.append_assoc, List.singleton_append]

/-- Behind a line feed, a text starts like at the beginning, but further down. -/
theorem advance_start_newline (text : List Char) :
    start.advance (text ++ ['\n']) = start.moveDown (text.count '\n' + 1) := by
  calc
    start.advance (text ++ ['\n']) = behind (text ++ ['\n']) := advance_behind [] _
    _ = (behind text).step '\n' := behind_concat text '\n'
    _ = start.moveDown (text.count '\n' + 1) := by
      show (⟨1 + text.count '\n' + 1, 1⟩ : Position) = ⟨1 + (text.count '\n' + 1), 1⟩
      rw [Nat.add_assoc]

end Position

/-- The token at another position. -/
def Token.relocate
    (move : Position → Position)
    (token : Token) :
    Token :=
  ⟨token.text, move token.position⟩

namespace Cursor

/--
From two positions with the same text behind them, the same texts are found at
positions that are related, if the relation passes from character to character.
-/
theorem forall₂_tokens
    (related : Position → Position → Prop)
    (steps :
      ∀ position other character,
        related position other → related (position.step character) (other.step character))
    {cursor other : Cursor}
    (sameRest : cursor.rest = other.rest)
    (start : related cursor.position other.position) :
    List.Forall₂
      (fun token token' => token.text = token'.text ∧ related token.position token'.position)
      cursor.tokens other.tokens := by
  have advances : ∀ (text : List Char) (position other : Position),
      related position other → related (position.advance text) (other.advance text) := by
    intro text
    induction text with
    | nil => exact fun _ _ holds => holds
    | cons character text ih => exact fun _ _ holds => ih _ _ (steps _ _ character holds)
  have skipped :
      related cursor.skipSeparators.position other.skipSeparators.position := by
    show related (cursor.position.advance _) (other.position.advance _)
    rw [sameRest]
    exact advances _ _ _ start
  have sameSkipped : cursor.skipSeparators.rest = other.skipSeparators.rest := by
    rw [skipSeparators, skipSeparators, sameRest]
  fun_induction trace cursor generalizing other with
  | case1 cursor ended =>
      have endedToo : other.next? = none := by
        rw [next?_eq_none_iff, ← sameSkipped]
        exact next?_eq_none_iff.1 ended
      rw [tokens_of_next?_eq_none ended, tokens_of_next?_eq_none endedToo]
      exact .nil
  | case2 cursor token after found ih =>
      rcases next?_eq_some_iff.1 found with ⟨first, rest, whole, rfl, rfl⟩
      have foundToo :=
        next?_eq_some_iff.2 ⟨first, rest, sameSkipped.symm.trans whole, rfl, rfl⟩
      rw [tokens_of_next? found, tokens_of_next? foundToo]
      have behind := advances (Lexeme.split first rest).1 _ _ skipped
      refine .cons ⟨rfl, skipped⟩ (ih rfl behind ?_ rfl)
      exact advances _ _ _ behind

/-- The texts of tokens do not depend on where a text starts. -/
theorem text_tokens_congr
    {cursor other : Cursor}
    (sameRest : cursor.rest = other.rest) :
    cursor.tokens.map Token.text = other.tokens.map Token.text := by
  have related :=
    forall₂_tokens (fun _ _ => True) (fun _ _ _ _ => trivial) sameRest trivial
  rw [← List.forall₂_eq_eq_eq, List.forall₂_map_left_iff, List.forall₂_map_right_iff]
  exact related.imp fun _ _ same => same.1

/-- A text that starts further down has its tokens further down. -/
theorem tokens_moveDown
    (lines : Nat)
    (position : Position)
    (rest : List Char) :
    (⟨position.moveDown lines, rest⟩ : Cursor).tokens =
      (⟨position, rest⟩ : Cursor).tokens.map (Token.relocate (Position.moveDown lines)) := by
  have sameRest :
      (⟨position.moveDown lines, rest⟩ : Cursor).rest = (⟨position, rest⟩ : Cursor).rest := rfl
  have related :=
    forall₂_tokens (fun position other => position = other.moveDown lines)
      (fun _ other character same => by rw [same, other.step_moveDown]) sameRest rfl
  rw [← List.forall₂_eq_eq_eq, List.forall₂_map_right_iff]
  refine related.imp fun token other same => ?_
  rcases same with ⟨sameText, samePosition⟩
  rw [Token.relocate, ← sameText, ← samePosition]

end Cursor

end MiniLisp
