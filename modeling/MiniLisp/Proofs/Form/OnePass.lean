import MiniLisp.Proofs.Form.Machine

/-!
# Reading a form in one pass

This module restates the machine of open brackets over a fixed sequence of tokens, with
a cursor that counts the tokens behind it.  A pass looks at one token after the other
and stops at the first one that completes a form or is an error, or at the end.

The main theorem says that reading a form from any cursor on comes to what the pass comes
to, and leaves the tokens from the cursor on at which the pass stops
(`Form.outcome_read_drop`).  A token that completes a form, an open string, and the
closing bracket of an odd map lie behind that cursor; a bracket that closes in the wrong
place does not.
-/

namespace MiniLisp

namespace Machine

/-- What the machine comes to from a cursor on, and the cursor at which it stops. -/
def pass
    (tokens : List Token)
    (cursor : Nat)
    (stack : List OpenBracket) :
    Except ParseError Value × Nat :=
  match _ : tokens[cursor]? with
  | none => (.error (exhausted stack), cursor)
  | some token =>
    match step stack token with
    | .proceed stack => pass tokens (cursor + 1) stack
    | .finish form => (.ok form, cursor + 1)
    | .reject error => (.error error, cursor + 1)
    | .refuse error => (.error error, cursor)
termination_by tokens.length - cursor
decreasing_by
  have inside := (List.getElem?_eq_some_iff.1 ‹_›).1
  omega

/-- The token at a cursor is the first of those that follow. -/
private theorem drop_of_getElem?
    {tokens : List Token}
    {cursor : Nat}
    {token : Token}
    (found : tokens[cursor]? = some token) :
    tokens.drop cursor = token :: tokens.drop (cursor + 1) := by
  rw [List.drop_eq_getElem?_toList_append, found]
  rfl

/-- A run over the tokens from a cursor on leaves those from the end of the pass on. -/
theorem run_drop
    (tokens : List Token)
    (cursor : Nat)
    (stack : List OpenBracket) :
    run stack (tokens.drop cursor) =
      ((pass tokens cursor stack).1, tokens.drop (pass tokens cursor stack).2) := by
  fun_induction pass tokens cursor stack with
  | case1 cursor stack ended =>
      rw [List.drop_eq_nil_of_le (List.getElem?_eq_none_iff.1 ended)]
      rfl
  | case2 cursor stack token found after made ih =>
      rw [drop_of_getElem? found, run, made]
      exact ih
  | case3 cursor stack token found form made =>
      rw [drop_of_getElem? found, run, made]
  | case4 cursor stack token found error made =>
      rw [drop_of_getElem? found, run, made]
  | case5 cursor stack token found error made =>
      rw [drop_of_getElem? found, run, made]

/-- A pass does not go back, and it does not go beyond the end of the tokens. -/
theorem pass_snd_bounds
    (tokens : List Token)
    (cursor : Nat)
    (stack : List OpenBracket) :
    cursor ≤ (pass tokens cursor stack).2 ∧
      (pass tokens cursor stack).2 ≤ max cursor tokens.length := by
  have inside : ∀ {cursor : Nat} {token : Token},
      tokens[cursor]? = some token → cursor < tokens.length :=
    fun found => (List.getElem?_eq_some_iff.1 found).1
  fun_induction pass tokens cursor stack with
  | case1 cursor stack ended => omega
  | case2 cursor stack token found after made ih =>
      have := inside found
      omega
  | case3 cursor stack token found form made =>
      have := inside found
      omega
  | case4 cursor stack token found error made =>
      have := inside found
      omega
  | case5 cursor stack token found error made => omega

end Machine

namespace Form

/--
Reading a form from a cursor on, also from one at or behind the end of the tokens, is one
pass of the machine from there without open brackets.  A form takes at least one token.
-/
theorem outcome_read_drop
    (tokens : List Token)
    (cursor : Nat) :
    ∃ result last,
      Machine.pass tokens cursor [] = (result, last) ∧
        (read (tokens.drop cursor)).outcome = (result, tokens.drop last) ∧
        cursor ≤ last ∧ last ≤ max cursor tokens.length ∧
        ∀ form, result = .ok form → cursor < last := by
  have sameOutcome : (read (tokens.drop cursor)).outcome = _ :=
    (Machine.outcome_read_eq_run _).trans (Machine.run_drop tokens cursor [])
  rcases Machine.pass_snd_bounds tokens cursor [] with ⟨forward, within⟩
  refine ⟨_, _, rfl, sameOutcome, forward, within, ?_⟩
  intro form success
  have shorter : (read (tokens.drop cursor)).rest.length < (tokens.drop cursor).length :=
    Reading.length_rest_lt_of_result ((congrArg Prod.fst sameOutcome).trans success)
  rw [show (read (tokens.drop cursor)).rest = _ from congrArg Prod.snd sameOutcome,
    List.length_drop, List.length_drop] at shorter
  omega

/-- A word, a list with a comment in it, and a bracket that closes nothing. -/
def commentedTokens : List Token :=
  [⟨['x'], ⟨1, 1⟩⟩, ⟨['('], ⟨1, 3⟩⟩, ⟨[';'], ⟨1, 4⟩⟩, ⟨['y'], ⟨2, 1⟩⟩, ⟨[')'], ⟨2, 2⟩⟩,
    ⟨[']'], ⟨2, 3⟩⟩]

/-- The list is taken up to its closing bracket, and the bracket behind it is left. -/
theorem outcome_read_drop_of_comment :
    ∃ last,
      Machine.pass commentedTokens 1 [] = (.ok (.list [.symbol "y"]), last) ∧
        commentedTokens.drop last = [⟨[']'], ⟨2, 3⟩⟩] ∧ 1 < last := by
  have completed :
      (read (commentedTokens.drop 1)).outcome =
        (.ok (.list [.symbol "y"]), [⟨[']'], ⟨2, 3⟩⟩]) := by
    rw [Machine.outcome_read_eq_run]
    rfl
  rcases outcome_read_drop commentedTokens 1 with ⟨result, last, passes, same, -, -, advances⟩
  rcases Prod.mk.inj (completed.symm.trans same) with ⟨rfl, left⟩
  exact ⟨last, passes, left.symm, advances _ rfl⟩

end Form

end MiniLisp
