import MiniLisp.Proofs.Form.Completion
import MiniLisp.Proofs.Form.Programs

/-!
# Reading depends on the tokens that are read

This module shows that reading a form looks at nothing in front of its first token and
at nothing behind its last one.

A form that is read from some place in a sequence of tokens is read from every place
where the same tokens stand, whatever stands around them.  An error that lies at a token
is found wherever the tokens up to this one stand, and the reading stops at the same
distance (`Form.read_tokens_only`).  Only the two errors that mean the end of the tokens
depend on what does not follow.
-/

namespace MiniLisp

/-- The tokens ended before the form did. -/
def ParseError.isAtEnd : ParseError → Bool
  | endOfInput => true
  | unclosed _ _ => true
  | _ => false

namespace Machine

/-- An error that is not at the end lies at a token, and what follows makes no difference. -/
theorem exists_liesAt_of_run
    {stack : List OpenBracket}
    {tokens left : List Token}
    {error : ParseError}
    (failed : run stack tokens = (.error error, left))
    (notAtEnd : error.isAtEnd = false) :
    ∃ before token taken,
      before ++ [token] <+: tokens ∧ error.LiesAt token taken ∧
        ∀ others, before ++ [token] <+: others →
          run stack others = (.error error, others.drop (before.length + taken.toNat)) := by
  obtain ⟨before, after, passes, -, ends⟩ := run_error_cases failed
  rcases ends with ⟨-, rfl⟩ | ⟨token, rest, rfl, wrong⟩
  · cases after <;> cases notAtEnd
  · have isPrefix : before ++ [token] <+: before ++ token :: rest := ⟨rest, by simp⟩
    rcases liesAt_of_step wrong with ⟨rejects, lies⟩ | ⟨refuses, lies⟩
    · refine ⟨before, token, true, isPrefix, lies, ?_⟩
      rintro _ ⟨more, rfl⟩
      rw [List.append_assoc, passes, List.singleton_append, run, rejects]
      simp
    · refine ⟨before, token, false, isPrefix, lies, ?_⟩
      rintro _ ⟨more, rfl⟩
      rw [List.append_assoc, passes, List.singleton_append, run, refuses]
      simp

end Machine

namespace Form

/--
A form that is read from a place on takes some tokens, and wherever the same tokens stand
the same form is read and the same number of tokens is taken.

An error that lies at a token is found wherever the same tokens up to this one stand, and
the reading stops at the same distance from where it started.
-/
theorem read_tokens_only
    (tokens : List Token)
    (start : Nat) :
    (∀ form left,
      (read (tokens.drop start)).outcome = (.ok form, left) →
        ∃ taken,
          tokens.drop start = taken ++ left ∧
            ∀ (others : List Token) (place : Nat), taken <+: others.drop place →
              (read (others.drop place)).outcome =
                (.ok form, others.drop (place + taken.length))) ∧
      ∀ error left,
        (read (tokens.drop start)).outcome = (.error error, left) →
          error.isAtEnd = false →
            ∃ before token taken,
              before ++ [token] <+: tokens.drop start ∧ error.LiesAt token taken ∧
                left = tokens.drop (start + (before.length + taken.toNat)) ∧
                ∀ (others : List Token) (place : Nat), before ++ [token] <+: others.drop place →
                  (read (others.drop place)).outcome =
                    (.error error, others.drop (place + (before.length + taken.toNat))) := by
  constructor
  · intro form left success
    rw [Machine.outcome_read_eq_run] at success
    obtain ⟨taken, whole, -, -, same⟩ := Machine.exists_taken_of_run success
    refine ⟨taken, whole, ?_⟩
    rintro others place ⟨more, found⟩
    rw [Machine.outcome_read_eq_run, ← List.drop_drop, ← found, same, List.drop_left]
  · intro error left failed notAtEnd
    rw [Machine.outcome_read_eq_run] at failed
    obtain ⟨before, token, taken, isPrefix, lies, same⟩ :=
      Machine.exists_liesAt_of_run failed notAtEnd
    rw [same _ isPrefix, List.drop_drop] at failed
    refine ⟨before, token, taken, isPrefix, lies, (congrArg Prod.snd failed).symm, ?_⟩
    intro others place isPrefixThere
    rw [Machine.outcome_read_eq_run, same _ isPrefixThere, List.drop_drop]

/-- A word, a list, and a map with a key alone. -/
def listAndOddMap : List Token :=
  [⟨['x'], ⟨1, 1⟩⟩, ⟨['('], ⟨1, 3⟩⟩, ⟨['y'], ⟨1, 4⟩⟩, ⟨[')'], ⟨1, 5⟩⟩, ⟨['{'], ⟨1, 7⟩⟩,
    ⟨['1'], ⟨1, 8⟩⟩, ⟨['}'], ⟨1, 9⟩⟩]

/-- The list is read without the map behind it, and the map fails with a word behind it. -/
theorem read_tokens_only_of_odd_map :
    (read (listAndOddMap.drop 1)).outcome =
        (.ok (.list [.symbol "y"]), listAndOddMap.drop 4) ∧
      (read ((listAndOddMap.take 4).drop 1)).outcome = (.ok (.list [.symbol "y"]), []) ∧
      (read (listAndOddMap.drop 4)).outcome = (.error (.oddMap 1), []) ∧
      (read (listAndOddMap.drop 4 ++ listAndOddMap.take 1)).outcome =
        (.error (.oddMap 1), listAndOddMap.take 1) := by
  have list :
      (read (listAndOddMap.drop 1)).outcome =
        (.ok (.list [.symbol "y"]), listAndOddMap.drop 4) := by
    rw [Machine.outcome_read_eq_run]
    rfl
  have oddMap : (read (listAndOddMap.drop 4)).outcome = (.error (.oddMap 1), []) := by
    rw [Machine.outcome_read_eq_run]
    rfl
  obtain ⟨taken, whole, sameForm⟩ := (read_tokens_only listAndOddMap 1).1 _ _ list
  obtain rfl : (listAndOddMap.take 4).drop 1 = taken := List.append_cancel_right whole
  obtain ⟨before, token, isTaken, isPrefix, lies, left, sameError⟩ :=
    (read_tokens_only listAndOddMap 4).2 _ _ oddMap rfl
  refine ⟨list, sameForm (listAndOddMap.take 4) 1 (List.prefix_refl _), oddMap, ?_⟩
  -- The closing bracket of the map is the third token, and it is taken.
  cases lies
  have atMost : before.length + 1 ≤ 3 := by simpa [listAndOddMap] using isPrefix.length_le
  have atLeast : 7 ≤ 4 + (before.length + 1) := List.drop_eq_nil_iff.1 left.symm
  have length : before.length = 2 := by omega
  have there := sameError (listAndOddMap.drop 4 ++ listAndOddMap.take 1) 0
    (isPrefix.trans (List.prefix_append _ _))
  rw [length] at there
  exact there

end Form

end MiniLisp
