import MiniLisp.Form.Atom
import MiniLisp.Form.ParseError
import MiniLisp.Token
import MiniLisp.Value.Entries

/-!
# Reading a form from tokens

This module supplies the reading of one form from the head of a sequence of
tokens.  The result comes with the tokens that are left, also when the reading
fails: a bracket that closes in the wrong place is left, and an unterminated
string or the closing bracket of an odd map is not.  The reading of a collection
starts at the bracket that opens it, which has been recognized before, so there
is no error for a collection that starts with another bracket.

A comment is a form of its own at the top level and nothing inside a collection.
Success always takes at least one token, which is part of the result and bounds
the recursion.
-/

namespace MiniLisp

/-- The outcome of reading from tokens, with the tokens that are left. -/
inductive Reading (tokens : List Token) (Result : Type) where
  | done
      (result : Result)
      (rest : List Token)
      (shorter : rest.length < tokens.length)
  | failed (error : ParseError) (rest : List Token)

namespace Reading

/-- What was read, or the error. -/
def result {tokens : List Token} {Result : Type} :
    Reading tokens Result → Except ParseError Result
  | done result _ _ => .ok result
  | failed error _ => .error error

/-- The tokens that are left. -/
def rest {tokens : List Token} {Result : Type} :
    Reading tokens Result → List Token
  | done _ rest _ => rest
  | failed _ rest => rest

/-- What was read, or the error, with the tokens that are left. -/
def outcome {tokens : List Token} {Result : Type} (reading : Reading tokens Result) :
    Except ParseError Result × List Token :=
  (reading.result, reading.rest)

@[simp]
theorem outcome_done
    {tokens : List Token}
    {Result : Type}
    (result : Result)
    (rest : List Token)
    (shorter : rest.length < tokens.length) :
    (done result rest shorter).outcome = (.ok result, rest) := rfl

@[simp]
theorem outcome_failed
    {tokens : List Token}
    {Result : Type}
    (error : ParseError)
    (rest : List Token) :
    (failed error rest : Reading tokens Result).outcome = (.error error, rest) := rfl

/-- Success takes at least one token. -/
theorem length_rest_lt_of_result
    {tokens : List Token}
    {Result : Type}
    {reading : Reading tokens Result}
    {result : Result}
    (success : reading.result = .ok result) :
    reading.rest.length < tokens.length := by
  cases reading with
  | done _ _ shorter => exact shorter
  | failed error rest => cases success

end Reading

namespace Form

/-- The collection of items that a bracket encloses. -/
def collect (bracket : Bracket) (items : List Value) : Except ParseError Value :=
  match bracket with
  | .round => .ok (.list items)
  | .square => .ok (.vector items)
  | .curly =>
    match Entries.ofItems? items with
    | some entries => .ok (.map entries)
    | none => .error (.oddMap items.length)

mutual

/-- The reading of the form at the head of the tokens. -/
def read (tokens : List Token) : Reading tokens Value :=
  match tokens with
  | [] => .failed .endOfInput []
  | token :: rest =>
    match Bracket.ofOpening? token.text with
    | some bracket =>
      match readItems bracket token.position rest with
      | .failed error left => .failed error left
      | .done items left shorter =>
        match collect bracket items with
        | .ok value => .done value left (Nat.lt_succ_of_lt shorter)
        | .error error => .failed error left
    | none =>
      match Bracket.ofClosing? token.text with
      | some found => .failed (.unopened found token.position) (token :: rest)
      | none =>
        if token.isComment then
          .done (.comment (String.ofList token.text)) rest (Nat.lt_succ_self _)
        else
          match Atom.ofText? token.text with
          | some value => .done value rest (Nat.lt_succ_self _)
          | none => .failed (.unterminated token.text token.position) rest
termination_by (tokens.length, 0)

/--
The reading of the items of a collection whose bracket was opened at a position,
up to and including the closing bracket.
-/
def readItems
    (bracket : Bracket)
    (opened : Position)
    (tokens : List Token) :
    Reading tokens (List Value) :=
  match tokens with
  | [] => .failed (.unclosed bracket opened) []
  | token :: rest =>
    if token.isComment then
      match readItems bracket opened rest with
      | .failed error left => .failed error left
      | .done items left shorter => .done items left (Nat.lt_succ_of_lt shorter)
    else
      match Bracket.ofClosing? token.text with
      | some found =>
        if found = bracket then
          .done [] rest (Nat.lt_succ_self _)
        else
          .failed (.mismatched bracket found token.position) (token :: rest)
      | none =>
        match read (token :: rest) with
        | .failed error left => .failed error left
        | .done item left shorter =>
          match readItems bracket opened left with
          | .failed error last => .failed error last
          | .done items last shorterStill =>
            .done (item :: items) last (Nat.lt_trans shorterStill shorter)
termination_by (tokens.length, 1)

end

@[simp]
theorem outcome_read_nil :
    (read []).outcome = (.error .endOfInput, []) := by
  rw [read]
  rfl

/-- The first token decides how a form is read. -/
theorem outcome_read_cons (token : Token) (rest : List Token) :
    (read (token :: rest)).outcome =
      match Bracket.ofOpening? token.text with
      | some bracket =>
        match (readItems bracket token.position rest).outcome with
        | (.error error, left) => (.error error, left)
        | (.ok items, left) => (collect bracket items, left)
      | none =>
        match Bracket.ofClosing? token.text with
        | some found => (.error (.unopened found token.position), token :: rest)
        | none =>
          if token.isComment then
            (.ok (.comment (String.ofList token.text)), rest)
          else
            match Atom.ofText? token.text with
            | some value => (.ok value, rest)
            | none => (.error (.unterminated token.text token.position), rest) := by
  rw [read]
  cases Bracket.ofOpening? token.text with
  | some bracket =>
    cases reading : readItems bracket token.position rest with
    | failed error left => simp [reading]
    | done items left shorter =>
      cases collected : collect bracket items <;> simp [reading, collected]
  | none =>
    cases Bracket.ofClosing? token.text with
    | some found => rfl
    | none =>
      by_cases comment : token.isComment = true
      · simp [comment]
      · cases atom : Atom.ofText? token.text <;> simp [comment]

@[simp]
theorem outcome_readItems_nil (bracket : Bracket) (opened : Position) :
    (readItems bracket opened []).outcome = (.error (.unclosed bracket opened), []) := by
  rw [readItems]
  rfl

/-- The first token decides how the items of a collection are read. -/
theorem outcome_readItems_cons
    (bracket : Bracket)
    (opened : Position)
    (token : Token)
    (rest : List Token) :
    (readItems bracket opened (token :: rest)).outcome =
      if token.isComment then
        (readItems bracket opened rest).outcome
      else
        match Bracket.ofClosing? token.text with
        | some found =>
          if found = bracket then
            (.ok [], rest)
          else
            (.error (.mismatched bracket found token.position), token :: rest)
        | none =>
          match (read (token :: rest)).outcome with
          | (.error error, left) => (.error error, left)
          | (.ok item, left) =>
            match (readItems bracket opened left).outcome with
            | (.error error, last) => (.error error, last)
            | (.ok items, last) => (.ok (item :: items), last) := by
  rw [readItems]
  by_cases comment : token.isComment = true
  · cases readItems bracket opened rest <;> simp [comment]
  · cases Bracket.ofClosing? token.text with
    | some found =>
      by_cases same : found = bracket <;> simp [comment, same]
    | none =>
      cases item : read (token :: rest) with
      | failed error left => simp [comment]
      | done value left shorter =>
        cases items : readItems bracket opened left <;> simp [comment, items]

end Form

end MiniLisp
