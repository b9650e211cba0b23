import MiniLisp.Session
import MiniLisp.Text.Blank

/-!
# The prompt

This module supplies the answers to lines of input.  Each line is trimmed, and
a line without any other character is passed over.  Everything written during
the evaluation of a line, and the value of the line, is output; faults are
reported apart from the output.

A line editor delivers the lines one by one.  Neither a fault nor an interrupted
line ends the prompt: it ends with code 0 at the end of input, and with code 1
when the line editor fails.  The line editor also remembers every line that is
to be answered, for the user to come back to; it is taken to do so without
failing.
-/

namespace MiniLisp

/-- The answer to one line. -/
structure Answer where
  /-- The text written and the text of the value. -/
  output : String
  /-- The report of a fault. -/
  report : String
deriving DecidableEq, Repr

namespace Prompt

/-- A bound on the depth of evaluation that no machine reaches. -/
def depthBound : Nat := 1000000000

/-- The lines of an input text. -/
def lines (input : String) : List (List Char) :=
  input.toList.splitOn '\n'

/-- The answer that an outcome gives to a line. -/
def answer (written : String) : Except Fault (Option String) → Answer
  | .ok none => ⟨written, ""⟩
  | .ok (some text) => ⟨written ++ text ++ "\n", ""⟩
  | .error fault => ⟨written, "Error: " ++ fault.message ++ "\n"⟩

/-- The answer to one line, and the store after it. -/
def step
    (depth : Nat)
    (session : Session)
    (line : List Char)
    (store : Store) :
    Option (Answer × Store) :=
  match Text.trim line with
  | [] => some (⟨"", ""⟩, store)
  | text =>
    match (session.respond depth (String.ofList text)).outcome store.forgetOutput with
    | none => none
    | some (outcome, after) => some (answer after.output outcome, after)

/-- What the line editor gives when it is asked for a line. -/
inductive Delivery where
  | line (text : List Char)
  /-- The line was given up while it was edited. -/
  | interrupted
  /-- The line could not be read. -/
  | failed (description : String)

/-- How the prompt ends. -/
structure Ending where
  /-- What was answered, line by line. -/
  answers : List Answer
  /-- The code that the program ends with. -/
  code : UInt32
deriving DecidableEq, Repr

namespace Ending

/-- The prompt ends after one more answer. -/
def after (answer : Answer) (ending : Ending) : Ending :=
  { ending with answers := answer :: ending.answers }

/-- The input has ended. -/
def done : Ending := ⟨[], 0⟩

/-- The line editor has failed. -/
def failed (description : String) : Ending :=
  ⟨[⟨"", "Error: " ++ description ++ "\n"⟩], 1⟩

end Ending

/-- The prompt from a store on, until the line editor has nothing more to give. -/
def serve
    (depth : Nat)
    (session : Session) :
    List Delivery → Store → Option Ending
  | [], _ => some .done
  | .line text :: rest, store =>
    match step depth session text store with
    | none => none
    | some (answer, after) => (serve depth session rest after).map (.after answer)
  | .interrupted :: rest, store => serve depth session rest store
  | .failed description :: _, _ => some (.failed description)

/-- How the prompt of a fresh session ends that is given the lines of an input text. -/
def ending (depth : Nat) (input : String) : Option Ending :=
  serve depth (Session.next Store.empty) ((lines input).map .line) (Session.enter Store.empty)

/-- The answers of a fresh session to an input text. -/
def answers (depth : Nat) (input : String) : Option (List Answer) :=
  (ending depth input).map Ending.answers

/-- What the command line asks for. -/
inductive Request where
  | version
  | prompt
deriving DecidableEq, Repr

/-- A single flag asks for the version; all else starts the prompt. -/
def Request.ofArguments : List String → Request
  | ["--version"] => version
  | ["-v"] => version
  | _ => prompt

/-- The text that names the version. -/
def versionText : String := "malt v0.1.0\n"

end Prompt

end MiniLisp
