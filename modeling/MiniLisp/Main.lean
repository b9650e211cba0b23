import MiniLisp.Prompt

/-!
# The command line

This module supplies the program: it prints its version, or answers the lines
of standard input one by one.
-/

namespace MiniLisp

/-- The answering of lines until the end of input. -/
partial def answerLines (session : Session) (store : Store) : IO UInt32 := do
  let line ← (← IO.getStdin).getLine
  if line.isEmpty then
    return Prompt.Ending.done.code
  match Prompt.step Prompt.depthBound session line.toList store with
  | none => return 1
  | some (answer, after) =>
    let output ← IO.getStdout
    output.putStr answer.output
    output.flush
    IO.eprint answer.report
    answerLines session after

end MiniLisp

open MiniLisp in
/-- The program as it is started from a command line. -/
def main (arguments : List String) : IO UInt32 := do
  match Prompt.Request.ofArguments arguments with
  | .version =>
    IO.print Prompt.versionText
    return 0
  | .prompt => answerLines (Session.next Store.empty) (Session.enter Store.empty)
