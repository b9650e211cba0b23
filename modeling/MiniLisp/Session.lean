import MiniLisp.Eval
import MiniLisp.Form.Program
import MiniLisp.Value.Printer

/-!
# Sessions

This module supplies sessions: root frames in which all builtin functions are
defined.  Source text is read and evaluated in the root frame of a session.
Several sessions can live in one store without meeting.

Reading a single form looks at nothing behind it.  A whole program is evaluated
up to its first error: the forms in front of a syntax error have been evaluated
when the error is reported.
-/

namespace MiniLisp

/-- A root frame in which source text is evaluated. -/
structure Session where
  root : FrameId
deriving DecidableEq, Repr

namespace Session

/-- The session whose root frame is the next frame of a store. -/
def next (store : Store) : Session := ⟨store.nextFrame⟩

/-- The store with the root frame of one more session. -/
def enter (store : Store) : Store :=
  (store.addFrame ⟨[], none⟩).defineBuiltins store.nextFrame

/-- The evaluation of the first form of a text, unless the form is a comment. -/
def evalFirst
    (session : Session)
    (depth : Nat)
    (source : String) :
    Action (Option Value) :=
  match Form.ofSource source with
  | .error error => Action.fail (.parse error)
  | .ok (.comment _) => pure none
  | .ok form => some <$> eval depth session.root form

/-- The text that answers a text: the value of its first form, unless it is nil. -/
def respond
    (session : Session)
    (depth : Nat)
    (source : String) :
    Action (Option String) := do
  match ← session.evalFirst depth source with
  | none => pure none
  | some .nil => pure none
  | some value => pure (some value.readable)

/-- The evaluation of forms in order, for the value of the last one that is no comment. -/
def evalForms
    (session : Session)
    (depth : Nat) :
    Value → List Value → Action Value
  | last, [] => pure last
  | last, .comment _ :: forms => session.evalForms depth last forms
  | _, form :: forms => do
    let value ← eval depth session.root form
    session.evalForms depth value forms

/-- The evaluation of a program up to its first error. -/
def evalProgram (session : Session) (depth : Nat) (program : Program) : Action Value := do
  let value ← session.evalForms depth .nil program.forms
  match program.stop with
  | some error => Action.fail (.parse error)
  | none => pure value

/-- The evaluation of all forms of a text. -/
def evalAll (session : Session) (depth : Nat) (source : String) : Action Value :=
  session.evalProgram depth (Program.ofSource source)

end Session

end MiniLisp
