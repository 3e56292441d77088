import ColonScript.Run
import ColonScript.Syntax.Statement

/-!
# Sessions

A session runs one source text after another in the same machine.  A text that cannot be read
changes nothing; a text that fails while it runs keeps what it did before.
-/

namespace ColonScript

/-- Why a source text has no result. -/
inductive Failure where
  | read (error : ReadError)
  | run (error : RunError)
deriving DecidableEq

/-- The message of a failure. -/
def Failure.message : Failure → String
  | read e => e.message
  | run e => e.message

namespace Machine

variable {α β : Type}

/-- Runs something that was read, if it was read. -/
def attempt (reading : Except ReadError α) (act : α → Run β) (m : Machine) :
    Except Failure β × Machine :=
  match reading with
  | .error e => (.error (.read e), m)
  | .ok a =>
      match act a m with
      | .ok b m => (.ok b, m)
      | .error e m => (.error (.run e), m)

/-- Runs a source text as a block. -/
def perform (source : String) : Machine → Except Failure Ending × Machine :=
  attempt (readProgram source) runBlock

/-- Runs a source text.  Its value is that of the first return it reaches, otherwise the last
value that one of its statements gave. -/
def run (source : String) (m : Machine) : Except Failure (Option Value) × Machine :=
  let (outcome, m) := m.perform source
  (outcome.map Ending.value, m)

/-- Runs the expression at the front of a source text. -/
def calculate (source : String) : Machine → Except Failure (Option Value) × Machine :=
  attempt (readExpression source) runExpr

/-- Hands a line of output to the sink. -/
def print (line : Nat) (text : String) : Machine → Except Failure Unit × Machine :=
  attempt (.ok text) (Run.print line)

/-- Closes the sink. -/
def closeSink (m : Machine) : Machine :=
  { m with sink := { m.sink with isOpen := false } }

/-- Takes the lines out of the sink. -/
def takeOutput (m : Machine) : Array String × Machine :=
  (m.sink.lines, { m with sink := { m.sink with lines := #[] } })

/-- The values of two names are equal, or neither name has one. -/
def sameValues (a b : String) (m : Machine) : Bool :=
  match m.valueOf? a, m.valueOf? b with
  | some x, some y => x.equal y
  | none, none => true
  | _, _ => false

/-- The functions of two names hold the same, if both are functions. -/
def sameFunctions? (a b : String) (m : Machine) : Option Bool :=
  match m.valueOf? a, m.valueOf? b with
  | some (.function _ f), some (.function _ g) => some (f.same g)
  | _, _ => none

end Machine
end ColonScript
