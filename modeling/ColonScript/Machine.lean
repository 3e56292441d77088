import ColonScript.RunError
import ColonScript.Scopes

/-!
# The machine

The machine holds what a run depends on: the scopes, the receiver of output, the number of
active calls and the supply of identities for functions.  A run takes a machine to a machine
and a result, also when it fails.
-/

namespace ColonScript

/-- The receiver of output: whether it still takes lines, and those it was given. -/
structure Sink where
  isOpen : Bool
  lines : Array String
deriving DecidableEq

/-- The state of a run. -/
structure Machine where
  scopes : Scopes
  sink : Sink
  depth : Nat
  nextIdentity : Nat

/-- A run: it works on a machine and may fail; the machine is kept in either case. -/
abbrev Run (α : Type) : Type :=
  EStateM RunError Machine α

/-- How a block of statements ends: after its last statement, or at a return. -/
inductive Ending where
  | ran (value : Option Value)
  | returned (value : Option Value)

/-- The value a block ends with, either way. -/
def Ending.value : Ending → Option Value
  | ran v | returned v => v

namespace Machine

/-- Changes the scopes. -/
def mapScopes (f : Scopes → Scopes) (m : Machine) : Machine :=
  { m with scopes := f m.scopes }

/-- Starts a call: a frame with the arguments, one level deeper. -/
def enterCall (arguments : List Record) (m : Machine) : Machine :=
  { m with
    scopes := arguments.foldl Scopes.bindHere (m.scopes.push .frame)
    depth := m.depth + 1 }

/-- Ends a call. -/
def leaveCall (m : Machine) : Machine :=
  { m with scopes := m.scopes.pop, depth := m.depth - 1 }

/-- Starts an iteration: a binding scope with the counter. -/
def enterIteration (counter : Record) : Machine → Machine :=
  mapScopes fun s => (s.push .binding).bindHere counter

/-- Ends an iteration. -/
def leaveIteration : Machine → Machine :=
  mapScopes Scopes.pop

/-- A function value with an identity of its own. -/
def newFunction (f : Function) (m : Machine) : Value × Machine :=
  (.function m.nextIdentity f, { m with nextIdentity := m.nextIdentity + 1 })

/-- Defines a user function in the global scope, with an identity of its own. -/
def define (f : UserFunction) (m : Machine) : Machine :=
  let (value, m) := m.newFunction (.user f)
  m.mapScopes (·.declareTop ⟨.fn, f.name, value⟩)

/-- Adds a line to the output. -/
def emit (text : String) (m : Machine) : Machine :=
  { m with sink := { m.sink with lines := m.sink.lines.push text } }

/-- The value that a name means. -/
def valueOf? (name : String) (m : Machine) : Option Value :=
  (m.scopes.find? name).map Record.value

end Machine

namespace Run

variable {α : Type}

/-- Fails on a line. -/
def fail (line : Nat) (cause : RunCause) : Run α :=
  throw ⟨cause, line⟩

/-- A run that does not touch the machine. -/
def lift (r : Except RunError α) : Run α :=
  match r with
  | .ok a => pure a
  | .error e => throw e

/-- Insists on a value. -/
def require (line : Nat) (act : Run (Option Value)) : Run Value := do
  match ← act with
  | some v => pure v
  | none => fail line .missingValue

/-- Runs between a change of the machine and a change back, which is made also after a
failure. -/
def between (enter leave : Machine → Machine) (act : Run α) : Run α := fun m =>
  match act (enter m) with
  | .ok a m => .ok a (leave m)
  | .error e m => .error e (leave m)

/-- Hands a line of output to the sink. -/
def print (line : Nat) (text : String) : Run Unit := do
  if (← get).sink.isOpen then modify (Machine.emit text)
  else fail line .closedOutput

theorem print_apply
    (line : Nat) (text : String) (m : Machine) :
    print line text m =
      if m.sink.isOpen then .ok () (m.emit text) else .error ⟨.closedOutput, line⟩ m := by
  change (if m.sink.isOpen then modify (Machine.emit text) else fail line .closedOutput) m = _
  split <;> rfl

/-- Runs an action for a number of integers that start from one and differ by a step. -/
def forEach (step : Int) (act : Int → Run Unit) : (count : Nat) → (start : Int) → Run Unit
  | 0, _ => pure ()
  | count + 1, start => do
      act start
      forEach step act count (start + step)

/-- Runs on a thread with an empty stack.  This changes where a run takes place, not what it
does. -/
def onFreshStack (act : Run α) : Run α := fun m =>
  (Task.spawn (fun _ => act m) .dedicated).get

@[simp]
theorem onFreshStack_eq
    (act : Run α) :
    act.onFreshStack = act :=
  rfl

end Run
end ColonScript
