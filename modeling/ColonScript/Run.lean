import ColonScript.Native
import ColonScript.Value.Operation

/-!
# Running programs

Expressions and statements are run by recursion on their form.  A call of a user function is
the one step that leaves this recursion, since the body comes from the scopes; what such a call
does is handed to the runner.  `Run.invoke` ties the knot by recursion on the number of calls
that may still nest, so every program comes to an end.
-/

namespace ColonScript

/-- What a call of a user function does, given its arguments as records and the line of the
call. -/
abbrev Invocation : Type :=
  UserFunction → List Record → Nat → Run (Option Value)

/-- A parameter takes a value: of its own kind, or of any kind if it is an array parameter. -/
def Parameter.takes (p : Parameter) (v : Value) : Bool :=
  p.kind = .arr || v.kind = p.kind

/-- The name that an expression is, if it is a bare name. -/
def Expr.bareName? : Expr → Option String
  | .name n _ => some n
  | _ => none

namespace Run

section
variable (invoke : Invocation)

mutual

/-- Runs an expression.  Calls may end without a value. -/
def expr : Expr → Run (Option Value)
  | .literal constant _ => return some constant.value
  | .name name line => do
      match (← get).valueOf? name with
      | some v => return some v
      | none => fail line (.unknownVariable name)
  | .negate operand line => do
      let v ← require operand.line (expr operand)
      return some (← lift (v.negate line))
  | .binary op left right line => do
      let l ← require left.line (expr left)
      let r ← require right.line (expr right)
      return some (← lift (op.apply line l r))
  | .call callee arguments line => do
      match (← get).valueOf? callee with
      | some (.function _ (.native f)) =>
          if f.arity.accepts arguments.length then do
            f.routine.run line (← nativeArguments arguments)
          else fail line (.argumentCount f.name arguments.length)
      | some (.function _ (.user f)) =>
          if arguments.length = f.parameters.length then do
            invoke f (← userArguments f.name line f.parameters arguments) line
          else fail line (.argumentCount f.name arguments.length)
      | some _ => fail line (.notCallable callee)
      | none => fail line (.unknownVariable callee)
  | .array elements _ => return some (.array (← values elements))

/-- Runs the elements of an array, first to last. -/
def values : List Expr → Run (List Value)
  | [] => return []
  | e :: es => do
      let v ← require e.line (expr e)
      let vs ← values es
      return v :: vs

/-- Runs the arguments of a native, first to last. -/
def nativeArguments : List Expr → Run (List Argument)
  | [] => return []
  | e :: es => do
      let v ← require e.line (expr e)
      let vs ← nativeArguments es
      return ⟨v, e.bareName?⟩ :: vs

/-- Runs the arguments of a user function, first to last, each checked against its
parameter. -/
def userArguments (function : String) (line : Nat) :
    List Parameter → List Expr → Run (List Record)
  | p :: ps, e :: es => do
      let v ← require e.line (expr e)
      if p.takes v then do
        let vs ← userArguments function line ps es
        return ⟨p.kind, p.name, v⟩ :: vs
      else fail line (.argumentKind p.name function p.kind v.kind)
  | _, _ => return []

end

/-- The value of a name that has to mean something. -/
def nameValue (name : String) (line : Nat) : Option Value → Run (Option Value)
  | some v => return some v
  | none => fail line (.unknownVariable name)

theorem expr_name
    (name : String) (line : Nat) :
    expr invoke (.name name line) = get >>= fun m => nameValue name line (m.valueOf? name) := by
  rw [expr]
  rfl

/-- Calls a native: its arguments are counted first and then run. -/
def callNative (f : NativeFunction) (arguments : List Expr) (line : Nat) : Run (Option Value) :=
  if f.arity.accepts arguments.length then do
    f.routine.run line (← nativeArguments invoke arguments)
  else fail line (.argumentCount f.name arguments.length)

/-- Calls a user function: its arguments are counted first, then run and handed over. -/
def callUser (f : UserFunction) (arguments : List Expr) (line : Nat) : Run (Option Value) :=
  if arguments.length = f.parameters.length then do
    invoke f (← userArguments invoke f.name line f.parameters arguments) line
  else fail line (.argumentCount f.name arguments.length)

/-- Calls what the name of a callee means. -/
def callValue (callee : String) (arguments : List Expr) (line : Nat) :
    Option Value → Run (Option Value)
  | some (.function _ (.native f)) => callNative invoke f arguments line
  | some (.function _ (.user f)) => callUser invoke f arguments line
  | some _ => fail line (.notCallable callee)
  | none => fail line (.unknownVariable callee)

/-- A call looks its callee up before it does anything else. -/
theorem expr_call
    (callee : String) (arguments : List Expr) (line : Nat) :
    expr invoke (.call callee arguments line) =
      get >>= fun m => callValue invoke callee arguments line (m.valueOf? callee) := by
  rw [expr]
  rfl

/-- Runs an expression that has to give a value. -/
def value (e : Expr) : Run Value :=
  require e.line (expr invoke e)

/-- Runs a bound of a loop, which has to be an integer. -/
def bound (which : LoopBound) (line : Nat) (e : Expr) : Run Int := do
  let v ← value invoke e
  match v.asInteger line with
  | .ok i => return i
  | .error _ => fail line (.loopBound which v.display)

/-- Tests the guard of an arm.  An arm without guard is always taken. -/
def guard (line : Nat) : Option Expr → Run Bool
  | none => return true
  | some e => do
      let v ← value invoke e
      lift (v.asBool line)

/-- Runs one iteration of a loop.  A return ends the iteration only. -/
def iteration (counter : String) (line : Nat) (body : Run Ending) (i : Int) : Run Unit :=
  match Number.ofInteger? i with
  | none => fail line .tooLarge
  | some n => do
      let _ ← between (.enterIteration ⟨.num, counter, .number n⟩) .leaveIteration body
      return ()

mutual

/-- Runs a statement. -/
def statement : Statement → Run Ending
  | .declare kind name initializer line => do
      let v ← value invoke initializer
      if v.kind = kind then do
        modify (Machine.mapScopes (·.declare ⟨kind, name, v⟩))
        return .ran none
      else fail line (.declaredKind kind v.kind)
  | .function name parameters body line => do
      modify (Machine.define ⟨name, parameters, body, line⟩)
      return .ran none
  | .conditional chain _ => arms chain
  | .loop counter first last body line => do
      let start ← bound invoke .first line first
      let stop ← bound invoke .last line last
      forEach (if start ≤ stop then 1 else -1) (iteration counter line (block body none))
        ((stop - start).natAbs + 1) start
      return .ran none
  | .returns e _ => return .returned (← expr invoke e)
  | .expression e _ => return .ran (← expr invoke e)

/-- Runs the arms of a conditional up to the first that is taken. -/
def arms : List Arm → Run Ending
  | [] => return .ran none
  | .mk condition body line :: rest => do
      if ← guard invoke line condition then do
        match ← block body none with
        | .returned v => return .returned v
        | .ran _ => return .ran none
      else arms rest

/-- Runs statements up to the first return.  Without one, the block has the last value that a
statement gave, or `last` if none did. -/
def block : List Statement → (last : Option Value) → Run Ending
  | [], last => return .ran last
  | s :: rest, last => do
      match ← statement s with
      | .returned v => return .returned v
      | .ran v => block rest (v.or last)

end

end

/-- The number of nested calls after which a run moves to a fresh stack. -/
def stackSpan : Nat := 100

/-- Moves to a fresh stack at regular depths. -/
def relay (room : Nat) (act : Run Ending) : Run Ending :=
  if room % stackSpan = 0 then act.onFreshStack else act

@[simp]
theorem relay_eq
    (room : Nat) (act : Run Ending) :
    relay room act = act := by
  simp [relay]

/-- What a call of a user function does when `room` calls may still nest. -/
def invoke : (room : Nat) → Invocation
  | 0, _, _, line => fail line .recursionLimit
  | room + 1, f, arguments, _ =>
      between (.enterCall arguments) .leaveCall
        (Ending.value <$> relay room (block (invoke room) f.body none))

end Run

namespace Machine

/-- How many more calls may nest. -/
def room (m : Machine) : Nat :=
  callLimit - m.depth

/-- Runs an expression. -/
def runExpr (e : Expr) : Run (Option Value) := fun m =>
  Run.expr (Run.invoke m.room) e m

/-- Runs a statement. -/
def runStatement (s : Statement) : Run Ending := fun m =>
  Run.statement (Run.invoke m.room) s m

/-- Runs statements in order. -/
def runBlock (statements : List Statement) : Run Ending := fun m =>
  Run.block (Run.invoke m.room) statements none m

end Machine
end ColonScript
