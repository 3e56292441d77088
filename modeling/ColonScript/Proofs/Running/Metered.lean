import ColonScript.Session

/-!
# Running on fuel

This module runs programs in the way that is closest to how they are described: the body of a
call is whatever the scopes hold, a call checks the number of active calls when it is made, and a
loop goes from one integer to the next until it has reached the last.  Nothing here is bounded by
the form of a program.  Every step spends fuel instead, and a run that has spent all of it has no
outcome.
-/

namespace ColonScript

/-- A run on a limited supply of fuel: it has no outcome when the fuel is spent. -/
def Metered (α : Type) : Type :=
  Machine → Option (EStateM.Result RunError Machine α)

namespace Metered

variable {α β : Type}

instance : Monad Metered where
  pure a m := some (.ok a m)
  bind x f m :=
    match x m with
    | some (.ok a m') => f a m'
    | some (.error e m') => some (.error e m')
    | none => none

/-- Single steps need no fuel of their own. -/
instance : MonadLift Run Metered where
  monadLift act m := some (act m)

/-- The fuel is spent. -/
def exhausted : Metered α :=
  fun _ => none

/-- Runs between a change of the machine and a change back. -/
def between (enter leave : Machine → Machine) (act : Metered α) : Metered α := fun m =>
  (act (enter m)).map fun result =>
    match result with
    | .ok a m' => .ok a (leave m')
    | .error e m' => .error e (leave m')

/-- Insists on a value. -/
def require (line : Nat) (act : Metered (Option Value)) : Metered Value := do
  match ← act with
  | some v => pure v
  | none => Run.fail line .missingValue

mutual

/-- Runs an expression. -/
def expr : (fuel : Nat) → Expr → Metered (Option Value)
  | 0, _ => exhausted
  | _ + 1, .literal constant _ => return some constant.value
  | _ + 1, .name name line => do
      Run.nameValue name line ((← get).valueOf? name)
  | fuel + 1, .negate operand line => do
      let v ← require operand.line (expr fuel operand)
      return some (← Run.lift (v.negate line))
  | fuel + 1, .binary op left right line => do
      let l ← require left.line (expr fuel left)
      let r ← require right.line (expr fuel right)
      return some (← Run.lift (op.apply line l r))
  | fuel + 1, .call callee arguments line => do
      callValue fuel callee arguments line ((← get).valueOf? callee)
  | fuel + 1, .array elements _ => return some (.array (← values fuel elements))

/-- Runs the elements of an array, first to last. -/
def values : (fuel : Nat) → List Expr → Metered (List Value)
  | 0, _ => exhausted
  | _ + 1, [] => return []
  | fuel + 1, e :: es => do
      let v ← require e.line (expr fuel e)
      let vs ← values fuel es
      return v :: vs

/-- Runs the arguments of a native, first to last. -/
def nativeArguments : (fuel : Nat) → List Expr → Metered (List Argument)
  | 0, _ => exhausted
  | _ + 1, [] => return []
  | fuel + 1, e :: es => do
      let v ← require e.line (expr fuel e)
      let vs ← nativeArguments fuel es
      return ⟨v, e.bareName?⟩ :: vs

/-- Runs the arguments of a user function, first to last, each checked against its
parameter. -/
def userArguments : (fuel : Nat) → (function : String) → (line : Nat) → List Parameter →
    List Expr → Metered (List Record)
  | 0, _, _, _, _ => exhausted
  | fuel + 1, function, line, p :: ps, e :: es => do
      let v ← require e.line (expr fuel e)
      if p.takes v then do
        let vs ← userArguments fuel function line ps es
        return ⟨p.kind, p.name, v⟩ :: vs
      else Run.fail line (.argumentKind p.name function p.kind v.kind)
  | _ + 1, _, _, _, _ => return []

/-- Calls what the name of a callee means. -/
def callValue : (fuel : Nat) → (callee : String) → List Expr → (line : Nat) → Option Value →
    Metered (Option Value)
  | 0, _, _, _, _ => exhausted
  | fuel + 1, callee, arguments, line, found =>
      match found with
      | some (.function _ (.native f)) => callNative fuel f arguments line
      | some (.function _ (.user f)) => callUser fuel f arguments line
      | some _ => Run.fail line (.notCallable callee)
      | none => Run.fail line (.unknownVariable callee)

/-- Calls a native. -/
def callNative : (fuel : Nat) → NativeFunction → List Expr → (line : Nat) →
    Metered (Option Value)
  | 0, _, _, _ => exhausted
  | fuel + 1, f, arguments, line =>
      if f.arity.accepts arguments.length then do
        f.routine.run line (← nativeArguments fuel arguments)
      else Run.fail line (.argumentCount f.name arguments.length)

/-- Calls a user function: its arguments are counted first, then run and handed over. -/
def callUser : (fuel : Nat) → UserFunction → List Expr → (line : Nat) → Metered (Option Value)
  | 0, _, _, _ => exhausted
  | fuel + 1, f, arguments, line =>
      if arguments.length = f.parameters.length then do
        invoke fuel f (← userArguments fuel f.name line f.parameters arguments) line
      else Run.fail line (.argumentCount f.name arguments.length)

/-- Runs the body of a user function in a frame of its own, unless too many calls are
active. -/
def invoke : (fuel : Nat) → UserFunction → List Record → (line : Nat) → Metered (Option Value)
  | 0, _, _, _ => exhausted
  | fuel + 1, f, arguments, line => do
      if callLimit ≤ (← get).depth then Run.fail line .recursionLimit
      else
        let ending ← between (.enterCall arguments) .leaveCall (block fuel f.body none)
        return ending.value

/-- Runs a statement. -/
def statement : (fuel : Nat) → Statement → Metered Ending
  | 0, _ => exhausted
  | fuel + 1, .declare kind name initializer line => do
      let v ← require initializer.line (expr fuel initializer)
      if v.kind = kind then do
        modify (Machine.mapScopes (·.declare ⟨kind, name, v⟩))
        return .ran none
      else Run.fail line (.declaredKind kind v.kind)
  | _ + 1, .function name parameters body line => do
      modify (Machine.define ⟨name, parameters, body, line⟩)
      return .ran none
  | fuel + 1, .conditional chain _ => arms fuel chain
  | fuel + 1, .loop counter first last body line => do
      let start ← bound fuel .first line first
      let stop ← bound fuel .last line last
      iterations fuel counter line body stop start
      return .ran none
  | fuel + 1, .returns e _ => return .returned (← expr fuel e)
  | fuel + 1, .expression e _ => return .ran (← expr fuel e)

/-- Runs a bound of a loop, which has to be an integer. -/
def bound : (fuel : Nat) → LoopBound → (line : Nat) → Expr → Metered Int
  | 0, _, _, _ => exhausted
  | fuel + 1, which, line, e => do
      let v ← require e.line (expr fuel e)
      match v.asInteger line with
      | .ok i => return i
      | .error _ => Run.fail line (.loopBound which v.display)

/-- Runs the iterations of a loop from one integer on, each next to the one before, until the
last was reached. -/
def iterations : (fuel : Nat) → (counter : String) → (line : Nat) → List Statement →
    (stop i : Int) → Metered Unit
  | 0, _, _, _, _, _ => exhausted
  | fuel + 1, counter, line, body, stop, i =>
      match Number.ofInteger? i with
      | none => Run.fail line .tooLarge
      | some n => do
          let _ ← between (.enterIteration ⟨.num, counter, .number n⟩) .leaveIteration
            (block fuel body none)
          if i = stop then return ()
          else iterations fuel counter line body stop (if i < stop then i + 1 else i - 1)

/-- Runs the arms of a conditional up to the first that is taken. -/
def arms : (fuel : Nat) → List Arm → Metered Ending
  | 0, _ => exhausted
  | _ + 1, [] => return .ran none
  | fuel + 1, .mk condition body line :: rest => do
      if ← guard fuel line condition then do
        match ← block fuel body none with
        | .returned v => return .returned v
        | .ran _ => return .ran none
      else arms fuel rest

/-- Tests the guard of an arm. -/
def guard : (fuel : Nat) → (line : Nat) → Option Expr → Metered Bool
  | 0, _, _ => exhausted
  | _ + 1, _, none => return true
  | fuel + 1, line, some e => do
      let v ← require e.line (expr fuel e)
      Run.lift (v.asBool line)

/-- Runs statements up to the first return. -/
def block : (fuel : Nat) → List Statement → (last : Option Value) → Metered Ending
  | 0, _, _ => exhausted
  | _ + 1, [], last => return .ran last
  | fuel + 1, s :: rest, last => do
      match ← statement fuel s with
      | .returned v => return .returned v
      | .ran v => block fuel rest (v.or last)

end

/-- Runs a source text with fuel; it has no outcome when the fuel is spent. -/
def run (fuel : Nat) (source : String) (m : Machine) :
    Option (Except Failure (Option Value) × Machine) :=
  match readProgram source with
  | .error e => some (.error (.read e), m)
  | .ok ss =>
      (block fuel ss none m).map fun result =>
        match result with
        | .ok ending m' => (.ok ending.value, m')
        | .error e m' => (.error (.run e), m')

end Metered
end ColonScript
