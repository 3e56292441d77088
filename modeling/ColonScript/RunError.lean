import ColonScript.ReadError
import ColonScript.Value

/-!
# Errors of running programs

A run fails with a cause and the line it is reported on.
-/

namespace ColonScript

/-- How many calls of user functions may be active at the same time. -/
def callLimit : Nat := 5000

/-- The bounds of a loop. -/
inductive LoopBound where
  | first
  | last
deriving DecidableEq, Repr

/-- The name of a loop bound in messages. -/
def LoopBound.title : LoopBound → String
  | first => "start"
  | last => "end"

/-- The reasons why a run fails. -/
inductive RunCause where
  /-- A name that nothing was declared under. -/
  | unknownVariable (name : String)
  /-- A call of something that is not a function. -/
  | notCallable (name : String)
  /-- A declaration whose value is of another kind. -/
  | declaredKind (declared found : Kind)
  /-- An argument whose kind the parameter does not take. -/
  | argumentKind (parameter function : String) (required found : Kind)
  /-- Arithmetic on something other than two numbers. -/
  | operandKinds (op : BinaryOp) (left right : Kind)
  /-- An operator that is not an arithmetic one. -/
  | notArithmetic (op : BinaryOp)
  /-- Negation of something other than a number. -/
  | notNegatable (found : Kind)
  /-- An infinity or NaN where an integer is needed. -/
  | notFinite (value : Float)
  /-- A condition that is not a boolean. -/
  | expectedBoolean
  /-- Something other than a number where one is needed. -/
  | expectedNumber
  /-- Something other than an array where one is needed. -/
  | expectedArray
  /-- A call with a number of arguments that the function does not take. -/
  | argumentCount (function : String) (found : Nat)
  /-- A call without result where a value is needed. -/
  | missingValue
  /-- Division or remainder by zero. -/
  | divisionByZero
  /-- A loop bound that is not an integer, given by its text. -/
  | loopBound (bound : LoopBound) (found : String)
  /-- An index that no element has. -/
  | indexOutOfBounds (length : Nat) (index : Int)
  /-- An append whose target is not the name of a variable. -/
  | unnamedTarget
  /-- A fraction where an integer is needed. -/
  | fractional
  /-- A number beyond the integers that numbers tell apart. -/
  | tooLarge
  /-- A call while as many calls as allowed are active. -/
  | recursionLimit
  /-- Output that nobody receives. -/
  | closedOutput
deriving DecidableEq

/-- A failure of a run. -/
structure RunError where
  cause : RunCause
  line : Nat
deriving DecidableEq

/-- The end of a message that names the kind of what was found. -/
def foundKind (found : Kind) : String :=
  ", found a '" ++ found.word ++ "' value"

/-- The wording of a cause. -/
def RunCause.message : RunCause → String
  | unknownVariable name => "The identifier '" ++ name ++ "' was never declared as a variable"
  | notCallable name => "'" ++ name ++ "' is not a function"
  | declaredKind declared found =>
      "Type error: The '" ++ declared.word ++ "' type requires " ++ declared.requirement ++
        foundKind found
  | argumentKind parameter function required found =>
      "Type error: Functions should only be called with parameters of the correct type; '" ++
        parameter ++ "' of '" ++ function ++ "' requires " ++ required.requirement ++
        foundKind found
  | operandKinds op left right =>
      "Type error: Cannot use " ++ op.sign ++ " on a '" ++ left.word ++ "' and a '" ++
        right.word ++ "'"
  | notArithmetic op => "Type error: '" ++ op.sign ++ "' is not an arithmetic operator"
  | notNegatable found => "Type error: Cannot negate a '" ++ found.word ++ "' value"
  | notFinite value =>
      "Type error: Cannot convert non-finite value " ++ Decimal.Layout.plain.text value ++
        " to an integer"
  | expectedBoolean => "A condition must be a boolean"
  | expectedNumber => "Expected number"
  | expectedArray => "Expected array"
  | argumentCount function found =>
      "Function '" ++ function ++ "' cannot be called with " ++ toString found ++ " argument(s)"
  | missingValue => "Expression does not produce a value"
  | divisionByZero => "Division by zero"
  | loopBound bound found =>
      "Invalid loop bounds: the " ++ bound.title ++ " value must be an integer, found '" ++
        found ++ "'"
  | indexOutOfBounds length index =>
      "Index " ++ toString index ++ " is out of bounds for an array of length " ++
        toString length
  | unnamedTarget =>
      "Invalid argument: the first argument of 'push' must name an array variable"
  | fractional => "Value is fractional and cannot be used as an integer"
  | tooLarge => "Number is too large"
  | recursionLimit =>
      "Function calls nested deeper than " ++ toString callLimit ++ " levels"
  | closedOutput => "Could not write output: sending on a closed channel"

/-- The message of a failure. -/
def RunError.message (e : RunError) : String :=
  onLine e.line e.cause.message

end ColonScript
