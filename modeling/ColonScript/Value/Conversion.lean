import ColonScript.Number.Integer
import ColonScript.RunError

/-!
# Values where a certain kind is needed

Each conversion gives the content of a value of the right kind and fails on all others.
-/

namespace ColonScript
namespace Value

/-- The number that a value is. -/
def asNumber (line : Nat) : Value → Except RunError Float
  | number n => .ok n
  | _ => .error ⟨.expectedNumber, line⟩

/-- The cause of a failure to read `x` as an integer. -/
def integerCause (x : Float) : Number.NotInteger → RunCause
  | .notFinite => .notFinite x
  | .tooLarge => .tooLarge
  | .fractional => .fractional

/-- The integer that a number is. -/
def integerOf (line : Nat) (x : Float) : Except RunError Int :=
  match Number.toInteger x with
  | .ok i => .ok i
  | .error e => .error ⟨integerCause x e, line⟩

/-- The integer that a value is. -/
def asInteger (line : Nat) (v : Value) : Except RunError Int := do
  integerOf line (← v.asNumber line)

/-- The truth value that a condition is. -/
def asBool (line : Nat) : Value → Except RunError Bool
  | boolean b => .ok b
  | _ => .error ⟨.expectedBoolean, line⟩

/-- The elements of an array. -/
def asElements (line : Nat) : Value → Except RunError (List Value)
  | array es => .ok es
  | _ => .error ⟨.expectedArray, line⟩

end Value
end ColonScript
