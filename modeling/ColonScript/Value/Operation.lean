import ColonScript.Number.Remainder
import ColonScript.RunError

/-!
# Operations on values

Arithmetic takes numbers only.  Any two values can be compared for equality.
-/

namespace ColonScript

/-- Arithmetic on two numbers.  Division and remainder by zero fail. -/
def BinaryOp.onNumbers (op : BinaryOp) (line : Nat) (l r : Float) : Except RunError Float :=
  match op with
  | add => .ok (l + r)
  | sub => .ok (l - r)
  | mul => .ok (l * r)
  | div => if r == 0.0 then .error ⟨.divisionByZero, line⟩ else .ok (l / r)
  | mod => if r == 0.0 then .error ⟨.divisionByZero, line⟩ else .ok (Number.remainder l r)
  | equal => .error ⟨.notArithmetic op, line⟩

/-- Arithmetic on two values. -/
def BinaryOp.arithmetic (op : BinaryOp) (line : Nat) (left right : Value) :
    Except RunError Value :=
  match left, right with
  | .number l, .number r => (op.onNumbers line l r).map Value.number
  | _, _ => .error ⟨.operandKinds op left.kind right.kind, line⟩

/-- An operator on two values. -/
def BinaryOp.apply (op : BinaryOp) (line : Nat) (left right : Value) :
    Except RunError Value :=
  match op with
  | equal => .ok (.boolean (left.equal right))
  | _ => op.arithmetic line left right

/-- Negation of a value. -/
def Value.negate (line : Nat) : Value → Except RunError Value
  | number n => .ok (.number (-n))
  | v => .error ⟨.notNegatable v.kind, line⟩

end ColonScript
