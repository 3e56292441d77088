import ColonScript.Number.Dyadic

/-!
# Numbers as integers

Conversions between numbers and integers that never lose anything.  Only the integers up to
`2 ^ 53 - 1` in magnitude take part, since beyond them neighbouring integers share a double.
-/

namespace ColonScript
namespace Number

/-- The largest magnitude of an integer that takes part in conversions. -/
def integerLimit : Nat := Nat.pow 2 53 - 1

/-- Why a number is not usable as an integer. -/
inductive NotInteger where
  | notFinite
  | tooLarge
  | fractional
deriving DecidableEq

/-- The magnitude of a dyadic number exceeds `integerLimit`. -/
def Dyadic.exceedsLimit (d : Dyadic) : Bool :=
  integerLimit * Nat.pow 2 (-d.exponent).toNat < d.mantissa * Nat.pow 2 d.exponent.toNat

/-- The integer that a dyadic number denotes, if it denotes one. -/
def Dyadic.toInt? (d : Dyadic) : Option Int :=
  let denominator := Nat.pow 2 (-d.exponent).toNat
  if d.mantissa % denominator = 0 then
    let magnitude : Int := (d.mantissa / denominator * Nat.pow 2 d.exponent.toNat : Nat)
    some (if d.negative then -magnitude else magnitude)
  else none

/-- Reads a number as an integer: it must be finite, within the limit and without a fraction,
checked in this order. -/
def toInteger (x : Float) : Except NotInteger Int :=
  match decode x with
  | .notANumber | .infinite _ => .error .notFinite
  | .finite d =>
      if d.exceedsLimit then .error .tooLarge
      else
        match d.toInt? with
        | some i => .ok i
        | none => .error .fractional

/-- The number that denotes an integer, for integers within the limit. -/
def ofInteger? (i : Int) : Option Float :=
  if i.natAbs ≤ integerLimit then
    some (Dyadic.toFloat ⟨decide (i < 0), i.natAbs, 0⟩)
  else none

end Number
end ColonScript
