import ColonScript.Number.Dyadic

/-!
# The remainder of two numbers

The remainder is exact: it is what is left of the left operand after taking away the largest
whole multiple of the right one, and it has the left operand's sign.
-/

namespace ColonScript
namespace Number

/-- The remainder of two dyadic numbers on their common power of two. -/
def Dyadic.rem (x y : Dyadic) : Dyadic :=
  let exponent := min x.exponent y.exponent
  let left := x.mantissa * Nat.pow 2 (x.exponent - exponent).toNat
  let right := y.mantissa * Nat.pow 2 (y.exponent - exponent).toNat
  ⟨x.negative, left % right, exponent⟩

/-- The exact remainder with the sign of the left operand.  There is none of an infinity or by
zero, and an infinite right operand leaves the left one as it is. -/
def remainder (x y : Float) : Float :=
  match decode x, decode y with
  | .finite a, .finite b =>
      if b.mantissa = 0 then Float.ofBits 0x7ff8000000000000 else (a.rem b).toFloat
  | .finite _, .infinite _ => x
  | _, _ => Float.ofBits 0x7ff8000000000000

end Number
end ColonScript
