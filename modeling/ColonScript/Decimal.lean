/-!
# Decimals

A decimal is a natural number times a power of ten.  This is what the digits of a numeral say
before they are rounded to a number.
-/

namespace ColonScript

/-- A decimal number `digits * 10 ^ exponent`. -/
structure Decimal where
  digits : Nat
  exponent : Int
deriving DecidableEq, Repr

namespace Decimal

/-- The natural number written by a list of decimal digits. -/
def digitsValue (digits : List Char) : Nat :=
  digits.foldl (fun value c => 10 * value + (c.toNat - '0'.toNat)) 0

/-- The digits of a decimal, most significant first. -/
def digitChars (d : Decimal) : List Char :=
  Nat.toDigits 10 d.digits

/-- The position of the point of a decimal: the number is `0.d₁d₂… * 10 ^ point`. -/
def point (d : Decimal) : Int :=
  d.digitChars.length + d.exponent

end Decimal
end ColonScript
