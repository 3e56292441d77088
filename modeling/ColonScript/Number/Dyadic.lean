/-!
# Doubles as dyadic numbers

A number of the language is a double.  Its bits denote a NaN, an infinity or a signed integer
times a power of two; `decode` reads that meaning off the bits and `Dyadic.toFloat` writes it
back.
-/

namespace ColonScript
namespace Number

/-- A signed integer times a power of two: `± mantissa * 2 ^ exponent`.  The sign is kept for
a zero mantissa too. -/
structure Dyadic where
  negative : Bool
  mantissa : Nat
  exponent : Int
deriving DecidableEq

/-- What the bits of a double denote. -/
inductive Decoded where
  | notANumber
  | infinite (negative : Bool)
  | finite (value : Dyadic)
deriving DecidableEq

/-- The number of fraction bits of a double. -/
def fractionBits : Nat := 52

/-- The exponent of the least positive double. -/
def leastExponent : Int := -1074

/-- Reads the meaning of a double off its sign bit, eleven exponent bits and fraction bits. -/
def decode (x : Float) : Decoded :=
  let bits := x.toBits.toNat
  let negative := decide (Nat.pow 2 63 ≤ bits)
  let exponent : Nat := bits / Nat.pow 2 fractionBits % Nat.pow 2 11
  let fraction := bits % Nat.pow 2 fractionBits
  if exponent = 2047 then
    if fraction = 0 then .infinite negative else .notANumber
  else if exponent = 0 then
    .finite ⟨negative, fraction, leastExponent⟩
  else
    .finite ⟨negative, Nat.pow 2 fractionBits + fraction, exponent + leastExponent - 1⟩

/-- The places by which a mantissa is moved up to fill the fraction bits, without going below
the least exponent. -/
def Dyadic.headroom (d : Dyadic) : Nat :=
  min (fractionBits - d.mantissa.log2) (d.exponent - leastExponent).toNat

/-- The bits of the double that denotes a dyadic number, for mantissas below `2 ^ 53` and
exponents from `leastExponent` on as far as doubles go. -/
def Dyadic.bits (d : Dyadic) : Nat :=
  let mantissa := d.mantissa * Nat.pow 2 d.headroom
  let exponent := d.exponent - d.headroom
  let sign := if d.negative then Nat.pow 2 63 else 0
  if mantissa < Nat.pow 2 fractionBits then sign + mantissa
  else sign + (exponent - leastExponent).toNat * Nat.pow 2 fractionBits + mantissa

/-- The double that denotes a dyadic number. -/
def Dyadic.toFloat (d : Dyadic) : Float :=
  Float.ofBits (UInt64.ofNat d.bits)

end Number
end ColonScript
