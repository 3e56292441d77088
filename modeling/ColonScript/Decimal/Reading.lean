import ColonScript.Decimal

/-!
# Reading decimals

Numbers are read to the nearest double, ties going to the even one.  A decimal numeral has
digits with at most one point among or around them, and where it is written in a text also a
sign and an exponent.
-/

namespace ColonScript
namespace Decimal

/-- A power of ten that a decimal other than zero reaches, since ten binary digits hold three
decimal ones. -/
def reachedPower (d : Decimal) : Int :=
  (3 * d.digits.log2 / 10 : Nat) + d.exponent

/-- A power of ten that a decimal stays below, since a decimal digit holds three binary ones. -/
def exceedingPower (d : Decimal) : Int :=
  (d.digits.log2 / 3 + 1 : Nat) + d.exponent

/-- The double nearest to a decimal.  Well below and well above all doubles the magnitude of the
decimal alone tells that this is zero or infinity. -/
def toFloat (d : Decimal) : Float :=
  if d.digits = 0 || d.exceedingPower < -330 then Float.ofBits 0
  else if 310 < d.reachedPower then Float.ofBits 0x7ff0000000000000
  else if 0 ≤ d.exponent then Float.ofScientific d.digits false d.exponent.toNat
  else Float.ofScientific d.digits true (-d.exponent).toNat

/-- The decimal written by the digits before and after a point. -/
def ofDigits (whole fraction : List Char) : Decimal :=
  ⟨digitsValue (whole ++ fraction), -fraction.length⟩

/-- A numeral in parts: the digits before and after the point and the exponent. -/
structure Numeral where
  negative : Bool
  whole : List Char
  fraction : List Char
  exponent : Int
deriving DecidableEq

/-- Takes an optional sign off the front. -/
def splitSign : List Char → Bool × List Char
  | '+' :: cs => (false, cs)
  | '-' :: cs => (true, cs)
  | cs => (false, cs)

/-- Takes the longest run of decimal digits off the front. -/
def splitDigits (cs : List Char) : List Char × List Char :=
  (cs.takeWhile Char.isDigit, cs.dropWhile Char.isDigit)

/-- Takes a point and the digits after it off the front, if there is a point. -/
def splitFraction : List Char → List Char × List Char
  | '.' :: cs => splitDigits cs
  | cs => ([], cs)

/-- Reads a whole text as an optional exponent: a letter `e`, an optional sign and digits. -/
def readExponent? : List Char → Option Int
  | [] => some 0
  | c :: cs =>
      let (negative, digits) := splitSign cs
      if (c = 'e' || c = 'E') && !digits.isEmpty && digits.all Char.isDigit then
        some (if negative then -(digitsValue digits : Int) else digitsValue digits)
      else none

/-- Reads a whole text as a numeral. -/
def readNumeral? (cs : List Char) : Option Numeral :=
  let (negative, unsigned) := splitSign cs
  let (whole, afterWhole) := splitDigits unsigned
  let (fraction, afterFraction) := splitFraction afterWhole
  if whole.isEmpty && fraction.isEmpty then none
  else (readExponent? afterFraction).map fun exponent => ⟨negative, whole, fraction, exponent⟩

/-- The decimal that a numeral writes, its sign aside. -/
def Numeral.magnitude (n : Numeral) : Decimal :=
  ⟨digitsValue (n.whole ++ n.fraction), n.exponent - n.fraction.length⟩

/-- The double nearest to a numeral. -/
def Numeral.toFloat (n : Numeral) : Float :=
  if n.negative then -n.magnitude.toFloat else n.magnitude.toFloat

/-- Reads a whole text as a finite number. -/
def readFinite? (cs : List Char) : Option Float :=
  ((readNumeral? cs).map Numeral.toFloat).filter Float.isFinite

end Decimal
end ColonScript
