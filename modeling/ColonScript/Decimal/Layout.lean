import ColonScript.Decimal.Shortest

/-!
# Layouts of numbers

A number is written with its shortest digits.  A layout decides between positional notation
and notation with an exponent, and whether a whole number keeps a fractional digit.
-/

namespace ColonScript
namespace Decimal

/-- The decisions of a format for numbers. -/
structure Layout where
  /-- The positions of the point at which a number is written out without an exponent. -/
  writesOut : Int → Bool
  /-- Whole numbers in positional notation end in `.0`. -/
  keepsFraction : Bool

/-- All numbers are written out, whole ones without a fraction. -/
def Layout.plain : Layout :=
  ⟨fun _ => true, false⟩

/-- Numbers from `0.0001` on and below `10 ^ 16` are written out with at least one fractional
digit, all others with an exponent. -/
def Layout.literal : Layout :=
  ⟨fun point => -3 ≤ point && point ≤ 16, true⟩

/-- A decimal written out by the position of its point. -/
def positional (keepsFraction : Bool) (d : Decimal) : List Char :=
  let digits := d.digitChars
  let point := d.point
  if point ≤ 0 then
    ['0', '.'] ++ List.replicate (-point).toNat '0' ++ digits
  else if digits.length ≤ point.toNat then
    digits ++ List.replicate (point.toNat - digits.length) '0' ++
      (if keepsFraction then ['.', '0'] else [])
  else
    digits.take point.toNat ++ ['.'] ++ digits.drop point.toNat

/-- A decimal with one digit before the point and an exponent. -/
def scientific (d : Decimal) : List Char :=
  let fraction := d.digitChars.drop 1
  d.digitChars.take 1 ++ (if fraction.isEmpty then [] else '.' :: fraction) ++
    'e' :: (toString (d.point - 1)).toList

/-- A decimal in a layout. -/
def Layout.decimal (layout : Layout) (d : Decimal) : List Char :=
  if layout.writesOut d.point then d.positional layout.keepsFraction else d.scientific

/-- The magnitude of a dyadic number in a layout.  Zero has no shortest decimal of its own. -/
def Layout.magnitude (layout : Layout) (d : Number.Dyadic) : List Char :=
  if d.mantissa = 0 then (if layout.keepsFraction then ['0', '.', '0'] else ['0'])
  else layout.decimal (shortest d)

/-- The sign that is written before a magnitude. -/
def signChars (negative : Bool) : List Char :=
  if negative then ['-'] else []

/-- The text of a number in a layout. -/
def Layout.chars (layout : Layout) (x : Float) : List Char :=
  match Number.decode x with
  | .notANumber => ['N', 'a', 'N']
  | .infinite negative => signChars negative ++ ['i', 'n', 'f']
  | .finite d => signChars d.negative ++ layout.magnitude d

/-- The text of a number in a layout. -/
def Layout.text (layout : Layout) (x : Float) : String :=
  String.ofList (layout.chars x)

end Decimal
end ColonScript
