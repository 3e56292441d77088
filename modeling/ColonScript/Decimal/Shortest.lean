import ColonScript.Decimal
import ColonScript.Number.Dyadic

/-!
# Shortest decimals

The decimal that stands for a positive double has the fewest digits among those that read back
as the double, and is the nearest to it among these.  All decimals `digits * 10 ^ exponent`
with the same exponent form a grid.  Grids are tried from coarse to fine; on each, only the two
neighbours of the value have to be looked at, since when any point of the grid reads back, so
does one of these.
-/

namespace ColonScript
namespace Decimal

/-- The numbers that read back as a double, as integers over a common denominator: the
double is `value / denominator`, and what reads back lies between `lower` and `upper`, ends
included if `closed`. -/
structure Interval where
  lower : Nat
  value : Nat
  upper : Nat
  denominator : Nat
  closed : Bool

/-- The interval around a positive dyadic number with a mantissa that fills the fraction bits
or has the least exponent.  Half way to the next double above and below is the limit; below the
least mantissa of its exponent the next double is only half as far away.  Ties read back as
the double with the even mantissa. -/
def Interval.around (d : Number.Dyadic) : Interval :=
  let power := Nat.pow 2 d.exponent.toNat
  let narrow :=
    d.mantissa = Nat.pow 2 Number.fractionBits ∧ Number.leastExponent < d.exponent
  let below := if narrow then 1 else 2
  { lower := (4 * d.mantissa - below) * power
    value := 4 * d.mantissa * power
    upper := (4 * d.mantissa + 2) * power
    denominator := 4 * Nat.pow 2 (-d.exponent).toNat
    closed := d.mantissa % 2 = 0 }

/-- The same interval in units of `10 ^ exponent`. -/
def Interval.inUnits (v : Interval) (exponent : Int) : Interval :=
  let up := Nat.pow 10 (-exponent).toNat
  { lower := v.lower * up
    value := v.value * up
    upper := v.upper * up
    denominator := v.denominator * Nat.pow 10 exponent.toNat
    closed := v.closed }

/-- Tests whether an integer reads back as the double. -/
def Interval.holds (v : Interval) (n : Nat) : Bool :=
  let point := n * v.denominator
  if v.closed then v.lower ≤ point && point ≤ v.upper
  else v.lower < point && point < v.upper

/-- The nearer of the value's two integer neighbours, the upper one when they are equally
near, among those that read back. -/
def Interval.nearest? (v : Interval) : Option Nat :=
  let low := v.value / v.denominator
  let high := low + 1
  match v.holds low, v.holds high with
  | true, true =>
      if 2 * (v.value % v.denominator) < v.denominator then some low else some high
  | true, false => some low
  | false, true => some high
  | false, false => none

/-- Goes from the grid of `10 ^ exponent` to finer ones, at most `steps` of them, up to the
first that has a point which reads back. -/
def firstHit (v : Interval) : (steps : Nat) → (exponent : Int) → Decimal
  | 0, exponent =>
      let scaled := v.inUnits exponent
      ⟨scaled.value / scaled.denominator, exponent⟩
  | steps + 1, exponent =>
      match (v.inUnits exponent).nearest? with
      | some digits => ⟨digits, exponent⟩
      | none => firstHit v steps (exponent - 1)

/-- An exponent whose power of ten exceeds twice the dyadic number.  A binary place is worth
a little less than `30103 / 100000` decimal places. -/
def coarsest (d : Number.Dyadic) : Int :=
  (d.exponent + d.mantissa.log2 + 2) * 30103 / 100000 + 2

/-- The shortest decimal that reads back as a positive dyadic number.  The value itself lies on
the grid of `10 ^ min exponent 0`, so the search ends there at the latest. -/
def shortest (d : Number.Dyadic) : Decimal :=
  let top := coarsest d
  firstHit (Interval.around d) (top - min d.exponent 0).toNat top

end Decimal
end ColonScript
