import ColonScript.Number.Integer
import Mathlib

/-!
# Integers and the numbers that denote them

The bits of a finite double denote a dyadic rational.  The number made for an integer within the
limit denotes exactly that integer (`exists_ofInteger?`), and no number is read as an integer
beyond the limit (`natAbs_le_of_toInteger`).
-/

namespace ColonScript
namespace Number

/-- The rational number that a dyadic number is. -/
def Dyadic.toRat (d : Dyadic) : ℚ :=
  (if d.negative then -1 else 1) * d.mantissa * 2 ^ d.exponent

/-- A finite double whose bits denote a rational number. -/
def Denotes (x : Float) (q : ℚ) : Prop :=
  ∃ d, decode x = .finite d ∧ d.toRat = q

/-! ## Bits -/

/-- Bits that are not those of a NaN or an infinity are kept. -/
theorem toBits_ofBits
    {b : UInt64} (h : b.toNat / 2 ^ 52 % 2 ^ 11 ≠ 2047) :
    (Float.ofBits b).toBits = b := by
  have hnan : @Float.Model.UnpackedFloat.isNaNBits .binary64 b.toBitVec = false := by
    rw [Float.Model.UnpackedFloat.isNaNBits, decide_eq_false_iff_not]
    rintro ⟨hexponent, -⟩
    have hfield := congrArg BitVec.toNat hexponent
    rw [Float.Model.UnpackedFloat.unpackExponent_def, BitVec.extractLsb'_toNat] at hfield
    apply h
    simpa [Nat.shiftRight_eq_div_pow] using hfield
  have hbits := @Float.Model.UnpackedFloat.pack_unpack .binary64 b.toBitVec (by decide)
  rw [hnan] at hbits
  exact congrArg UInt64.ofBitVec hbits

/-- The bits that a sign, an exponent field and a fraction make up. -/
def joinBits (negative : Bool) (exponent fraction : Nat) : Nat :=
  (if negative then 2 ^ 63 else 0) + exponent * 2 ^ 52 + fraction

section
variable (negative : Bool) {exponent fraction : Nat} (hexponent : exponent < 2047)
  (hfraction : fraction < 2 ^ 52)
include hexponent hfraction

theorem exponent_joinBits :
    joinBits negative exponent fraction / 2 ^ 52 % 2 ^ 11 = exponent := by
  unfold joinBits
  split <;> omega

theorem toNat_joinBits :
    (UInt64.ofNat (joinBits negative exponent fraction)).toNat =
      joinBits negative exponent fraction := by
  have hlt : joinBits negative exponent fraction < 2 ^ 64 := by
    unfold joinBits
    split <;> omega
  rw [UInt64.toNat_ofNat', Nat.mod_eq_of_lt hlt]

/-- Sign, exponent field and fraction are read off the bits that they make up. -/
theorem decode_joinBits :
    decode (Float.ofBits (UInt64.ofNat (joinBits negative exponent fraction))) =
      if exponent = 0 then .finite ⟨negative, fraction, leastExponent⟩
      else .finite ⟨negative, 2 ^ 52 + fraction, exponent + leastExponent - 1⟩ := by
  have hfield := exponent_joinBits negative hexponent hfraction
  have hbits := toNat_joinBits negative hexponent hfraction
  have hkept : (Float.ofBits (UInt64.ofNat (joinBits negative exponent fraction))).toBits =
      UInt64.ofNat (joinBits negative exponent fraction) := by
    apply toBits_ofBits
    rw [hbits, hfield]
    omega
  have hsign : decide (2 ^ 63 ≤ joinBits negative exponent fraction) = negative := by
    unfold joinBits
    cases negative <;> simp <;> omega
  have hlow : joinBits negative exponent fraction % 2 ^ 52 = fraction := by
    unfold joinBits
    split <;> omega
  unfold decode
  simp only [hkept, hbits, fractionBits, Nat.pow_eq, hfield, hsign, hlow]
  rw [if_neg (by omega)]

end

/-! ## Integers -/

theorem log2_le_of_lt
    {n : Nat} (hpos : 0 < n) (hlt : n < 2 ^ 53) :
    n.log2 ≤ 52 :=
  Nat.le_of_lt_succ ((Nat.log2_lt (Nat.ne_of_gt hpos)).mpr hlt)

/-- A magnitude below `2 ^ 53` fills the fraction bits when it is moved up by its headroom. -/
theorem filled_of_lt
    {n : Nat} (hpos : 0 < n) (hlt : n < 2 ^ 53) :
    2 ^ 52 ≤ n * 2 ^ (52 - n.log2) ∧ n * 2 ^ (52 - n.log2) < 2 ^ 53 := by
  have hlog := log2_le_of_lt hpos hlt
  have hlow : 2 ^ n.log2 ≤ n := Nat.log2_self_le (Nat.ne_of_gt hpos)
  have hhigh : n < 2 ^ (n.log2 + 1) := Nat.lt_log2_self
  have hunit : 0 < 2 ^ (52 - n.log2) := Nat.two_pow_pos _
  constructor
  · calc 2 ^ 52 = 2 ^ n.log2 * 2 ^ (52 - n.log2) := by rw [← pow_add, Nat.add_sub_cancel' hlog]
      _ ≤ n * 2 ^ (52 - n.log2) := Nat.mul_le_mul_right _ hlow
  · calc n * 2 ^ (52 - n.log2) < 2 ^ (n.log2 + 1) * 2 ^ (52 - n.log2) :=
          Nat.mul_lt_mul_of_pos_right hhigh hunit
      _ = 2 ^ 53 := by rw [← pow_add, Nat.add_right_comm, Nat.add_sub_cancel' hlog]

/-- The bits of a positive integer: its leading digit is left out, and the exponent field says by
how much it was moved up. -/
theorem bits_of_pos
    (negative : Bool) {n : Nat} (hpos : 0 < n) (hlt : n < 2 ^ 53) :
    Dyadic.bits ⟨negative, n, 0⟩ =
      joinBits negative (1023 + n.log2) (n * 2 ^ (52 - n.log2) - 2 ^ 52) := by
  have hlog := log2_le_of_lt hpos hlt
  obtain ⟨hlow, hhigh⟩ := filled_of_lt hpos hlt
  have hheadroom : Dyadic.headroom ⟨negative, n, 0⟩ = 52 - n.log2 := by
    simp only [Dyadic.headroom, fractionBits, leastExponent]
    omega
  have hfield : (0 - ((52 - n.log2 : Nat) : Int) - leastExponent).toNat = 1022 + n.log2 := by
    simp only [leastExponent]
    omega
  simp only [Dyadic.bits, hheadroom, hfield, fractionBits, Nat.pow_eq, joinBits]
  rw [if_neg (by omega)]
  omega

/-- The number made for an integer within the limit denotes the integer. -/
theorem denotes_toFloat
    (negative : Bool) {n : Nat} (hlt : n < 2 ^ 53) :
    Denotes (Dyadic.toFloat ⟨negative, n, 0⟩) ((if negative then -1 else 1) * n) := by
  rw [Denotes, Dyadic.toFloat]
  rcases Nat.eq_zero_or_pos n with rfl | hpos
  · have hbits : Dyadic.bits ⟨negative, 0, 0⟩ = joinBits negative 0 0 := by
      cases negative <;> rfl
    rw [hbits, decode_joinBits negative (by omega) (by omega)]
    exact ⟨_, rfl, by simp [Dyadic.toRat]⟩
  · obtain ⟨hlow, hhigh⟩ := filled_of_lt hpos hlt
    have hlog := log2_le_of_lt hpos hlt
    rw [bits_of_pos negative hpos hlt, decode_joinBits negative (by omega) (by omega),
      if_neg (by omega)]
    refine ⟨_, rfl, ?_⟩
    have hexponent : ((1023 + n.log2 : Nat) : Int) + leastExponent - 1 =
        -((52 - n.log2 : Nat) : Int) := by
      simp only [leastExponent]
      omega
    rw [Dyadic.toRat, hexponent, Nat.add_sub_cancel' hlow]
    push_cast
    rw [zpow_neg, zpow_natCast]
    field_simp

/-- Every integer within the limit has a number, which denotes exactly that integer. -/
theorem exists_ofInteger?
    {i : Int} (h : i.natAbs ≤ integerLimit) :
    ∃ x, ofInteger? i = some x ∧ Denotes x i := by
  have hlt : i.natAbs < 2 ^ 53 := by
    rw [integerLimit, Nat.pow_eq] at h
    omega
  refine ⟨_, if_pos h, ?_⟩
  have hdenotes := denotes_toFloat (decide (i < 0)) hlt
  have hvalue : (if decide (i < 0) then -1 else 1) * (i.natAbs : ℚ) = i := by
    rw [Nat.cast_natAbs]
    rcases lt_or_ge i 0 with hneg | hnonneg
    · rw [if_pos (by simpa using hneg), abs_of_neg hneg]
      push_cast
      ring
    · rw [if_neg (by simpa using hnonneg), abs_of_nonneg hnonneg, one_mul]
  rw [hvalue] at hdenotes
  exact hdenotes

/-! ## Dyadic numbers that are integers -/

namespace Dyadic

variable {d : Dyadic}

theorem abs_toRat
    (d : Dyadic) :
    |d.toRat| = d.mantissa * 2 ^ d.exponent := by
  have hsign : |(if d.negative then -1 else 1 : ℚ)| = 1 := by
    split <;> simp
  rw [toRat, abs_mul, abs_mul, hsign, one_mul, Nat.abs_cast, abs_of_pos (zpow_pos two_pos _)]

/-- A power of two becomes whole when it is multiplied by its denominator. -/
theorem two_zpow_mul_denominator
    (e : ℤ) :
    (2 : ℚ) ^ e * 2 ^ (-e).toNat = 2 ^ e.toNat := by
  rw [← zpow_natCast, ← zpow_natCast, ← zpow_add₀ two_ne_zero]
  congr 1
  omega

/-- On a common denominator, an integer that a dyadic number is has the magnitude of its
mantissa. -/
theorem natAbs_of_toRat
    {i : Int} (h : d.toRat = i) :
    i.natAbs * 2 ^ (-d.exponent).toNat = d.mantissa * 2 ^ d.exponent.toNat := by
  have habs := d.abs_toRat
  rw [h] at habs
  have hscaled : |(i : ℚ)| * 2 ^ (-d.exponent).toNat = d.mantissa * 2 ^ d.exponent.toNat := by
    rw [habs, mul_assoc, two_zpow_mul_denominator]
  rw [← Int.cast_abs, Int.abs_eq_natAbs] at hscaled
  exact_mod_cast hscaled

theorem toRat_of_toInt?
    {i : Int} (h : d.toInt? = some i) :
    d.toRat = i := by
  unfold toInt? at h
  simp only [Nat.pow_eq] at h
  split at h
  · next hdivides =>
    obtain rfl := Option.some.inj h
    obtain ⟨quotient, hquotient⟩ := Nat.dvd_of_mod_eq_zero hdivides
    have hvalue : (d.mantissa : ℚ) * 2 ^ d.exponent = quotient * 2 ^ d.exponent.toNat := by
      rw [hquotient, ← two_zpow_mul_denominator]
      push_cast
      ring
    rw [hquotient, Nat.mul_div_cancel_left _ (Nat.two_pow_pos _), toRat, mul_assoc, hvalue]
    split <;> push_cast <;> ring
  · cases h

end Dyadic

/-- No number is read as an integer beyond the limit. -/
theorem natAbs_le_of_toInteger
    {x : Float} {i : Int} (h : toInteger x = .ok i) :
    i.natAbs ≤ integerLimit := by
  unfold toInteger at h
  split at h
  · cases h
  · cases h
  · next d _ =>
    split at h
    · cases h
    · next hwithin =>
      split at h
      · next hinteger =>
        cases h
        simp only [Dyadic.exceedsLimit, Nat.pow_eq, decide_eq_true_eq, not_lt] at hwithin
        rw [← Dyadic.natAbs_of_toRat (Dyadic.toRat_of_toInt? hinteger)] at hwithin
        exact Nat.le_of_mul_le_mul_right hwithin (Nat.two_pow_pos _)
      · cases h

end Number
end ColonScript
