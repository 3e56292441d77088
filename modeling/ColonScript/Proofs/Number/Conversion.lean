import ColonScript.Proofs.Number.Exactness
import ColonScript.Proofs.Value.Equality

/-!
# Conversions between numbers and integers

The bits of a double denote a rational number, unless they are those of an infinity or a NaN
(`denoted?`).  Whether a number is read as an integer, and why it is not, depends on this rational
number only: whether there is one, whether it is within the limit and whether it is an integer, in
this order.  Integers within the limit come back from the numbers that are made for them, and
numbers come back from the integers they are read as, up to the sign of a zero
(`integer_conversions_are_exact`).
-/

namespace ColonScript
namespace Number

/-! ## What bits denote -/

/-- The eleven bits of the exponent. -/
def exponentField (bits : UInt64) : Nat :=
  bits.toNat / 2 ^ 52 % 2 ^ 11

/-- The rational number that the bits of a double denote.  There is none if all bits of the exponent
are set; the leading digit is zero if none is, and one otherwise. -/
def denoted? (bits : UInt64) : Option ℚ :=
  let sign : ℚ := (-1) ^ (bits.toNat / 2 ^ 63)
  let fraction : ℚ := (bits.toNat % 2 ^ 52 : Nat) / 2 ^ 52
  if exponentField bits = 2047 then none
  else if exponentField bits = 0 then some (sign * fraction * 2 ^ (-1022 : ℤ))
  else some (sign * (1 + fraction) * 2 ^ ((exponentField bits : ℤ) - 1023))

theorem sign_eq
    (bits : UInt64) :
    ((-1) ^ (bits.toNat / 2 ^ 63) : ℚ) = if 2 ^ 63 ≤ bits.toNat then -1 else 1 := by
  have hlt : bits.toNat < 2 ^ 64 := bits.toNat_lt
  split
  · next hneg =>
    have hquotient : bits.toNat / 2 ^ 63 = 1 := by omega
    rw [hquotient, pow_one]
  · next hpos =>
    have hquotient : bits.toNat / 2 ^ 63 = 0 := by omega
    rw [hquotient, pow_zero]

/-- The rational number that a decoded double is, if it is finite. -/
def Decoded.toRat? : Decoded → Option ℚ
  | finite d => some d.toRat
  | notANumber | infinite _ => none

theorem decode_eq
    (x : Float) :
    decode x =
      if exponentField x.toBits = 2047 then
        if x.toBits.toNat % 2 ^ 52 = 0 then .infinite (decide (2 ^ 63 ≤ x.toBits.toNat))
        else .notANumber
      else if exponentField x.toBits = 0 then
        .finite ⟨decide (2 ^ 63 ≤ x.toBits.toNat), x.toBits.toNat % 2 ^ 52, leastExponent⟩
      else
        .finite ⟨decide (2 ^ 63 ≤ x.toBits.toNat), 2 ^ 52 + x.toBits.toNat % 2 ^ 52,
          exponentField x.toBits + leastExponent - 1⟩ :=
  rfl

theorem two_zpow_sub_fractionBits
    (e : ℤ) :
    (2 : ℚ) ^ (e - 52) = 2 ^ e / 2 ^ 52 := by
  rw [zpow_sub₀ two_ne_zero]
  norm_cast

/-- Decoding a double gives what its bits denote. -/
theorem toRat?_decode
    (x : Float) :
    (decode x).toRat? = denoted? x.toBits := by
  rw [decode_eq, denoted?, sign_eq]
  by_cases hall : exponentField x.toBits = 2047
  · rw [if_pos hall, if_pos hall, apply_ite Decoded.toRat?]
    exact ite_self none
  rw [if_neg hall, if_neg hall]
  by_cases hnone : exponentField x.toBits = 0
  · have hleast : leastExponent = -1022 - 52 := rfl
    rw [if_pos hnone, if_pos hnone, Decoded.toRat?, Dyadic.toRat, hleast,
      two_zpow_sub_fractionBits]
    simp only [decide_eq_true_eq]
    ring_nf
  · have hmoved : (exponentField x.toBits : ℤ) + leastExponent - 1 =
        exponentField x.toBits - 1023 - 52 := by
      simp only [leastExponent]
      ring
    rw [if_neg hnone, if_neg hnone, Decoded.toRat?, Dyadic.toRat, hmoved,
      two_zpow_sub_fractionBits]
    simp only [decide_eq_true_eq]
    push_cast
    ring_nf

/-- The exponent of an infinity and of a NaN is kept, whatever happens to the fraction. -/
theorem exponentField_ofBits
    (bits : UInt64) (h : exponentField bits = 2047) :
    exponentField (Float.ofBits bits).toBits = 2047 := by
  have hbits := @Float.Model.UnpackedFloat.pack_unpack .binary64 bits.toBitVec (by decide)
  have hkept : (Float.ofBits bits).toBits = UInt64.ofBitVec _ := congrArg UInt64.ofBitVec hbits
  rw [hkept]
  split
  · decide
  · exact h

/-- A double that is made from bits denotes what the bits denote. -/
theorem denoted?_toBits_ofBits
    (bits : UInt64) :
    denoted? (Float.ofBits bits).toBits = denoted? bits := by
  by_cases h : exponentField bits = 2047
  · have hfield := exponentField_ofBits bits h
    rw [denoted?, denoted?, if_pos h, if_pos hfield]
  · rw [toBits_ofBits h]

/-! ## NaNs and infinities -/

section
open Float.Model

theorem exponentField_eq_unpackExponent
    (bits : UInt64) :
    exponentField bits = (@UnpackedFloat.unpackExponent .binary64 bits.toBitVec).toNat := by
  rw [UnpackedFloat.unpackExponent_def, BitVec.extractLsb'_toNat, Nat.shiftRight_eq_div_pow]
  rfl

theorem exponentField_eq_max_iff
    (x : Float) :
    exponentField x.toBits = 2047 ↔ x.isNaN = true ∨ x.isInf = true := by
  have hfield : exponentField x.toBits = 2047 ↔
      @UnpackedFloat.unpackExponent .binary64 x.toBits.toBitVec = -1#_ := by
    rw [exponentField_eq_unpackExponent, ← BitVec.toNat_inj]
    rfl
  rw [hfield]
  -- Both tests look at the unpacked form, for which the exponent is compared first.
  change _ ↔ (UnpackedFloat.unpack .binary64 x.toBits.toBitVec).isNaN = true ∨
    (UnpackedFloat.unpack .binary64 x.toBits.toBitVec).isInf = true
  unfold UnpackedFloat.unpack
  dsimp only
  split
  · next hall =>
    refine iff_of_true hall ?_
    split
    · exact .inr rfl
    · exact .inl rfl
  · next hsome =>
    refine iff_of_false hsome ?_
    split
    · split <;> simp [UnpackedFloat.isNaN, UnpackedFloat.isInf]
    · simp [UnpackedFloat.isNaN, UnpackedFloat.isInf]

end

/-- Bits denote no rational number exactly if they are those of a NaN or an infinity. -/
theorem denoted?_eq_none_iff
    (x : Float) :
    denoted? x.toBits = none ↔ x.isNaN = true ∨ x.isInf = true := by
  rw [← exponentField_eq_max_iff, denoted?]
  split
  · next hall => exact iff_of_true rfl hall
  · next hsome =>
    refine iff_of_false ?_ hsome
    split <;> exact Option.some_ne_none _

/-! ## Limit, integers and canonical forms -/

namespace Dyadic

variable {d : Dyadic}

theorem exceedsLimit_iff
    (d : Dyadic) :
    d.exceedsLimit = true ↔ (integerLimit : ℚ) < |d.toRat| := by
  have hpos : (0 : ℚ) < 2 ^ (-d.exponent).toNat := by positivity
  rw [abs_toRat, ← mul_lt_mul_iff_left₀ hpos, mul_assoc, two_zpow_mul_denominator]
  simp only [exceedsLimit, decide_eq_true_eq, Nat.pow_eq]
  exact_mod_cast Iff.rfl

theorem denominator_dvd
    {i : Int} (h : d.toRat = i) :
    2 ^ (-d.exponent).toNat ∣ d.mantissa := by
  have hscaled := natAbs_of_toRat h
  rcases le_total 0 d.exponent with hwhole | hbelow
  · rw [Int.toNat_of_nonpos (by omega), pow_zero]
    exact one_dvd _
  · rw [Int.toNat_of_nonpos hbelow, pow_zero, mul_one] at hscaled
    exact Dvd.intro_left _ hscaled

theorem toInt?_eq_some_iff
    (d : Dyadic) (i : Int) :
    d.toInt? = some i ↔ d.toRat = i := by
  refine ⟨toRat_of_toInt?, fun h => ?_⟩
  obtain ⟨j, hj⟩ : ∃ j, d.toInt? = some j :=
    ⟨_, if_pos (Nat.mod_eq_zero_of_dvd (denominator_dvd h))⟩
  have hsame : (j : ℚ) = i := (toRat_of_toInt? hj).symm.trans h
  rw [hj, Int.cast_injective hsame]

/-- A mantissa fits the bits of a double, and it fills them unless the exponent is the least
one. -/
structure Canonical (d : Dyadic) : Prop where
  mantissa_lt : d.mantissa < 2 ^ 53
  least_le : leastExponent ≤ d.exponent
  filled : d.exponent ≠ leastExponent → 2 ^ 52 ≤ d.mantissa

theorem Canonical.exponent_le
    {d d' : Dyadic} (hd : d.Canonical) (hd' : d'.Canonical) (h : |d.toRat| = |d'.toRat|) :
    d'.exponent ≤ d.exponent := by
  by_contra hlt
  -- A filled mantissa at a higher exponent is more than what fits at the lower one.
  obtain ⟨gap, hgap⟩ : ∃ gap : Nat, d'.exponent = d.exponent + (gap + 1 : Nat) :=
    ⟨(d'.exponent - d.exponent - 1).toNat, by omega⟩
  have hscaled : (d.mantissa : ℚ) = d'.mantissa * 2 ^ (gap + 1) := by
    have hunit : (2 : ℚ) ^ d.exponent ≠ 0 := zpow_ne_zero _ two_ne_zero
    rw [abs_toRat, abs_toRat, hgap, zpow_add₀ two_ne_zero, zpow_natCast] at h
    apply mul_right_cancel₀ hunit
    rw [h]
    ring
  have hfilled := hd'.filled (by have := hd.least_le; omega)
  have hmantissa : d.mantissa = d'.mantissa * 2 ^ (gap + 1) := by exact_mod_cast hscaled
  have hover : 2 ^ 52 * 2 ^ 1 ≤ d'.mantissa * 2 ^ (gap + 1) :=
    Nat.mul_le_mul hfilled (Nat.pow_le_pow_right two_pos (by omega))
  have := hd.mantissa_lt
  omega

/-- Canonical dyadic numbers of the same magnitude have the same mantissa and exponent. -/
theorem Canonical.unique
    {d d' : Dyadic} (hd : d.Canonical) (hd' : d'.Canonical) (h : |d.toRat| = |d'.toRat|) :
    d.mantissa = d'.mantissa ∧ d.exponent = d'.exponent := by
  have hexponent : d.exponent = d'.exponent :=
    le_antisymm (hd'.exponent_le hd h.symm) (hd.exponent_le hd' h)
  refine ⟨?_, hexponent⟩
  rw [abs_toRat, abs_toRat, hexponent] at h
  exact_mod_cast mul_right_cancel₀ (zpow_ne_zero _ two_ne_zero) h

/-- Canonical dyadic numbers that are the same rational number differ in the sign of a zero at
most. -/
theorem Canonical.eq_or_zero
    {d d' : Dyadic} (hd : d.Canonical) (hd' : d'.Canonical) (h : d.toRat = d'.toRat) :
    d = d' ∨ d.mantissa = 0 ∧ d'.mantissa = 0 := by
  obtain ⟨hmantissa, hexponent⟩ := hd.unique hd' (by rw [h])
  by_cases hsign : d.negative = d'.negative
  · left
    cases d
    cases d'
    cases hsign
    cases hmantissa
    cases hexponent
    rfl
  · right
    have hunit : (2 : ℚ) ^ d'.exponent ≠ 0 := zpow_ne_zero _ two_ne_zero
    have hopposite : (d'.mantissa : ℚ) = -d'.mantissa := by
      apply mul_right_cancel₀ hunit
      rw [toRat, toRat, hmantissa, hexponent] at h
      cases hnegative : d.negative <;> cases hnegative' : d'.negative
      · exact absurd (hnegative.trans hnegative'.symm) hsign
      · simpa [hnegative, hnegative'] using h
      · simpa [hnegative, hnegative'] using h.symm
      · exact absurd (hnegative.trans hnegative'.symm) hsign
    have hzero : d'.mantissa = 0 := by exact_mod_cast self_eq_neg.mp hopposite
    exact ⟨hmantissa.trans hzero, hzero⟩

end Dyadic

/-! ## Numbers that denote the same -/

section
variable {x : Float} {d : Dyadic} (h : decode x = .finite d)
include h

theorem canonical_of_decode :
    d.Canonical := by
  have hfraction : x.toBits.toNat % 2 ^ 52 < 2 ^ 52 := Nat.mod_lt _ (Nat.two_pow_pos 52)
  rw [decode_eq] at h
  split at h
  · split at h <;> cases h
  · split at h <;> cases h
    · exact ⟨by dsimp only; omega, le_refl _, fun hne => absurd rfl hne⟩
    · exact ⟨by dsimp only; omega, by dsimp only; omega, fun _ => Nat.le_add_right _ _⟩

theorem toBits_of_decode :
    x.toBits.toNat = (if d.negative then 2 ^ 63 else 0) +
      (d.exponent - leastExponent).toNat * 2 ^ 52 + d.mantissa := by
  have hlt : x.toBits.toNat < 2 ^ 64 := x.toBits.toNat_lt
  rw [decode_eq] at h
  split at h
  · split at h <;> cases h
  · next hsome =>
    split at h <;> cases h
    all_goals
      simp only [decide_eq_true_eq, exponentField] at *
      split <;> omega

/-- A double is finite, thus no NaN. -/
theorem isNaN_of_decode :
    x.isNaN = false := by
  rw [Float.isNaN_eq_decide_eq_nan, decide_eq_false_iff_not]
  rintro rfl
  have hnan : decode Float.nan = .notANumber := by decide
  rw [hnan] at h
  cases h

/-- A double with mantissa zero is one of the two zeros. -/
theorem eq_zero_of_decode
    (hzero : d.mantissa = 0) :
    x = Float.ofBits (if d.negative then 0x8000000000000000 else 0) := by
  have hexponent : d.exponent = leastExponent := by
    by_contra hne
    have hfilled := (canonical_of_decode h).filled hne
    omega
  have hbits := toBits_of_decode h
  apply Float.toBits_inj.mp
  apply UInt64.toNat_inj.mp
  rw [hbits, hexponent, hzero, Int.sub_self]
  split <;> decide

end

theorem denotes_iff
    (x : Float) (q : ℚ) :
    Denotes x q ↔ denoted? x.toBits = some q := by
  rw [Denotes, ← toRat?_decode]
  cases decode x <;> simp [Decoded.toRat?]

theorem zeros_equal
    (negative negative' : Bool) :
    (Float.ofBits (if negative then 0x8000000000000000 else 0) ==
      Float.ofBits (if negative' then 0x8000000000000000 else 0)) = true := by
  revert negative negative'
  decide

/-- Numbers that denote the same rational number are equal. -/
theorem Denotes.beq
    {x y : Float} {q : ℚ} (hx : Denotes x q) (hy : Denotes y q) :
    (x == y) = true := by
  obtain ⟨d, hd, rfl⟩ := hx
  obtain ⟨d', hd', hsame⟩ := hy
  rcases (canonical_of_decode hd).eq_or_zero (canonical_of_decode hd') hsame.symm with
    rfl | ⟨hzero, hzero'⟩
  · have hbits : x.toBits.toNat = y.toBits.toNat := by
      rw [toBits_of_decode hd, toBits_of_decode hd']
    obtain rfl : x = y := Float.toBits_inj.mp (UInt64.toNat_inj.mp hbits)
    exact (beq_self_iff x).mpr (isNaN_of_decode hd)
  · rw [eq_zero_of_decode hd hzero, eq_zero_of_decode hd' hzero']
    exact zeros_equal _ _

/-! ## Reading numbers as integers -/

theorem toInteger_of_not_denoted
    {x : Float} (h : denoted? x.toBits = none) :
    toInteger x = .error .notFinite := by
  rw [← toRat?_decode] at h
  unfold toInteger
  cases hdecode : decode x with
  | notANumber => rfl
  | infinite negative => rfl
  | finite d =>
    rw [hdecode] at h
    cases h

theorem toInteger_of_exceeds
    {x : Float} {q : ℚ} (h : Denotes x q) (hlimit : (integerLimit : ℚ) < |q|) :
    toInteger x = .error .tooLarge := by
  obtain ⟨d, hd, rfl⟩ := h
  simp only [toInteger, hd]
  exact if_pos (d.exceedsLimit_iff.mpr hlimit)

theorem toInteger_of_within
    {x : Float} {d : Dyadic} (h : decode x = .finite d) (hlimit : |d.toRat| ≤ integerLimit) :
    toInteger x = d.toInt?.elim (.error .fractional) .ok := by
  simp only [toInteger, h]
  rw [if_neg (fun hexceeds => (d.exceedsLimit_iff.mp hexceeds).not_ge hlimit)]
  cases d.toInt? <;> rfl

theorem toInteger_of_fraction
    {x : Float} {q : ℚ} (h : Denotes x q) (hlimit : |q| ≤ integerLimit)
    (hfraction : ∀ i : Int, q ≠ i) :
    toInteger x = .error .fractional := by
  obtain ⟨d, hd, rfl⟩ := h
  have hnone : d.toInt? = none :=
    Option.eq_none_iff_forall_ne_some.mpr
      fun i hi => hfraction i ((d.toInt?_eq_some_iff i).mp hi)
  rw [toInteger_of_within hd hlimit, hnone]
  rfl

theorem abs_le_limit_iff
    (i : Int) :
    |(i : ℚ)| ≤ integerLimit ↔ i.natAbs ≤ integerLimit := by
  rw [← Int.cast_abs, Int.abs_eq_natAbs]
  exact_mod_cast Iff.rfl

theorem toInteger_of_denotes
    {x : Float} {i : Int} (h : Denotes x i) (hlimit : i.natAbs ≤ integerLimit) :
    toInteger x = .ok i := by
  obtain ⟨d, hd, hi⟩ := h
  have hsome := (d.toInt?_eq_some_iff i).mpr hi
  rw [toInteger_of_within hd (by rwa [hi, abs_le_limit_iff]), hsome]
  rfl

/-- A number is read as the integer that it denotes, and only within the limit. -/
theorem toInteger_eq_ok_iff
    (x : Float) (i : Int) :
    toInteger x = .ok i ↔ Denotes x i ∧ i.natAbs ≤ integerLimit := by
  refine ⟨fun h => ⟨?_, natAbs_le_of_toInteger h⟩, fun h => toInteger_of_denotes h.1 h.2⟩
  -- Each other way to read a number ends in an error.
  cases hdenoted : denoted? x.toBits with
  | none =>
    rw [toInteger_of_not_denoted hdenoted] at h
    cases h
  | some q =>
    have hq := (denotes_iff x q).mpr hdenoted
    rcases lt_or_ge (integerLimit : ℚ) |q| with hexceeds | hwithin
    · rw [toInteger_of_exceeds hq hexceeds] at h
      cases h
    · by_cases hinteger : ∃ j : Int, q = j
      · obtain ⟨j, rfl⟩ := hinteger
        rw [toInteger_of_denotes hq ((abs_le_limit_iff j).mp hwithin)] at h
        cases h
        exact hq
      · rw [toInteger_of_fraction hq hwithin (not_exists.mp hinteger)] at h
        cases h

theorem isSome_ofInteger?_iff
    (i : Int) :
    (ofInteger? i).isSome = true ↔ i.natAbs ≤ integerLimit := by
  unfold ofInteger?
  split <;> simp [*]

theorem denotes_of_ofInteger?
    {i : Int} {x : Float} (h : ofInteger? i = some x) :
    Denotes x i := by
  have hlimit := (isSome_ofInteger?_iff i).mp (by rw [h]; rfl)
  obtain ⟨y, hy, hdenotes⟩ := exists_ofInteger? hlimit
  rw [h] at hy
  cases hy
  exact hdenotes

theorem integerOf_eq_ok_iff
    (line : Nat) (x : Float) (i : Int) :
    Value.integerOf line x = .ok i ↔ Denotes x i ∧ i.natAbs ≤ integerLimit := by
  rw [← toInteger_eq_ok_iff, Value.integerOf]
  cases toInteger x <;> simp

theorem integerOf_of_error
    (line : Nat) {x : Float} {e : NotInteger} (h : toInteger x = .error e) :
    Value.integerOf line x = .error ⟨Value.integerCause x e, line⟩ := by
  rw [Value.integerOf, h]

/-- The conversions are exact and inverse to each other.  Every integer has a number as long as it
is within the limit, and the number denotes the integer and is read as it.  Whatever the bits of a
number are, it is read as an integer if it denotes this integer and is within the limit; otherwise
the error tells whether it is a NaN or an infinity, is beyond the limit or has a fraction.  The
number for the integer that is read is equal to the number it was read from. -/
theorem integer_conversions_are_exact :
    (∀ i : Int, (ofInteger? i).isSome = true ↔ i.natAbs ≤ 2 ^ 53 - 1) ∧
    (∀ (i : Int) (x : Float), ofInteger? i = some x →
      denoted? x.toBits = some (i : ℚ) ∧ ∀ line, Value.integerOf line x = .ok i) ∧
    ∀ (bits : UInt64) (line : Nat),
      (denoted? bits = none ↔
        (Float.ofBits bits).isNaN = true ∨ (Float.ofBits bits).isInf = true) ∧
      (∀ i : Int, Value.integerOf line (Float.ofBits bits) = .ok i ↔
        denoted? bits = some (i : ℚ) ∧ i.natAbs ≤ 2 ^ 53 - 1) ∧
      (denoted? bits = none →
        Value.integerOf line (Float.ofBits bits) =
          .error ⟨.notFinite (Float.ofBits bits), line⟩) ∧
      (∀ q : ℚ, denoted? bits = some q → 2 ^ 53 - 1 < |q| →
        Value.integerOf line (Float.ofBits bits) = .error ⟨.tooLarge, line⟩) ∧
      (∀ q : ℚ, denoted? bits = some q → |q| ≤ 2 ^ 53 - 1 → (∀ i : Int, q ≠ i) →
        Value.integerOf line (Float.ofBits bits) = .error ⟨.fractional, line⟩) ∧
      ∀ i : Int, Value.integerOf line (Float.ofBits bits) = .ok i →
        ∃ y, ofInteger? i = some y ∧ (y == Float.ofBits bits) = true := by
  have hlimit : (integerLimit : ℚ) = 2 ^ 53 - 1 := by
    norm_num [integerLimit, Nat.pow_eq]
  refine ⟨isSome_ofInteger?_iff, fun i x h => ?_, fun bits line => ?_⟩
  · have hdenotes := denotes_of_ofInteger? h
    have hwithin := (isSome_ofInteger?_iff i).mp (by rw [h]; rfl)
    exact ⟨(denotes_iff x i).mp hdenotes,
      fun line => (integerOf_eq_ok_iff line x i).mpr ⟨hdenotes, hwithin⟩⟩
  · have hbits := denoted?_toBits_ofBits bits
    simp only [← hlimit, ← hbits, ← denotes_iff]
    refine ⟨denoted?_eq_none_iff _, integerOf_eq_ok_iff line _, fun hnone => ?_,
      fun q hq hexceeds => ?_, fun q hq hwithin hfraction => ?_, fun i hi => ?_⟩
    · exact integerOf_of_error line (toInteger_of_not_denoted hnone)
    · exact integerOf_of_error line (toInteger_of_exceeds hq hexceeds)
    · exact integerOf_of_error line (toInteger_of_fraction hq hwithin hfraction)
    · obtain ⟨hdenotes, hwithin⟩ := (integerOf_eq_ok_iff line _ i).mp hi
      obtain ⟨y, hy, hdenotes'⟩ := exists_ofInteger? hwithin
      exact ⟨y, hy, hdenotes'.beq hdenotes⟩

/-- The least integer of 64 bits, the negative zero, `1.5`, `2 ^ 53` and an infinity. -/
theorem negative_zero_is_read_as_zero :
    (ofInteger? (-2 ^ 63)).isSome = false ∧
    Value.integerOf 1 (Float.ofBits 0x8000000000000000) = .ok 0 ∧
    (∃ y, ofInteger? 0 = some y ∧ (y == Float.ofBits 0x8000000000000000) = true) ∧
    Value.integerOf 1 (Float.ofBits 0x3FF8000000000000) = .error ⟨.fractional, 1⟩ ∧
    Value.integerOf 1 (Float.ofBits 0x4340000000000000) = .error ⟨.tooLarge, 1⟩ ∧
    Value.integerOf 1 (Float.ofBits 0x7FF0000000000000) =
      .error ⟨.notFinite (Float.ofBits 0x7FF0000000000000), 1⟩ := by
  have hhalf (i : Int) : (3 / 2 : ℚ) ≠ i := by
    intro hi
    have hdouble : (3 : ℚ) = (2 * i : Int) := by
      push_cast
      linarith
    norm_cast at hdouble
    omega
  obtain ⟨hnumber, -, hread⟩ := integer_conversions_are_exact
  have hzero : Value.integerOf 1 (Float.ofBits 0x8000000000000000) = .ok 0 := by
    refine ((hread _ 1).2.1 0).mpr ⟨?_, by decide⟩
    norm_num [denoted?, exponentField, UInt64.toNat_ofNat]
  have hfraction : denoted? 0x3FF8000000000000 = some (3 / 2) := by
    norm_num [denoted?, exponentField, UInt64.toNat_ofNat]
  have hlarge : denoted? 0x4340000000000000 = some (2 ^ 53) := by
    norm_num [denoted?, exponentField, UInt64.toNat_ofNat]
  have hinfinite : denoted? 0x7FF0000000000000 = none := by
    norm_num [denoted?, exponentField, UInt64.toNat_ofNat]
  refine ⟨?_, hzero, (hread _ 1).2.2.2.2.2 0 hzero, ?_, ?_, (hread _ 1).2.2.1 hinfinite⟩
  · rw [Bool.eq_false_iff, Ne, hnumber]
    decide
  · exact (hread _ 1).2.2.2.2.1 _ hfraction (by norm_num [abs_of_pos]) hhalf
  · exact (hread _ 1).2.2.2.1 _ hlarge (by norm_num)

end Number
end ColonScript
