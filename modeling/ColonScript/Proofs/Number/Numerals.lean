import Mathlib
import ColonScript.Native
import ColonScript.Proofs.Lexing.Pattern

/-!
# Numerals

A numeral is an optional sign, digits with at most one point among or around them, and an optional
exponent.  `NumeralText` says this as a grammar, part by part, and the reader of numerals accepts
exactly the texts of the grammar (`readNumeral?_eq_some_iff`).  From this it follows which texts
become numbers when they are appended to an array: those that are a numeral with nothing but blanks
around it, if the double nearest to it is finite (`coerce_of_isNumeral`, `coerce_of_not_isNumeral`).
-/

namespace ColonScript

/-! ## Runs of characters -/

section Runs

variable {q : Char → Bool} {v rest : List Char}

theorem takeWhile_append_of_head
    (hall : ∀ c ∈ v, q c = true) (hrest : ∀ c ∈ rest.head?, q c = false) :
    (v ++ rest).takeWhile q = v := by
  rw [List.takeWhile_append_of_pos hall]
  cases rest with
  | nil => exact List.append_nil v
  | cons c cs => rw [List.takeWhile_cons_of_neg (by simp [hrest c rfl]), List.append_nil]

theorem dropWhile_append_of_head
    (hall : ∀ c ∈ v, q c = true) (hrest : ∀ c ∈ rest.head?, q c = false) :
    (v ++ rest).dropWhile q = rest := by
  rw [List.dropWhile_append_of_pos hall]
  cases rest with
  | nil => rfl
  | cons c cs => exact List.dropWhile_cons_of_neg (by simp [hrest c rfl])

end Runs

/-! ## Digits -/

namespace Pattern

theorem isDigit_iff
    {c : Char} :
    c.isDigit = true ↔ Digit c := by
  simp [Char.isDigit, Digit, Char.le_def]

theorem forall_isDigit
    {v : List Char} (h : ∀ c ∈ v, Digit c) :
    ∀ c ∈ v, c.isDigit = true :=
  fun c hc => isDigit_iff.mpr (h c hc)

end Pattern

open Pattern

/-! ## The grammar -/

namespace Decimal

/-- The texts of an optional sign, with whether they make a number negative. -/
inductive SignText : List Char → Bool → Prop
  | absent : SignText [] false
  | plus : SignText ['+'] false
  | minus : SignText ['-'] true

/-- The texts of an optional point with digits after it, of which there may be none. -/
inductive FractionText : List Char → List Char → Prop
  | absent : FractionText [] []
  | present {digits : List Char} : (∀ c ∈ digits, Digit c) → FractionText ('.' :: digits) digits

/-- The texts of an optional exponent: a letter, an optional sign and digits. -/
inductive ExponentText : List Char → Int → Prop
  | absent : ExponentText [] 0
  | present {e : Char} {sign digits : List Char} {negative : Bool} : e = 'e' ∨ e = 'E' →
      SignText sign negative → digits ≠ [] → (∀ c ∈ digits, Digit c) →
      ExponentText (e :: (sign ++ digits))
        (if negative then -(digitsValue digits : Int) else digitsValue digits)

/-- The texts of a numeral.  There is a digit before the point or after it. -/
inductive NumeralText : List Char → Numeral → Prop
  | parts {sign whole point scale fraction : List Char} {negative : Bool} {exponent : Int} :
      SignText sign negative → (∀ c ∈ whole, Digit c) → FractionText point fraction →
      whole ≠ [] ∨ fraction ≠ [] → ExponentText scale exponent →
      NumeralText (sign ++ (whole ++ (point ++ scale))) ⟨negative, whole, fraction, exponent⟩

/-! ## Taking a text apart -/

theorem exists_signText
    {cs rest : List Char} {negative : Bool} (h : splitSign cs = (negative, rest)) :
    ∃ sign, SignText sign negative ∧ cs = sign ++ rest := by
  unfold splitSign at h
  split at h <;> cases h
  · exact ⟨_, .plus, rfl⟩
  · exact ⟨_, .minus, rfl⟩
  · exact ⟨_, .absent, rfl⟩

/-- A sign is taken off the front of what does not start with another one. -/
theorem splitSign_append
    {sign : List Char} {negative : Bool} (h : SignText sign negative) {rest : List Char}
    (hrest : ∀ c ∈ rest.head?, c ≠ '+' ∧ c ≠ '-') :
    splitSign (sign ++ rest) = (negative, rest) := by
  cases h with
  | plus => rfl
  | minus => rfl
  | absent =>
      rw [List.nil_append]
      unfold splitSign
      split
      · exact absurd rfl (hrest '+' rfl).1
      · exact absurd rfl (hrest '-' rfl).2
      · rfl

/-- Digits are taken off the front of what does not go on with another one. -/
theorem splitDigits_append
    {digits rest : List Char} (hdigits : ∀ c ∈ digits, Digit c)
    (hrest : ∀ c ∈ rest.head?, ¬Digit c) :
    splitDigits (digits ++ rest) = (digits, rest) := by
  have hall := forall_isDigit hdigits
  have hstop : ∀ c ∈ rest.head?, c.isDigit = false :=
    fun c hc => Bool.eq_false_iff.mpr (mt isDigit_iff.mp (hrest c hc))
  rw [splitDigits, takeWhile_append_of_head hall hstop, dropWhile_append_of_head hall hstop]

theorem digits_of_splitDigits
    {cs digits rest : List Char} (h : splitDigits cs = (digits, rest)) :
    (∀ c ∈ digits, Digit c) ∧ cs = digits ++ rest := by
  cases h
  exact ⟨fun _ hc => isDigit_iff.mp (List.mem_takeWhile_imp hc),
    List.takeWhile_append_dropWhile.symm⟩

theorem exists_fractionText
    {cs fraction rest : List Char} (h : splitFraction cs = (fraction, rest)) :
    ∃ point, FractionText point fraction ∧ cs = point ++ rest := by
  unfold splitFraction at h
  split at h
  · obtain ⟨hdigits, rfl⟩ := digits_of_splitDigits h
    exact ⟨_, .present hdigits, rfl⟩
  · cases h
    exact ⟨_, .absent, rfl⟩

theorem splitFraction_append
    {point fraction : List Char} (h : FractionText point fraction) {rest : List Char}
    (hrest : ∀ c ∈ rest.head?, ¬Digit c ∧ c ≠ '.') :
    splitFraction (point ++ rest) = (fraction, rest) := by
  cases h with
  | present hdigits => exact splitDigits_append hdigits fun c hc => (hrest c hc).1
  | absent =>
      rw [List.nil_append]
      unfold splitFraction
      split
      · exact absurd rfl (hrest '.' rfl).2
      · rfl

/-! ## What is read is what the grammar has -/

theorem not_sign_of_digit
    {c : Char} (h : Digit c) :
    c ≠ '+' ∧ c ≠ '-' := by
  constructor <;> rintro rfl <;> exact absurd h (by decide)

theorem readExponent?_eq_some_iff
    (cs : List Char) (exponent : Int) :
    readExponent? cs = some exponent ↔ ExponentText cs exponent := by
  constructor
  · intro h
    cases cs with
    | nil =>
        cases h
        exact .absent
    | cons e cs =>
        rcases hsplit : splitSign cs with ⟨negative, digits⟩
        obtain ⟨sign, hsign, rfl⟩ := exists_signText hsplit
        simp only [readExponent?, hsplit] at h
        split at h
        · next hwritten =>
          obtain ⟨⟨he, hne⟩, hdigits⟩ : ((e = 'e' ∨ e = 'E') ∧ digits ≠ []) ∧
              ∀ c ∈ digits, c.isDigit = true := by simpa using hwritten
          cases h
          exact .present he hsign hne fun c hc => isDigit_iff.mp (hdigits c hc)
        · cases h
  · intro h
    cases h with
    | absent => rfl
    | @present e sign digits negative he hsign hne hdigits =>
        have hsplit : splitSign (sign ++ digits) = (negative, digits) :=
          splitSign_append hsign fun c hc =>
            not_sign_of_digit (hdigits c (List.mem_of_mem_head? hc))
        have hall : digits.all Char.isDigit = true :=
          List.all_eq_true.mpr (forall_isDigit hdigits)
        rw [readExponent?, hsplit]
        dsimp only
        rw [if_pos]
        simp [he, hne, hall]

theorem ExponentText.head
    {scale : List Char} {exponent : Int} (h : ExponentText scale exponent) :
    ∀ c ∈ scale.head?, ¬Digit c ∧ c ≠ '.' := by
  cases h with
  | absent => exact fun _ hc => absurd hc (by simp)
  | present he =>
      intro c hc
      cases hc
      rcases he with rfl | rfl <;> decide

/-- What follows the digits before the point does not go on with a digit. -/
theorem head_of_fractionText
    {point scale fraction : List Char} {exponent : Int} (hpoint : FractionText point fraction)
    (hscale : ExponentText scale exponent) :
    ∀ c ∈ (point ++ scale).head?, ¬Digit c := by
  cases hpoint with
  | absent => exact fun c hc => (hscale.head c hc).1
  | present _ =>
      intro c hc
      cases hc
      decide

/-- What follows the sign does not start with another one. -/
theorem head_of_digits
    {whole point scale fraction : List Char} (hwhole : ∀ c ∈ whole, Digit c)
    (hpoint : FractionText point fraction) (hne : whole ≠ [] ∨ fraction ≠ []) :
    ∀ c ∈ (whole ++ (point ++ scale)).head?, c ≠ '+' ∧ c ≠ '-' := by
  intro c hc
  cases whole with
  | cons d digits =>
      obtain rfl : d = c := Option.some.inj hc
      exact not_sign_of_digit (hwhole d List.mem_cons_self)
  | nil =>
      cases hpoint with
      | absent => simp at hne
      | present _ =>
          cases hc
          decide

theorem readNumeral?_of_splits
    {cs unsigned whole afterWhole fraction scale : List Char} {negative : Bool}
    (hsign : splitSign cs = (negative, unsigned))
    (hwhole : splitDigits unsigned = (whole, afterWhole))
    (hfraction : splitFraction afterWhole = (fraction, scale)) :
    readNumeral? cs =
      if whole.isEmpty && fraction.isEmpty then none
      else (readExponent? scale).map fun exponent => ⟨negative, whole, fraction, exponent⟩ := by
  simp only [readNumeral?, hsign, hwhole, hfraction]

/-- The reader of numerals accepts the texts of the grammar and gives their parts. -/
theorem readNumeral?_eq_some_iff
    (cs : List Char) (n : Numeral) :
    readNumeral? cs = some n ↔ NumeralText cs n := by
  constructor
  · intro h
    rcases hsplit : splitSign cs with ⟨negative, unsigned⟩
    rcases hcut : splitDigits unsigned with ⟨whole, afterWhole⟩
    rcases hfractional : splitFraction afterWhole with ⟨fraction, scale⟩
    rw [readNumeral?_of_splits hsplit hcut hfractional] at h
    obtain ⟨sign, hsign, rfl⟩ := exists_signText hsplit
    obtain ⟨hwhole, rfl⟩ := digits_of_splitDigits hcut
    obtain ⟨point, hpoint, rfl⟩ := exists_fractionText hfractional
    split at h
    · cases h
    · next hsome =>
      obtain ⟨exponent, hexponent, rfl⟩ := Option.map_eq_some_iff.mp h
      have hne : whole ≠ [] ∨ fraction ≠ [] := by simpa [imp_iff_not_or] using hsome
      exact .parts hsign hwhole hpoint hne ((readExponent?_eq_some_iff _ _).mp hexponent)
  · intro h
    cases h with
    | parts hsign hwhole hpoint hne hscale =>
        rw [readNumeral?_of_splits (splitSign_append hsign (head_of_digits hwhole hpoint hne))
          (splitDigits_append hwhole (head_of_fractionText hpoint hscale))
          (splitFraction_append hpoint hscale.head),
          if_neg (by simpa [imp_iff_not_or] using hne), (readExponent?_eq_some_iff _ _).mpr hscale]
        rfl

theorem readNumeral?_digits
    {whole : List Char} (hne : whole ≠ []) (hwhole : ∀ c ∈ whole, Digit c) :
    readNumeral? whole = some ⟨false, whole, [], 0⟩ := by
  rw [readNumeral?_eq_some_iff]
  simpa using NumeralText.parts .absent hwhole .absent (.inl hne) .absent

theorem readNumeral?_point
    {whole fraction : List Char} (hwhole : ∀ c ∈ whole, Digit c) (hne : fraction ≠ [])
    (hfraction : ∀ c ∈ fraction, Digit c) :
    readNumeral? (whole ++ '.' :: fraction) = some ⟨false, whole, fraction, 0⟩ := by
  rw [readNumeral?_eq_some_iff]
  simpa using NumeralText.parts .absent hwhole (.present hfraction) (.inr hne) .absent

theorem toFloat_ofDigits
    (whole fraction : List Char) :
    (ofDigits whole fraction).toFloat = Numeral.toFloat ⟨false, whole, fraction, 0⟩ := by
  simp [Numeral.toFloat, Numeral.magnitude, ofDigits]

/-! ## Numerals between blanks -/

theorem not_isBlank_of_digit
    {c : Char} (h : Digit c) :
    Text.isBlank c = false := by
  have hlow : 48 ≤ c.toNat := UInt32.le_iff_toNat_le.mp h.1
  have hhigh : c.toNat ≤ 57 := UInt32.le_iff_toNat_le.mp h.2
  rw [Bool.eq_false_iff, Ne, Text.isBlank, Text.inRanges_eq_true_iff]
  simp only [Text.blankRanges, List.mem_cons, List.not_mem_nil, or_false, exists_eq_or_imp,
    exists_eq_left]
  omega

theorem SignText.not_isBlank
    {sign : List Char} {negative : Bool} (h : SignText sign negative) :
    ∀ c ∈ sign, Text.isBlank c = false := by
  intro c hc
  cases h with
  | absent => cases hc
  | plus | minus =>
      cases List.mem_singleton.mp hc
      rfl

theorem FractionText.not_isBlank
    {point fraction : List Char} (h : FractionText point fraction) :
    ∀ c ∈ point, Text.isBlank c = false := by
  intro c hc
  cases h with
  | absent => cases hc
  | present hdigits =>
      rcases List.mem_cons.mp hc with rfl | hc
      · rfl
      · exact not_isBlank_of_digit (hdigits c hc)

theorem ExponentText.not_isBlank
    {scale : List Char} {exponent : Int} (h : ExponentText scale exponent) :
    ∀ c ∈ scale, Text.isBlank c = false := by
  intro c hc
  cases h with
  | absent => cases hc
  | present he hsign _ hdigits =>
      rcases List.mem_cons.mp hc with rfl | hc
      · rcases he with rfl | rfl <;> rfl
      · rcases List.mem_append.mp hc with hc | hc
        · exact hsign.not_isBlank c hc
        · exact not_isBlank_of_digit (hdigits c hc)

/-- No character of a numeral is blank. -/
theorem NumeralText.not_isBlank
    {w : List Char} {n : Numeral} (h : NumeralText w n) :
    ∀ c ∈ w, Text.isBlank c = false := by
  intro c hc
  cases h with
  | parts hsign hwhole hpoint _ hscale =>
      simp only [List.mem_append] at hc
      rcases hc with hc | hc | hc | hc
      · exact hsign.not_isBlank c hc
      · exact not_isBlank_of_digit (hwhole c hc)
      · exact hpoint.not_isBlank c hc
      · exact hscale.not_isBlank c hc

/-- A text is a numeral with nothing but blanks around it. -/
def IsNumeral (s : String) (n : Numeral) : Prop :=
  ∃ before w after, s.toList = before ++ (w ++ after) ∧ (∀ c ∈ before, Text.isBlank c = true) ∧
    NumeralText w n ∧ ∀ c ∈ after, Text.isBlank c = true

end Decimal

namespace Text

/-- Blanks around a text without blanks are removed. -/
theorem trimBlanks_append
    {before w after : List Char} (hbefore : ∀ c ∈ before, isBlank c = true)
    (hw : ∀ c ∈ w, isBlank c = false) (hafter : ∀ c ∈ after, isBlank c = true) :
    trimBlanks (before ++ (w ++ after)) = w := by
  cases w with
  | nil =>
      rw [trimBlanks, List.dropWhile_append_of_pos hbefore, List.nil_append,
        List.dropWhile_eq_nil_iff.mpr hafter]
      rfl
  | cons c cs =>
      have hreverse : ∀ d ∈ after.reverse, isBlank d = true := by simpa using hafter
      have hfirst : ∀ d ∈ (c :: cs ++ after).head?, isBlank d = false := by
        simpa using hw c List.mem_cons_self
      have hlast : ∀ d ∈ (c :: cs).reverse.head?, isBlank d = false :=
        fun d hd => hw d (List.mem_reverse.mp (List.mem_of_mem_head? hd))
      rw [trimBlanks, dropWhile_append_of_head hbefore hfirst, List.reverse_append,
        dropWhile_append_of_head hreverse hlast, List.reverse_reverse]

/-- What is removed is blank. -/
theorem exists_blanks
    (cs : List Char) :
    ∃ before after, cs = before ++ (trimBlanks cs ++ after) ∧
      (∀ c ∈ before, isBlank c = true) ∧ ∀ c ∈ after, isBlank c = true := by
  refine ⟨cs.takeWhile isBlank, ((cs.dropWhile isBlank).reverse.takeWhile isBlank).reverse, ?_,
    fun _ hc => List.mem_takeWhile_imp hc,
    fun _ hc => List.mem_takeWhile_imp (List.mem_reverse.mp hc)⟩
  rw [trimBlanks, ← List.reverse_append, List.takeWhile_append_dropWhile, List.reverse_reverse,
    List.takeWhile_append_dropWhile]

end Text

namespace Decimal

theorem isNumeral_iff
    (s : String) (n : Numeral) :
    IsNumeral s n ↔ readNumeral? (Text.trimBlanks s.toList) = some n := by
  rw [readNumeral?_eq_some_iff]
  constructor
  · rintro ⟨before, w, after, hs, hbefore, hw, hafter⟩
    rw [hs, Text.trimBlanks_append hbefore hw.not_isBlank hafter]
    exact hw
  · intro h
    obtain ⟨before, after, hs, hbefore, hafter⟩ := Text.exists_blanks s.toList
    exact ⟨before, _, after, hs, hbefore, h, hafter⟩

end Decimal

/-! ## What is appended -/

namespace Native

open Decimal

/-- A text that is a numeral is appended as the double nearest to it, if this is finite. -/
theorem coerce_of_isNumeral
    {s : String} {n : Numeral} (h : IsNumeral s n) (hfinite : n.toFloat.isFinite = true) :
    coerce (.text s) = .number n.toFloat := by
  rw [isNumeral_iff] at h
  have hread : readFinite? (Text.trimBlanks s.toList) = some n.toFloat := by
    rw [readFinite?, h]
    simp [hfinite]
  rw [coerce, hread]

/-- A text that is no numeral, or whose number is not finite, is appended as it is. -/
theorem coerce_of_not_isNumeral
    {s : String} (h : ∀ n, IsNumeral s n → n.toFloat.isFinite = false) :
    coerce (.text s) = .text s := by
  have hnone : readFinite? (Text.trimBlanks s.toList) = none := by
    rw [readFinite?]
    cases hread : readNumeral? (Text.trimBlanks s.toList) with
    | none => rfl
    | some n => simp [h n ((isNumeral_iff s n).mpr hread)]
  rw [coerce, hnone]

theorem coerce_of_kind_ne
    {v : Value} (h : v.kind ≠ .str) :
    coerce v = v := by
  cases v with
  | text => exact absurd rfl h
  | number | boolean | array | function => rfl

end Native
end ColonScript
