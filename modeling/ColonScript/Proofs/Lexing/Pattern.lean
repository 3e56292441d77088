import Mathlib.Computability.Language
import ColonScript.Token.Lexer

/-!
# Patterns of source text

A pattern is a set of texts, written as a regular expression: numerals, quoted texts, words,
comments, signs and blanks.  This is the lexical syntax on its own, without the way in which
pieces are cut off a text.
-/

namespace ColonScript

open scoped Computability

/-- The forms of the pieces of a source text. -/
inductive Pattern where
  | number
  | fraction
  | text
  | boolean (value : Bool)
  | kind (kind : Kind)
  | keyword (keyword : Keyword)
  | identifier
  | comment
  | mark (mark : Mark)
  | newline
  | blanks

namespace Pattern

/-! ## The texts of a pattern -/

/-- The texts that are one character of a class. -/
def one (p : Char → Prop) : Language Char :=
  {w | ∃ c, p c ∧ w = [c]}

/-- The texts of one or more characters of a class. -/
def several (p : Char → Prop) : Language Char :=
  one p * (one p)∗

/-- A single text. -/
def literally (s : String) : Language Char :=
  {s.toList}

/-- The decimal digits. -/
def Digit (c : Char) : Prop :=
  '0' ≤ c ∧ c ≤ '9'

/-- The characters that start a word. -/
def Letter (c : Char) : Prop :=
  'a' ≤ c ∧ c ≤ 'z' ∨ 'A' ≤ c ∧ c ≤ 'Z' ∨ c = '_'

/-- The characters between tokens on one line. -/
def Blank (c : Char) : Prop :=
  c = ' ' ∨ c = '\t' ∨ c = '\r' ∨ c = '\x0c'

instance : DecidablePred Digit :=
  fun _ => inferInstanceAs (Decidable (_ ∧ _))

instance : DecidablePred Letter :=
  fun _ => inferInstanceAs (Decidable (_ ∨ _))

instance : DecidablePred Blank :=
  fun _ => inferInstanceAs (Decidable (_ ∨ _))

/-- The texts of a pattern. -/
def language : Pattern → Language Char
  | number => several Digit * (1 + literally "." * several Digit)
  | fraction => literally "." * several Digit
  | text => literally "\"" * (one (· ≠ '"'))∗ * literally "\""
  | boolean b => literally (boolWord b)
  | kind k => literally k.word
  | keyword k => literally k.word
  | identifier => one Letter * (one fun c => Letter c ∨ Digit c)∗
  | comment => literally "//" * (one (· ≠ '\n'))∗
  | mark m => literally m.sign
  | newline => literally "\n"
  | blanks => several Blank

/-- The patterns that are words of the language. -/
def isReserved : Pattern → Bool
  | boolean _ | kind _ | keyword _ => true
  | number | fraction | text | identifier | comment | mark _ | newline | blanks => false

/-- What a text of a pattern stands for: a token, or nothing where it only separates tokens. -/
inductive Denotes : Pattern → List Char → Option Token → Prop where
  | number {w : List Char} {n : Decimal.Numeral} (h : Decimal.readNumeral? w = some n) :
      Denotes .number w (some (.number n.toFloat))
  | fraction {w : List Char} {n : Decimal.Numeral} (h : Decimal.readNumeral? w = some n) :
      Denotes .fraction w (some (.number n.toFloat))
  | text {w content : List Char} (h : w = '"' :: (content ++ ['"'])) :
      Denotes .text w (some (.text (String.ofList content)))
  | boolean {w : List Char} {b : Bool} : Denotes (.boolean b) w (some (.boolean b))
  | kind {w : List Char} {k : Kind} : Denotes (.kind k) w (some (.kind k))
  | keyword {w : List Char} {k : Keyword} : Denotes (.keyword k) w (some (.keyword k))
  | identifier {w : List Char} : Denotes .identifier w (some (.identifier (String.ofList w)))
  | comment {w : List Char} : Denotes .comment w none
  | mark {w : List Char} {m : Mark} : Denotes (.mark m) w (some (.mark m))
  | newline {w : List Char} : Denotes .newline w none
  | blanks {w : List Char} : Denotes .blanks w none

theorem Denotes.unique
    {p : Pattern} {w : List Char} {t u : Option Token} (ht : p.Denotes w t) (hu : p.Denotes w u) :
    t = u := by
  cases ht with
  | number ht =>
      cases hu with
      | number hu =>
        obtain rfl := Option.some.inj (ht.symm.trans hu)
        rfl
  | fraction ht =>
      cases hu with
      | fraction hu =>
        obtain rfl := Option.some.inj (ht.symm.trans hu)
        rfl
  | text ht =>
      cases hu with
      | text hu =>
        rw [ht, List.cons.injEq, List.append_cancel_right_eq] at hu
        rw [hu.2]
  | _ =>
      cases hu
      rfl

/-! ## The texts of a pattern, read off -/

theorem mem_one_kstar
    {p : Char → Prop} {w : List Char} :
    w ∈ (one p)∗ ↔ ∀ c ∈ w, p c := by
  constructor
  · intro h c hc
    obtain ⟨parts, rfl, hparts⟩ := Language.mem_kstar.mp h
    obtain ⟨part, hpart, hc⟩ := List.mem_flatten.mp hc
    obtain ⟨d, hd, rfl⟩ := hparts part hpart
    rw [List.mem_singleton] at hc
    exact hc ▸ hd
  · intro h
    refine Language.mem_kstar.mpr ⟨w.map fun c => [c], (List.flatMap_singleton' w).symm, ?_⟩
    intro part hpart
    obtain ⟨c, hc, rfl⟩ := List.mem_map.mp hpart
    exact ⟨c, h c hc, rfl⟩

/-- A character of one class and then characters of another. -/
theorem mem_one_mul_kstar
    {p q : Char → Prop} {w : List Char} :
    w ∈ one p * (one q)∗ ↔ ∃ c v, w = c :: v ∧ p c ∧ ∀ d ∈ v, q d := by
  constructor
  · intro h
    obtain ⟨_, ⟨c, hc, rfl⟩, v, hv, rfl⟩ := Language.mem_mul.mp h
    exact ⟨c, v, rfl, hc, mem_one_kstar.mp hv⟩
  · rintro ⟨c, v, rfl, hc, hv⟩
    exact Language.mem_mul.mpr ⟨[c], ⟨c, hc, rfl⟩, v, mem_one_kstar.mpr hv, rfl⟩

theorem mem_several
    {p : Char → Prop} {w : List Char} :
    w ∈ several p ↔ w ≠ [] ∧ ∀ c ∈ w, p c := by
  rw [several, mem_one_mul_kstar]
  constructor
  · rintro ⟨c, v, rfl, hc, hv⟩
    exact ⟨by simp, List.forall_mem_cons.mpr ⟨hc, hv⟩⟩
  · rintro ⟨hne, hw⟩
    obtain ⟨c, v, rfl⟩ := List.exists_cons_of_ne_nil hne
    obtain ⟨hc, hv⟩ := List.forall_mem_cons.mp hw
    exact ⟨c, v, rfl, hc, hv⟩

/-- A text and then texts of a language. -/
theorem mem_literally_mul
    {s : String} {l : Language Char} {w : List Char} :
    w ∈ literally s * l ↔ ∃ v ∈ l, w = s.toList ++ v := by
  constructor
  · intro h
    obtain ⟨_, rfl, v, hv, rfl⟩ := Language.mem_mul.mp h
    exact ⟨v, hv, rfl⟩
  · rintro ⟨v, hv, rfl⟩
    exact Language.mem_mul.mpr ⟨_, rfl, v, hv, rfl⟩

theorem mem_fraction
    {w : List Char} :
    w ∈ fraction.language ↔ ∃ digits, w = '.' :: digits ∧ digits ≠ [] ∧ ∀ c ∈ digits, Digit c := by
  simp only [language, mem_literally_mul, mem_several]
  constructor
  · rintro ⟨digits, hdigits, rfl⟩
    exact ⟨digits, rfl, hdigits⟩
  · rintro ⟨digits, rfl, hdigits⟩
    exact ⟨digits, hdigits, rfl⟩

theorem mem_number
    {w : List Char} :
    w ∈ number.language ↔ ∃ whole tail, w = whole ++ tail ∧ whole ≠ [] ∧ (∀ c ∈ whole, Digit c) ∧
      (tail = [] ∨ tail ∈ fraction.language) := by
  constructor
  · intro h
    obtain ⟨whole, hwhole, tail, htail, rfl⟩ := Language.mem_mul.mp h
    obtain ⟨hne, hdigits⟩ := mem_several.mp hwhole
    exact ⟨whole, tail, rfl, hne, hdigits, htail⟩
  · rintro ⟨whole, tail, rfl, hne, hdigits, htail⟩
    exact Language.mem_mul.mpr ⟨whole, mem_several.mpr ⟨hne, hdigits⟩, tail, htail, rfl⟩

theorem mem_text
    {w : List Char} :
    w ∈ text.language ↔ ∃ content, w = '"' :: (content ++ ['"']) ∧ ∀ c ∈ content, c ≠ '"' := by
  rw [language, mul_assoc, mem_literally_mul]
  constructor
  · rintro ⟨v, hv, rfl⟩
    obtain ⟨content, hcontent, _, rfl, rfl⟩ := Language.mem_mul.mp hv
    exact ⟨content, rfl, mem_one_kstar.mp hcontent⟩
  · rintro ⟨content, rfl, hcontent⟩
    refine ⟨content ++ ['"'], ?_, rfl⟩
    exact Language.mem_mul.mpr ⟨content, mem_one_kstar.mpr hcontent, _, rfl, rfl⟩

theorem mem_comment
    {w : List Char} :
    w ∈ comment.language ↔ ∃ remark, w = '/' :: '/' :: remark ∧ ∀ c ∈ remark, c ≠ '\n' := by
  rw [language, mem_literally_mul]
  simp only [mem_one_kstar]
  constructor
  · rintro ⟨remark, hremark, rfl⟩
    exact ⟨remark, rfl, hremark⟩
  · rintro ⟨remark, rfl, hremark⟩
    exact ⟨remark, hremark, rfl⟩

theorem mem_identifier
    {w : List Char} :
    w ∈ identifier.language ↔
      ∃ c v, w = c :: v ∧ Letter c ∧ ∀ d ∈ v, Letter d ∨ Digit d :=
  mem_one_mul_kstar

/-! ## How the texts of a pattern start -/

/-- What the first character of a text says about its pattern. -/
inductive Opening where
  | newline
  | blank
  | digit
  | letter
  | quote
  | point
  | sign

/-- The opening that a character is. -/
def openingOf (c : Char) : Opening :=
  if c = '\n' then .newline
  else if Blank c then .blank
  else if Digit c then .digit
  else if Letter c then .letter
  else if c = '"' then .quote
  else if c = '.' then .point
  else .sign

/-- The opening of the texts of a pattern. -/
def opening : Pattern → Opening
  | number => .digit
  | fraction => .point
  | text => .quote
  | boolean _ | kind _ | keyword _ | identifier => .letter
  | comment | mark _ => .sign
  | newline => .newline
  | blanks => .blank

theorem openingOf_blank
    {c : Char} (hc : Blank c) :
    openingOf c = .blank := by
  rcases hc with rfl | rfl | rfl | rfl <;> rfl

theorem openingOf_digit
    {c : Char} (hc : Digit c) :
    openingOf c = .digit := by
  have hline : c ≠ '\n' := by
    rintro rfl
    exact absurd hc (by decide)
  have hblank : ¬Blank c := by
    rintro (rfl | rfl | rfl | rfl) <;> exact absurd hc (by decide)
  simp only [openingOf, hline, hblank, hc, if_false, if_true]

theorem openingOf_letter
    {c : Char} (hc : Letter c) :
    openingOf c = .letter := by
  have hline : c ≠ '\n' := by
    rintro rfl
    exact absurd hc (by decide)
  have hblank : ¬Blank c := by
    rintro (rfl | rfl | rfl | rfl) <;> exact absurd hc (by decide)
  have hdigit : ¬Digit c := by
    rintro ⟨-, hnine⟩
    rcases hc with ⟨ha, -⟩ | ⟨ha, -⟩ | rfl
    · exact absurd (Char.le_trans ha hnine) (by decide)
    · exact absurd (Char.le_trans ha hnine) (by decide)
    · exact absurd hnine (by decide)
  simp only [openingOf, hline, hblank, hdigit, hc, if_false, if_true]

/-- A text is an identifier, as a check that can be run. -/
theorem mem_identifier_of_check
    {w : List Char} (hstart : (w.head?.any fun c => Letter c) = true)
    (hall : (w.all fun c => Letter c ∨ Digit c) = true) :
    w ∈ identifier.language := by
  obtain ⟨c, hc, hletter⟩ := Option.any_eq_true _ _ |>.mp hstart
  obtain ⟨v, rfl⟩ := List.head?_eq_some_iff.mp hc
  refine mem_identifier.mpr ⟨c, v, rfl, of_decide_eq_true hletter, fun d hd => ?_⟩
  exact of_decide_eq_true (List.all_eq_true.mp hall d (List.mem_cons_of_mem c hd))

/-- The words of the language look like identifiers. -/
theorem mem_identifier_of_mem
    {p : Pattern} (hp : p.isReserved = true) {w : List Char} (hw : w ∈ p.language) :
    w ∈ identifier.language := by
  cases p with
  | boolean b =>
      obtain rfl : w = (boolWord b).toList := hw
      cases b <;> exact mem_identifier_of_check (by decide) (by decide)
  | kind k =>
      obtain rfl : w = k.word.toList := hw
      cases k <;> exact mem_identifier_of_check (by decide) (by decide)
  | keyword k =>
      obtain rfl : w = k.word.toList := hw
      cases k <;> exact mem_identifier_of_check (by decide) (by decide)
  | _ => cases hp

/-- A text of a pattern has a first character, and this shows the opening of the pattern. -/
theorem exists_cons_of_mem
    {p : Pattern} {w : List Char} (h : w ∈ p.language) :
    ∃ c v, w = c :: v ∧ openingOf c = p.opening := by
  have hword (hw : w ∈ identifier.language) : ∃ c v, w = c :: v ∧ openingOf c = .letter := by
    obtain ⟨c, v, rfl, hc, -⟩ := mem_identifier.mp hw
    exact ⟨c, v, rfl, openingOf_letter hc⟩
  cases p with
  | number =>
      obtain ⟨whole, tail, rfl, hne, hdigits, -⟩ := mem_number.mp h
      obtain ⟨c, v, rfl⟩ := List.exists_cons_of_ne_nil hne
      exact ⟨c, v ++ tail, rfl, openingOf_digit (hdigits c (by simp))⟩
  | fraction =>
      obtain ⟨digits, rfl, -⟩ := mem_fraction.mp h
      exact ⟨_, _, rfl, rfl⟩
  | text =>
      obtain ⟨content, rfl, -⟩ := mem_text.mp h
      exact ⟨_, _, rfl, rfl⟩
  | boolean | kind | keyword => exact hword (mem_identifier_of_mem rfl h)
  | identifier => exact hword h
  | comment =>
      obtain ⟨remark, rfl, -⟩ := mem_comment.mp h
      exact ⟨_, _, rfl, rfl⟩
  | mark m =>
      obtain rfl : w = m.sign.toList := h
      cases m <;> exact ⟨_, _, rfl, rfl⟩
  | newline =>
      obtain rfl : w = "\n".toList := h
      exact ⟨_, _, rfl, rfl⟩
  | blanks =>
      obtain ⟨hne, hblank⟩ := mem_several.mp h
      obtain ⟨c, v, rfl⟩ := List.exists_cons_of_ne_nil hne
      exact ⟨c, v, rfl, openingOf_blank (hblank c (by simp))⟩

theorem ne_nil_of_mem
    {p : Pattern} {w : List Char} (h : w ∈ p.language) :
    w ≠ [] := by
  obtain ⟨c, v, rfl, -⟩ := exists_cons_of_mem h
  exact List.cons_ne_nil c v

end Pattern
end ColonScript
