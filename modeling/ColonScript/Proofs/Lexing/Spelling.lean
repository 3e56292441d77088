import ColonScript.Proofs.Lexing.Munch

/-!
# Cutting undoes spelling

A token can be spelled in a source text, and tokens that are spelled one after the other are kept
apart by layout: a blank or a line end, and then blanks, line ends and comments as one likes.  A
spelling that is followed by a blank, by a line end or by nothing is the longest piece there, and
layout is passed without a trace except for its line ends.  Whatever the layout is, the lexer
therefore finds the tokens that were spelled, on the lines on which their spellings end.
-/

namespace ColonScript

open Pattern

/-! ## Spellings and layout -/

/-- The complete spellings of tokens. -/
inductive Spells : List Char → Token → Prop where
  | mark (m : Mark) : Spells m.sign.toList (.mark m)
  | keyword (k : Keyword) : Spells k.word.toList (.keyword k)
  | kind (k : Kind) : Spells k.word.toList (.kind k)
  | boolean (b : Bool) : Spells (boolWord b).toList (.boolean b)
  /-- A word that is not one of the language. -/
  | identifier {w : List Char} : w ∈ Pattern.identifier.language →
      (∀ p : Pattern, p.isReserved = true → w ∉ p.language) →
      Spells w (.identifier (String.ofList w))
  /-- A numeral without point. -/
  | whole {digits : List Char} : digits ≠ [] → (∀ c ∈ digits, Digit c) →
      Spells digits (.number (Decimal.ofDigits digits []).toFloat)
  /-- A numeral with a point, with or without digits before it. -/
  | pointed {digits fraction : List Char} : (∀ c ∈ digits, Digit c) → fraction ≠ [] →
      (∀ c ∈ fraction, Digit c) →
      Spells (digits ++ '.' :: fraction) (.number (Decimal.ofDigits digits fraction).toFloat)
  /-- A text in quotes, which may have line ends in it. -/
  | text {content : List Char} : (∀ c ∈ content, c ≠ '"') →
      Spells ('"' :: (content ++ ['"'])) (.text (String.ofList content))

/-- A token with one of its spellings. -/
structure Spelling where
  text : List Char
  token : Token
  spells : Spells text token

/-- The characters that end every token but one in quotes. -/
def Breaks (c : Char) : Prop :=
  Blank c ∨ c = '\n'

instance : DecidablePred Breaks :=
  fun _ => inferInstanceAs (Decidable (_ ∨ _))

/-- Blanks, line ends and comments up to a line end, in any order. -/
inductive Spacing : List Char → Prop where
  | nil : Spacing []
  | breaks {c : Char} {rest : List Char} : Breaks c → Spacing rest → Spacing (c :: rest)
  | comment {remark rest : List Char} : (∀ c ∈ remark, c ≠ '\n') → Spacing rest →
      Spacing ('/' :: '/' :: (remark ++ '\n' :: rest))

/-- What keeps two spellings apart: a blank or a line end, and then any spacing. -/
structure Separator where
  first : Char
  others : List Char
  breaks : Breaks first
  spacing : Spacing others

/-- The text of a separator. -/
def Separator.text (s : Separator) : List Char :=
  s.first :: s.others

/-- Spellings joined by separators, of which the first stands after the first spelling. -/
def joined (separators : Nat → Separator) : List Spelling → List Char
  | [] => []
  | [w] => w.text
  | w :: next :: ws =>
      w.text ++ ((separators 0).text ++ joined (fun n => separators (n + 1)) (next :: ws))

/-- The tokens of joined spellings that stand after the text that is read, each with the line that
the source reaches at the end of its spelling. -/
def tagged (separators : Nat → Separator) (read : List Char) : List Spelling → List Lexeme
  | [] => []
  | w :: ws =>
      ⟨w.token, lineAfter (read ++ w.text)⟩ ::
        tagged (fun n => separators (n + 1)) (read ++ w.text ++ (separators 0).text) ws

/-! ## A spelling before a break is the longest piece -/

theorem not_breaks_of_letter_or_digit
    {c : Char} (hc : Letter c ∨ Digit c) :
    ¬Breaks c := by
  rintro (hblank | rfl)
  · have hopening := openingOf_blank hblank
    rcases hc with hletter | hdigit
    · rw [openingOf_letter hletter] at hopening
      cases hopening
    · rw [openingOf_digit hdigit] at hopening
      cases hopening
  · revert hc
    decide

theorem not_breaks_of_mem_fraction
    {v : List Char} (hv : v ∈ Pattern.fraction.language) :
    ∀ c ∈ v, ¬Breaks c := by
  obtain ⟨digits, rfl, -, hdigits⟩ := mem_fraction.mp hv
  intro c hc
  rcases List.mem_cons.mp hc with rfl | hc
  · decide
  · exact not_breaks_of_letter_or_digit (.inr (hdigits c hc))

theorem not_breaks_of_mem_number
    {v : List Char} (hv : v ∈ Pattern.number.language) :
    ∀ c ∈ v, ¬Breaks c := by
  obtain ⟨whole, tail, rfl, -, hdigits, htail⟩ := mem_number.mp hv
  intro c hc
  rcases List.mem_append.mp hc with hc | hc
  · exact not_breaks_of_letter_or_digit (.inr (hdigits c hc))
  · rcases htail with rfl | htail
    · cases hc
    · exact not_breaks_of_mem_fraction htail c hc

theorem not_breaks_of_mem_identifier
    {v : List Char} (hv : v ∈ Pattern.identifier.language) :
    ∀ c ∈ v, ¬Breaks c := by
  obtain ⟨first, others, rfl, hfirst, hothers⟩ := mem_identifier.mp hv
  intro c hc
  rcases List.mem_cons.mp hc with rfl | hc
  · exact not_breaks_of_letter_or_digit (.inl hfirst)
  · exact not_breaks_of_letter_or_digit (hothers c hc)

theorem not_breaks_of_mem_sign
    {m : Mark} {v : List Char} (hv : v = m.sign.toList) :
    ∀ c ∈ v, ¬Breaks c := by
  subst hv
  have hall : (m.sign.toList.all fun c => ¬Breaks c) = true := by
    cases m <;> decide
  intro c hc
  exact of_decide_eq_true (List.all_eq_true.mp hall c hc)

/-- The patterns of tokens. -/
def Pattern.isToken : Pattern → Bool
  | .comment | .newline | .blanks => false
  | .number | .fraction | .text | .boolean _ | .kind _ | .keyword _ | .identifier | .mark _ => true

/-- A text that goes on after a token with a break has no pattern. -/
theorem not_mem_over_break
    {p q : Pattern} (hp : p.isToken = true) {w after : List Char} {c : Char} (hw : w ∈ p.language)
    (hc : Breaks c) :
    w ++ c :: after ∉ q.language := by
  intro hq
  have hmem : c ∈ w ++ c :: after := List.mem_append_right w List.mem_cons_self
  have hopening : q.opening = p.opening := by
    obtain ⟨first, others, rfl, hfirst⟩ := exists_cons_of_mem hw
    rw [← hfirst]
    exact opening_eq_of_mem (List.prefix_refl _) hq
  cases p with
  | number =>
      obtain rfl : q = .number := Pattern.eq_of_opening (by simp [opening]) hopening
      exact not_breaks_of_mem_number hq c hmem hc
  | fraction =>
      obtain rfl : q = .fraction := Pattern.eq_of_opening (by simp [opening]) hopening
      exact not_breaks_of_mem_fraction hq c hmem hc
  | boolean | kind | keyword | identifier =>
      have hword := Lexer.mem_identifier_of_opening hopening hq
      exact not_breaks_of_mem_identifier hword c hmem hc
  | text =>
      -- Both texts end at the first quote after the opening one.
      obtain rfl : q = .text := Pattern.eq_of_opening (by simp [opening]) hopening
      obtain ⟨content, rfl, -⟩ := mem_text.mp hw
      have hshort := (Lexer.split_of_mem_text (List.prefix_append _ (c :: after)) hw).1
      have hlong := (Lexer.split_of_mem_text (List.prefix_refl _) hq).1
      rw [← hshort] at hlong
      simp at hlong
  | mark m =>
      have hsign : w = m.sign.toList := hw
      cases q with
      | mark m' => exact not_breaks_of_mem_sign hq c hmem hc
      | comment =>
          obtain ⟨remark, hremark, -⟩ := mem_comment.mp hq
          rw [hsign] at hremark
          cases m
          case slash =>
            have hslash : c = '/' ∧ after = remark := by simpa [Mark.sign] using hremark
            rw [hslash.1] at hc
            exact absurd hc (by decide)
          all_goals simp [Mark.sign] at hremark
      | _ => cases hopening
  | comment | newline | blanks => cases hp

/-- A spelling stands for its token by the pattern that decides about it. -/
theorem Spells.exists_pattern
    {w : List Char} {t : Token} (h : Spells w t) :
    ∃ p : Pattern, p.isToken = true ∧ p.Wins w ∧ p.Denotes w (some t) := by
  cases h with
  | mark m => exact ⟨.mark m, rfl, .of_mem (by simp) rfl, .mark⟩
  | keyword k => exact ⟨.keyword k, rfl, .of_mem (by simp) rfl, .keyword⟩
  | kind k => exact ⟨.kind k, rfl, .of_mem (by simp) rfl, .kind⟩
  | boolean b => exact ⟨.boolean b, rfl, .of_mem (by simp) rfl, .boolean⟩
  | identifier hw hunreserved => exact ⟨.identifier, rfl, ⟨hw, fun _ => hunreserved⟩, .identifier⟩
  | whole hne hdigits =>
      have hw := mem_number.mpr ⟨w, [], (List.append_nil w).symm, hne, hdigits, .inl rfl⟩
      have hread := Decimal.readNumeral?_digits hne hdigits
      rw [Decimal.toFloat_ofDigits]
      exact ⟨.number, rfl, .of_mem (by simp) hw, .number hread⟩
  | @pointed digits fraction hdigits hne hfraction =>
      have htail := mem_fraction.mpr ⟨fraction, rfl, hne, hfraction⟩
      have hread := Decimal.readNumeral?_point hdigits hne hfraction
      rw [Decimal.toFloat_ofDigits]
      by_cases hempty : digits = []
      · subst hempty
        exact ⟨.fraction, rfl, .of_mem (by simp) htail, .fraction hread⟩
      · have hw := mem_number.mpr ⟨digits, _, rfl, hempty, hdigits, .inr htail⟩
        exact ⟨.number, rfl, .of_mem (by simp) hw, .number hread⟩
  | text hcontent =>
      have hw := mem_text.mpr ⟨_, rfl, hcontent⟩
      exact ⟨.text, rfl, .of_mem (by simp) hw, .text rfl⟩

/-- A prefix that is longer than a text goes on with the character that follows the text. -/
theorem exists_of_longer_prefix
    {v w rest : List Char} (hv : v <+: w ++ rest) (hlonger : w.length < v.length) :
    ∃ c after, v = w ++ c :: after ∧ c ∈ rest.head? := by
  obtain ⟨more, rfl⟩ : w <+: v :=
    List.prefix_of_prefix_length_le (List.prefix_append w rest) hv (Nat.le_of_lt hlonger)
  cases more with
  | nil => simp at hlonger
  | cons c after =>
      obtain ⟨others, rfl⟩ := (List.prefix_append_right_inj w).mp hv
      exact ⟨c, after, rfl, rfl⟩

/-- Before a break, or at the end of the text, a spelling is the first piece. -/
theorem Spelling.firstPiece
    (w : Spelling) {rest : List Char} (hrest : ∀ c ∈ rest.head?, Breaks c) :
    FirstPiece w.text rest (some w.token) := by
  obtain ⟨p, hp, hwins, hdenotes⟩ := w.spells.exists_pattern
  refine ⟨⟨⟨ne_nil_of_mem hwins.mem, p, hwins.mem⟩, ?_⟩, p, hwins, hdenotes⟩
  rintro v hv ⟨-, q, hq⟩
  by_contra hlonger
  obtain ⟨c, after, rfl, hc⟩ := exists_of_longer_prefix hv (Nat.lt_of_not_le hlonger)
  exact not_mem_over_break hp hwins.mem (hrest c hc) hq

/-! ## Layout is passed -/

namespace Lexer

/-- A piece that stands for no token leaves nothing but its line ends. -/
theorem lexFrom_of_skipped
    {c : Char} {cs rest : List Char} {n : Nat} (h : piece? c cs = some ⟨none, n, rest⟩)
    (line : Nat) :
    lexFrom line (c :: cs) = lexFrom (line + n) rest := by
  rw [lexFrom_of_some h]
  cases lexFrom (line + n) rest <;> rfl

theorem lexFrom_lineEnd
    (line : Nat) (cs : List Char) :
    lexFrom line ('\n' :: cs) = lexFrom (line + 1) cs :=
  lexFrom_of_skipped rfl line

theorem lexFrom_blank
    {c : Char} (hc : Blank c) (line : Nat) (cs : List Char) :
    lexFrom line (c :: cs) = lexFrom line cs := by
  have hrun {c : Char} (hc : Blank c) (cs : List Char) :
      lexFrom line (c :: cs) = lexFrom line (cs.dropWhile isSpace) := by
    have hline : c ≠ '\n' := by
      rintro rfl
      exact absurd hc (by decide)
    have hpiece : piece? c cs = some ⟨none, 0, cs.dropWhile isSpace⟩ := by
      rw [piece?, if_neg hline, if_pos (isSpace_iff.mpr hc)]
    exact lexFrom_of_skipped hpiece line
  -- Blanks are passed in one run, which the blanks that follow belong to.
  rw [hrun hc]
  cases cs with
  | nil => rfl
  | cons d ds =>
      by_cases hd : Blank d
      · rw [hrun hd, List.dropWhile_cons_of_pos (isSpace_iff.mpr hd)]
      · rw [List.dropWhile_cons_of_neg (mt isSpace_iff.mp hd)]

theorem lexFrom_comment
    {remark : List Char} (hremark : ∀ c ∈ remark, c ≠ '\n') (line : Nat) (cs : List Char) :
    lexFrom line ('/' :: '/' :: (remark ++ '\n' :: cs)) = lexFrom (line + 1) cs := by
  have hplain : ∀ c ∈ remark, decide (c ≠ '\n') = true := fun c hc => decide_eq_true (hremark c hc)
  have hdrop : (remark ++ '\n' :: cs).dropWhile (· ≠ '\n') = '\n' :: cs :=
    dropWhile_append_cons hplain (by simp) cs
  have hpiece : piece? '/' ('/' :: (remark ++ '\n' :: cs)) =
      some ⟨none, 0, (remark ++ '\n' :: cs).dropWhile (· ≠ '\n')⟩ :=
    rfl
  rw [lexFrom_of_skipped hpiece, hdrop, lexFrom_lineEnd, Nat.add_zero]

theorem lexFrom_break
    {c : Char} (hc : Breaks c) (line : Nat) (cs : List Char) :
    lexFrom line (c :: cs) = lexFrom (line + [c].count '\n') cs := by
  rcases hc with hblank | rfl
  · have hcount : [c].count '\n' = 0 := by
      rw [List.count_eq_zero, List.mem_singleton]
      rintro rfl
      exact absurd hblank (by decide)
    rw [lexFrom_blank hblank, hcount, Nat.add_zero]
  · exact lexFrom_lineEnd line cs

theorem lexFrom_spacing
    {spacing : List Char} (h : Spacing spacing) (line : Nat) (cs : List Char) :
    lexFrom line (spacing ++ cs) = lexFrom (line + spacing.count '\n') cs := by
  induction h generalizing line with
  | nil => rfl
  | @breaks c rest hc _ ih =>
      have hcount : ([c] ++ rest).count '\n' = [c].count '\n' + rest.count '\n' :=
        List.count_append
      rw [List.singleton_append] at hcount
      rw [List.cons_append, lexFrom_break hc, ih, hcount, Nat.add_assoc]
  | @comment remark rest hremark _ ih =>
      have hcount : ('/' :: '/' :: (remark ++ '\n' :: rest)).count '\n' = 1 + rest.count '\n' := by
        have hnone : remark.count '\n' = 0 :=
          List.count_eq_zero.mpr fun hmem => hremark '\n' hmem rfl
        simp [hnone, Nat.add_comm]
      rw [hcount, ← Nat.add_assoc, ← ih]
      simpa using lexFrom_comment hremark line (rest ++ cs)

theorem lexFrom_separator
    (s : Separator) (read cs : List Char) :
    lexFrom (lineAfter read) (s.text ++ cs) = lexFrom (lineAfter (read ++ s.text)) cs := by
  rw [lineAfter_append]
  exact lexFrom_spacing (.breaks s.breaks s.spacing) (lineAfter read) cs

/-- Joined spellings are cut into the tokens spelled. -/
theorem lexFrom_joined
    (separators : Nat → Separator) (read : List Char) (ws : List Spelling) :
    lexFrom (lineAfter read) (joined separators ws) = .ok (tagged separators read ws) := by
  fun_induction joined separators ws generalizing read with
  | case1 => exact lexFrom_nil _
  | case2 separators w =>
      have hend : ∀ c ∈ ([] : List Char).head?, Breaks c := by simp
      have hlast : lexFrom (lineAfter read) (w.text ++ []) = _ :=
        lexFrom_firstPiece (w.firstPiece hend)
      rw [List.append_nil, lexFrom_nil] at hlast
      exact hlast
  | case3 separators w next ws ih =>
      have hbreak : ∀ c ∈ ((separators 0).text ++
          joined (fun n => separators (n + 1)) (next :: ws)).head?, Breaks c := by
        intro c hc
        obtain rfl := Option.some.inj hc
        exact (separators 0).breaks
      rw [lexFrom_firstPiece (w.firstPiece hbreak), lexFrom_separator, ih]
      rfl

end Lexer

/-- Cutting undoes spelling, whatever the layout.  Spellings of tokens that are joined by
separators are cut into exactly these tokens, in their order, and each has the line that the text
reaches at the end of its spelling. -/
theorem lex_undoes_spelling
    (separators : Nat → Separator) (ws : List Spelling) :
    lex (String.ofList (joined separators ws)) = .ok (tagged separators [] ws) := by
  rw [lex, String.toList_ofList]
  exact Lexer.lexFrom_joined separators [] ws

/-- A keyword, an identifier that starts with it, two signs of which the second starts with the
first, a numeral and a text over two lines, with blanks, line ends and a comment between them. -/
theorem spelled_line_by_line :
    lex "lada ladas\t// a remark\n =\n=> 3.14 \"p\nq\"" =
      .ok [⟨.keyword .lada, 1⟩, ⟨.identifier "ladas", 1⟩, ⟨.mark .equals, 2⟩, ⟨.mark .arrow, 3⟩,
        ⟨.number (.ofBits 0x40091eb851eb851f), 3⟩, ⟨.text "p\nq", 4⟩] := by
  have hword : "ladas".toList ∈ Pattern.identifier.language :=
    mem_identifier_of_check (by decide) (by decide)
  have hunreserved (p : Pattern) (hp : p.isReserved = true) : "ladas".toList ∉ p.language := by
    intro hmem
    cases p with
    | boolean b => cases b <;> exact absurd (show "ladas".toList = _ from hmem) (by decide)
    | kind k => cases k <;> exact absurd (show "ladas".toList = _ from hmem) (by decide)
    | keyword k => cases k <;> exact absurd (show "ladas".toList = _ from hmem) (by decide)
    | _ => cases hp
  have hwhole : ∀ c ∈ ['3'], Digit c := by simp [Digit]
  have hfraction : ∀ c ∈ ['1', '4'], Digit c := by simp [Digit]
  have hcontent : ∀ c ∈ ['p', '\n', 'q'], c ≠ '"' := by simp
  let spellings : List Spelling :=
    [⟨_, _, .keyword .lada⟩, ⟨_, _, .identifier hword hunreserved⟩, ⟨_, _, .mark .equals⟩,
      ⟨_, _, .mark .arrow⟩, ⟨_, _, .pointed hwhole (List.cons_ne_nil _ _) hfraction⟩,
      ⟨_, _, .text hcontent⟩]
  have hremark : ∀ c ∈ " a remark".toList, c ≠ '\n' := by simp
  have hspace : Breaks ' ' := by decide
  have hline : Breaks '\n' := by decide
  let blank : Separator := ⟨' ', [], hspace, .nil⟩
  let remark : Separator := ⟨'\t', _, by decide, .comment hremark (.breaks hspace .nil)⟩
  let lineEnd : Separator := ⟨'\n', [], hline, .nil⟩
  let separators (n : Nat) : Separator := [blank, remark, lineEnd].getD n blank
  exact lex_undoes_spelling separators spellings

end ColonScript
