import Mathlib
import ColonScript.Proofs.Lexing.Longest
import ColonScript.Proofs.Number.Numerals

/-!
# What is cut off a text

The piece that is cut off a text is its first piece, and where none is cut off there is none.  The
first character tells which patterns can match at all.  For most characters this is one pattern;
letters leave the words, and an equals sign or a slash leaves signs and comments.
-/

namespace ColonScript

open Pattern

/-! ## Characters -/

namespace Lexer

theorem isSpace_iff
    {c : Char} :
    isSpace c = true ↔ Blank c := by
  simp [isSpace, Blank, or_assoc]

theorem startsWord_iff
    {c : Char} :
    startsWord c = true ↔ Letter c := by
  simp [startsWord, Letter, Char.isAlpha, Char.isUpper, Char.isLower, Char.le_def, or_assoc,
    or_left_comm]

theorem continuesWord_iff
    {c : Char} :
    continuesWord c = true ↔ Letter c ∨ Digit c := by
  have hstarts := @startsWord_iff c
  simp only [startsWord, continuesWord, Char.isAlphanum, Bool.or_eq_true, isDigit_iff] at *
  rw [← hstarts, or_right_comm]

end Lexer

/-! ## Runs of characters -/

section Runs

variable {q : Char → Bool} {v text : List Char}

theorem length_le_takeWhile
    (hv : v <+: text) (hall : ∀ c ∈ v, q c = true) :
    v.length ≤ (text.takeWhile q).length := by
  obtain ⟨after, rfl⟩ := hv
  rw [List.takeWhile_append_of_pos hall, List.length_append]
  exact Nat.le_add_right _ _

theorem takeWhile_append_cons
    (hall : ∀ c ∈ v, q c = true) {d : Char} (hd : q d = false) (after : List Char) :
    (v ++ d :: after).takeWhile q = v :=
  takeWhile_append_of_head hall (by simpa using hd)

theorem dropWhile_append_cons
    (hall : ∀ c ∈ v, q c = true) {d : Char} (hd : q d = false) (after : List Char) :
    (v ++ d :: after).dropWhile q = d :: after :=
  dropWhile_append_of_head hall (by simpa using hd)

theorem count_newline_takeWhile
    (hq : q '\n' = false) (text : List Char) :
    (text.takeWhile q).count '\n' = 0 := by
  rw [List.count_eq_zero]
  intro hmem
  have hnewline := List.mem_takeWhile_imp hmem
  rw [hq] at hnewline
  cases hnewline

end Runs

/-! ## One pattern at a time -/

theorem opening_eq_of_mem
    {p : Pattern} {c : Char} {v cs : List Char} (hv : v <+: c :: cs) (hp : v ∈ p.language) :
    p.opening = openingOf c := by
  obtain ⟨c', v', rfl, hopening⟩ := exists_cons_of_mem hp
  obtain ⟨rfl, -⟩ := List.cons_prefix_cons.mp hv
  exact hopening.symm

theorem Pattern.Wins.of_mem
    {p : Pattern} (hp : p ≠ .identifier) {w : List Char} (hw : w ∈ p.language) :
    p.Wins w :=
  ⟨hw, fun h => absurd h hp⟩

/-- Apart from words and signs, the first character leaves one pattern. -/
theorem Pattern.eq_of_opening
    {p q : Pattern} (hp : p.opening ≠ .letter ∧ p.opening ≠ .sign)
    (h : q.opening = p.opening) :
    q = p := by
  obtain ⟨hletter, hsign⟩ := hp
  cases p <;> cases q <;> first | rfl | contradiction

namespace Lexer

/-- A piece is rightly cut off a text: it is the first piece `w` of the text, with its line ends
counted. -/
structure Cuts (text : List Char) (piece : Piece) (w : List Char) : Prop where
  split : w ++ piece.rest = text
  newlines : piece.newlines = w.count '\n'
  firstPiece : FirstPiece w piece.rest piece.token

theorem Cuts.of_wins
    {p : Pattern} {text w : List Char} {piece : Piece} (hsplit : w ++ piece.rest = text)
    (hnewlines : w.count '\n' = piece.newlines) (hwins : p.Wins w)
    (htoken : p.Denotes w piece.token)
    (hbound : ∀ q : Pattern, ∀ v, v <+: text → v ∈ q.language → v.length ≤ w.length) :
    Cuts text piece w where
  split := hsplit
  newlines := hnewlines.symm
  firstPiece :=
    { longest :=
        { isPiece := ⟨ne_nil_of_mem hwins.mem, p, hwins.mem⟩
          length_le := fun v hv ⟨_, q, hq⟩ => hbound q v (hsplit ▸ hv) hq }
      denoted := ⟨p, hwins, htoken⟩ }

/-- A piece of a pattern that is the only one with its opening. -/
theorem Cuts.of_mem
    {p : Pattern} (hp : p.opening ≠ .letter ∧ p.opening ≠ .sign)
    {text w : List Char} {piece : Piece} (hsplit : w ++ piece.rest = text)
    (hnewlines : w.count '\n' = piece.newlines) (hw : w ∈ p.language)
    (htoken : p.Denotes w piece.token)
    (hbound : ∀ v, v <+: text → v ∈ p.language → v.length ≤ w.length) :
    Cuts text piece w := by
  have hidentifier : p ≠ .identifier := by
    rintro rfl
    exact hp.1 rfl
  refine .of_wins hsplit hnewlines (.of_mem hidentifier hw) htoken ?_
  intro q v hv hq
  obtain ⟨c, w', rfl, hopening⟩ := exists_cons_of_mem hw
  have hq' : q.opening = p.opening := by
    rw [← hopening]
    rw [← hsplit, List.cons_append] at hv
    exact opening_eq_of_mem hv hq
  obtain rfl := Pattern.eq_of_opening hp hq'
  exact hbound v hv hq

theorem cuts_newline
    (cs : List Char) :
    Cuts ('\n' :: cs) ⟨none, 1, cs⟩ ['\n'] := by
  refine .of_mem (p := .newline) (by simp [opening]) rfl rfl rfl .newline ?_
  rintro v - rfl
  exact Nat.le_refl _

theorem cuts_blanks
    {c : Char} (hc : isSpace c = true) (cs : List Char) :
    Cuts (c :: cs) ⟨none, 0, cs.dropWhile isSpace⟩ ((c :: cs).takeWhile isSpace) := by
  refine .of_mem (p := .blanks) (by simp [opening]) ?_ (count_newline_takeWhile rfl _) ?_
    .blanks ?_
  · simp [hc]
  · refine mem_several.mpr ⟨by simp [hc], fun d hd => ?_⟩
    exact isSpace_iff.mp (List.mem_takeWhile_imp hd)
  · intro v hv hblanks
    have hall := (mem_several.mp hblanks).2
    exact length_le_takeWhile hv fun d hd => isSpace_iff.mpr (hall d hd)

/-! ## Numbers -/

theorem forall_digit_takeWhile
    (text : List Char) :
    ∀ c ∈ text.takeWhile Char.isDigit, Digit c :=
  fun _ hc => isDigit_iff.mp (List.mem_takeWhile_imp hc)

/-- A number at the front of a text is a run of digits, or all digits there, a point and a run of
digits after it. -/
theorem length_le_of_mem_number
    {v text : List Char} (hv : v <+: text) (hnumber : v ∈ Pattern.number.language) :
    v.length ≤ (text.takeWhile Char.isDigit).length ∨
      ∃ after, text.dropWhile Char.isDigit = '.' :: after ∧
        (after.takeWhile Char.isDigit) ≠ [] ∧
        v.length ≤ (text.takeWhile Char.isDigit).length +
          ('.' :: after.takeWhile Char.isDigit).length := by
  obtain ⟨whole, tail, rfl, hne, hwhole, rfl | htail⟩ := mem_number.mp hnumber
  · rw [List.append_nil] at hv ⊢
    exact .inl (length_le_takeWhile hv (forall_isDigit hwhole))
  · obtain ⟨digits, rfl, hdigits, hall⟩ := mem_fraction.mp htail
    obtain ⟨after, rfl⟩ := hv
    right
    rw [List.append_assoc, List.cons_append]
    rw [takeWhile_append_cons (forall_isDigit hwhole) rfl,
      dropWhile_append_cons (forall_isDigit hwhole) rfl]
    have hlength : digits.length ≤ ((digits ++ after).takeWhile Char.isDigit).length :=
      length_le_takeWhile (List.prefix_append _ _) (forall_isDigit hall)
    refine ⟨digits ++ after, rfl, ?_, ?_⟩
    · rw [← List.length_pos_iff] at hdigits ⊢
      omega
    · simp only [List.length_append, List.length_cons] at hlength ⊢
      omega

theorem cuts_whole
    {c : Char} (hc : c.isDigit = true) {cs : List Char}
    (hpoint : ∀ after, cs.dropWhile Char.isDigit = '.' :: after →
      after.takeWhile Char.isDigit = []) :
    Cuts (c :: cs)
      ⟨some (.number (Decimal.ofDigits (c :: cs.takeWhile Char.isDigit) []).toFloat), 0,
        cs.dropWhile Char.isDigit⟩ ((c :: cs).takeWhile Char.isDigit) := by
  have hwhole := forall_digit_takeWhile (c :: cs)
  have hne : (c :: cs).takeWhile Char.isDigit ≠ [] := by simp [hc]
  refine .of_mem (p := .number) (by simp [opening]) ?_ (count_newline_takeWhile rfl _) ?_ ?_ ?_
  · simp [hc]
  · exact mem_number.mpr ⟨_, [], by simp, hne, hwhole, .inl rfl⟩
  · rw [Decimal.toFloat_ofDigits, ← List.takeWhile_cons_of_pos hc]
    exact .number (Decimal.readNumeral?_digits hne hwhole)
  · intro v hv hnumber
    obtain hle | ⟨after, hdrop, hafter, -⟩ := length_le_of_mem_number hv hnumber
    · exact hle
    · rw [List.dropWhile_cons_of_pos hc] at hdrop
      exact absurd (hpoint after hdrop) hafter

theorem cuts_pointed
    {c : Char} (hc : c.isDigit = true) {d : Char} (hd : d.isDigit = true) {cs ds : List Char}
    (hdrop : cs.dropWhile Char.isDigit = '.' :: d :: ds) :
    Cuts (c :: cs)
      ⟨some (.number (Decimal.ofDigits (c :: cs.takeWhile Char.isDigit)
        (d :: ds.takeWhile Char.isDigit)).toFloat), 0, ds.dropWhile Char.isDigit⟩
      ((c :: cs).takeWhile Char.isDigit ++ '.' :: (d :: ds).takeWhile Char.isDigit) := by
  have hwhole := forall_digit_takeWhile (c :: cs)
  have hfraction := forall_digit_takeWhile (d :: ds)
  have hne : (d :: ds).takeWhile Char.isDigit ≠ [] := by simp [hd]
  refine .of_mem (p := .number) (by simp [opening]) ?_ ?_ ?_ ?_ ?_
  · have hsplit := List.takeWhile_append_dropWhile (p := Char.isDigit) (l := cs)
    rw [hdrop] at hsplit
    simpa [hc, hd] using hsplit
  · rw [List.count_append, count_newline_takeWhile rfl, List.count_cons,
      count_newline_takeWhile rfl]
    rfl
  · refine mem_number.mpr ⟨_, _, rfl, by simp [hc], hwhole, .inr ?_⟩
    exact mem_fraction.mpr ⟨_, rfl, hne, hfraction⟩
  · rw [Decimal.toFloat_ofDigits, ← List.takeWhile_cons_of_pos hc, ← List.takeWhile_cons_of_pos hd]
    exact .number (Decimal.readNumeral?_point hwhole hne hfraction)
  · intro v hv hnumber
    rw [List.length_append]
    obtain hle | ⟨after, hafter, -, hle⟩ := length_le_of_mem_number hv hnumber
    · omega
    · rw [List.dropWhile_cons_of_pos hc, hdrop] at hafter
      obtain rfl := (List.cons.inj hafter).2
      exact hle

theorem cuts_number
    {c : Char} (hc : c.isDigit = true) (cs : List Char) :
    ∃ w, Cuts (c :: cs) (number c cs) w := by
  unfold number
  dsimp only
  split
  next d ds hdrop =>
    split
    next hd => exact ⟨_, cuts_pointed hc hd hdrop⟩
    next hd =>
      refine ⟨_, cuts_whole hc fun after hafter => ?_⟩
      rw [hdrop] at hafter
      obtain rfl := (List.cons.inj hafter).2
      exact List.takeWhile_cons_of_neg hd
  next hrest =>
    refine ⟨_, cuts_whole hc fun after hafter => ?_⟩
    cases after with
    | nil => rfl
    | cons d ds => exact absurd hafter (hrest d ds)

theorem cuts_fraction
    {d : Char} (hd : d.isDigit = true) (ds : List Char) :
    Cuts ('.' :: d :: ds)
      ⟨some (.number (Decimal.ofDigits [] (d :: ds.takeWhile Char.isDigit)).toFloat), 0,
        ds.dropWhile Char.isDigit⟩
      ('.' :: (d :: ds).takeWhile Char.isDigit) := by
  have hfraction := forall_digit_takeWhile (d :: ds)
  have hne : (d :: ds).takeWhile Char.isDigit ≠ [] := by simp [hd]
  refine .of_mem (p := .fraction) (by simp [opening]) ?_ ?_ ?_ ?_ ?_
  · simp [hd]
  · rw [List.count_cons, count_newline_takeWhile rfl]
    rfl
  · exact mem_fraction.mpr ⟨_, rfl, hne, hfraction⟩
  · rw [Decimal.toFloat_ofDigits, ← List.takeWhile_cons_of_pos hd]
    have hwhole : ∀ c ∈ ([] : List Char), Digit c := by simp
    exact .fraction (Decimal.readNumeral?_point hwhole hne hfraction)
  · intro v hv hmem
    obtain ⟨digits, rfl, -, hdigits⟩ := mem_fraction.mp hmem
    have hprefix := (List.cons_prefix_cons.mp hv).2
    exact Nat.succ_le_succ (length_le_takeWhile hprefix (forall_isDigit hdigits))

theorem not_mem_fraction
    {v cs : List Char} (hcs : cs.takeWhile Char.isDigit = []) (hv : v <+: '.' :: cs) :
    v ∉ fraction.language := by
  intro hmem
  obtain ⟨digits, rfl, hne, hdigits⟩ := mem_fraction.mp hmem
  have hprefix := (List.cons_prefix_cons.mp hv).2
  have hlength := length_le_takeWhile hprefix (forall_isDigit hdigits)
  rw [hcs, List.length_nil, Nat.le_zero, List.length_eq_zero_iff] at hlength
  exact hne hlength

/-! ## Words -/

theorem exists_reserved
    {s : String} {t : Token} (h : reservedWords.lookup s = some t) :
    ∃ p : Pattern, p.isReserved = true ∧ s.toList ∈ p.language ∧ p.Denotes s.toList (some t) := by
  obtain ⟨before, after, hsplit, -⟩ := List.lookup_eq_some_iff.mp h
  have hmem : (s, t) ∈ reservedWords := by simp [hsplit]
  simp only [reservedWords, List.mem_append, List.mem_map] at hmem
  rcases hmem with (⟨k, -, hk⟩ | ⟨k, -, hk⟩) | hbool
  · obtain ⟨rfl, rfl⟩ := Prod.mk.inj hk
    exact ⟨.kind k, rfl, rfl, .kind⟩
  · obtain ⟨rfl, rfl⟩ := Prod.mk.inj hk
    exact ⟨.keyword k, rfl, rfl, .keyword⟩
  · simp only [List.mem_cons, Prod.mk.injEq, List.not_mem_nil, or_false] at hbool
    rcases hbool with ⟨rfl, rfl⟩ | ⟨rfl, rfl⟩
    · exact ⟨.boolean true, rfl, rfl, .boolean⟩
    · exact ⟨.boolean false, rfl, rfl, .boolean⟩

theorem exists_denotes
    {p : Pattern} (hp : p.isReserved = true) (w : List Char) :
    ∃ t, p.Denotes w (some t) := by
  cases p with
  | boolean => exact ⟨_, .boolean⟩
  | kind => exact ⟨_, .kind⟩
  | keyword => exact ⟨_, .keyword⟩
  | _ => cases hp

/-- The token of a word is what the pattern that decides about it makes of it. -/
theorem exists_wins_word
    {w : List Char} (hw : w ∈ identifier.language) :
    ∃ p : Pattern, p.Wins w ∧ p.Denotes w (some (wordToken (String.ofList w))) := by
  unfold wordToken
  cases hlookup : reservedWords.lookup (String.ofList w) with
  | some t =>
      obtain ⟨p, hreserved, hmem, ht⟩ := exists_reserved hlookup
      rw [String.toList_ofList] at hmem ht
      refine ⟨p, .of_mem ?_ hmem, ht⟩
      rintro rfl
      cases hreserved
  | none =>
      refine ⟨.identifier, ⟨hw, fun _ q hreserved hq => ?_⟩, .identifier⟩
      obtain ⟨t, ht⟩ := exists_denotes hreserved w
      rw [lookup_reservedWords hreserved hq ht] at hlookup
      cases hlookup

theorem mem_identifier_of_opening
    {p : Pattern} (hp : p.opening = .letter) {v : List Char} (hv : v ∈ p.language) :
    v ∈ identifier.language := by
  cases p with
  | identifier => exact hv
  | boolean | kind | keyword => exact mem_identifier_of_mem rfl hv
  | _ => cases hp

theorem cuts_word
    {c : Char} (hc : startsWord c = true) (cs : List Char) :
    Cuts (c :: cs) (word c cs) (c :: cs.takeWhile continuesWord) := by
  have hmem : c :: cs.takeWhile continuesWord ∈ identifier.language := by
    refine mem_identifier.mpr ⟨c, _, rfl, startsWord_iff.mp hc, fun d hd => ?_⟩
    exact continuesWord_iff.mp (List.mem_takeWhile_imp hd)
  obtain ⟨p, hwins, htoken⟩ := exists_wins_word hmem
  refine .of_wins ?_ ?_ hwins htoken ?_
  · simp [word]
  · rw [List.count_cons_of_ne, count_newline_takeWhile rfl]
    · rfl
    · rintro rfl
      cases hc
  · intro q v hv hq
    have hopening : q.opening = .letter := by
      rw [opening_eq_of_mem hv hq]
      exact openingOf_letter (startsWord_iff.mp hc)
    obtain ⟨c', u, rfl, -, hall⟩ := mem_identifier.mp (mem_identifier_of_opening hopening hq)
    obtain ⟨rfl, hu⟩ := List.cons_prefix_cons.mp hv
    exact Nat.succ_le_succ (length_le_takeWhile hu fun d hd => continuesWord_iff.mpr (hall d hd))

/-! ## Texts -/

/-- A text in quotes at the front ends at the first quote after the opening one. -/
theorem split_of_mem_text
    {v cs : List Char} (hv : v <+: '"' :: cs) (htext : v ∈ Pattern.text.language) :
    v = '"' :: (cs.takeWhile (· ≠ '"') ++ ['"']) ∧ cs.dropWhile (· ≠ '"') ≠ [] := by
  obtain ⟨content, rfl, hcontent⟩ := mem_text.mp htext
  have hplain : ∀ c ∈ content, decide (c ≠ '"') = true := fun c hc => decide_eq_true (hcontent c hc)
  obtain ⟨after, rfl⟩ := (List.cons_prefix_cons.mp hv).2
  rw [List.append_assoc, List.singleton_append, takeWhile_append_cons hplain (by simp),
    dropWhile_append_cons hplain (by simp)]
  exact ⟨rfl, List.cons_ne_nil _ _⟩

theorem cuts_string?
    {cs : List Char} {piece : Piece} (h : string? cs = some piece) :
    ∃ w, Cuts ('"' :: cs) piece w := by
  unfold string? at h
  dsimp only at h
  split at h
  next => cases h
  next c rest hdrop =>
    obtain rfl := Option.some.inj h
    have hc : c = '"' := by
      have hhead := List.head?_dropWhile_not (· ≠ '"') cs
      rw [hdrop] at hhead
      simpa using hhead
    subst hc
    refine ⟨'"' :: (cs.takeWhile (· ≠ '"') ++ ['"']),
      .of_mem (p := .text) (by simp [opening]) ?_ ?_ ?_ (.text rfl) ?_⟩
    · rw [List.cons_append, List.append_assoc, List.singleton_append, ← hdrop,
        List.takeWhile_append_dropWhile]
    · simp
    · refine mem_text.mpr ⟨_, rfl, fun d hd => ?_⟩
      simpa using List.mem_takeWhile_imp hd
    · intro v hv htext
      rw [(split_of_mem_text hv htext).1]

theorem not_mem_text
    {v cs : List Char} (h : string? cs = none) (hv : v <+: '"' :: cs) :
    v ∉ Pattern.text.language := by
  intro htext
  unfold string? at h
  dsimp only at h
  split at h
  next hdrop => exact (split_of_mem_text hv htext).2 hdrop
  next => cases h

/-! ## Signs and comments -/

/-- A piece that opens like a sign is a comment or a mark. -/
theorem comment_or_mark
    {c : Char} (hc : openingOf c = .sign) {p : Pattern} {v cs : List Char} (hv : v <+: c :: cs)
    (hp : v ∈ p.language) :
    v ∈ comment.language ∨ ∃ m : Mark, v = m.sign.toList := by
  have hopening : p.opening = .sign := (opening_eq_of_mem hv hp).trans hc
  cases p with
  | comment => exact .inl hp
  | mark m => exact .inr ⟨m, hp⟩
  | _ => cases hopening

theorem cuts_mark
    {m : Mark} {cs : List Char}
    (hcomment : ¬['/', '/'] <+: m.sign.toList ++ cs)
    (hmark : ∀ m' : Mark, m'.sign.toList <+: m.sign.toList ++ cs →
      m'.sign.toList.length ≤ m.sign.toList.length) :
    Cuts (m.sign.toList ++ cs) (.ofMark m cs) m.sign.toList := by
  refine .of_wins (p := .mark m) rfl ?_ (.of_mem (by simp) rfl) .mark ?_
  · cases m <;> rfl
  · intro q v hv hq
    obtain ⟨c, after, hcons, hopening⟩ := exists_cons_of_mem (p := .mark m) rfl
    have hv' : v <+: c :: (after ++ cs) := by
      rw [← List.cons_append, ← hcons]
      exact hv
    obtain hremark | ⟨m', rfl⟩ := comment_or_mark hopening hv' hq
    · obtain ⟨remark, rfl, -⟩ := mem_comment.mp hremark
      exact absurd ((List.prefix_append ['/', '/'] remark).trans hv) hcomment
    · exact hmark m' hv

theorem length_sign_le
    {m : Mark} {c : Char} {cs : List Char} (hc : c ≠ '=') (h : m.sign.toList <+: c :: cs) :
    m.sign.toList.length ≤ 1 := by
  cases m
  case arrow | equalEqual => exact absurd (List.cons_prefix_cons.mp h).1.symm hc
  all_goals decide

theorem cuts_single
    {m : Mark} {c : Char} (hm : m.sign.toList = [c]) (hc : c ≠ '=') {cs : List Char}
    (hslash : ∀ after, c = '/' → cs ≠ '/' :: after) :
    Cuts (c :: cs) (.ofMark m cs) [c] := by
  have hcuts : Cuts (m.sign.toList ++ cs) (.ofMark m cs) m.sign.toList := by
    apply cuts_mark
    · rw [hm]
      rintro ⟨after, hafter⟩
      obtain ⟨hc, hcs⟩ := List.cons.inj hafter
      exact hslash after hc.symm hcs.symm
    · intro m' hm'
      rw [hm] at hm' ⊢
      exact length_sign_le hc hm'
  rw [hm] at hcuts
  exact hcuts

theorem cuts_comment
    (cs : List Char) :
    Cuts ('/' :: '/' :: cs) ⟨none, 0, cs.dropWhile (· ≠ '\n')⟩
      ('/' :: '/' :: cs.takeWhile (· ≠ '\n')) := by
  refine .of_wins (p := .comment) ?_ ?_ (.of_mem (by simp) ?_) .comment ?_
  · simp
  · exact count_newline_takeWhile (q := (· ≠ '\n')) (by simp) cs
  · refine mem_comment.mpr ⟨_, rfl, fun d hd => ?_⟩
    simpa using List.mem_takeWhile_imp hd
  · intro q v hv hq
    obtain hremark | ⟨m, rfl⟩ := comment_or_mark rfl hv hq
    · obtain ⟨remark, rfl, hall⟩ := mem_comment.mp hremark
      have hprefix := (List.cons_prefix_cons.mp (List.cons_prefix_cons.mp hv).2).2
      have hle := length_le_takeWhile (q := (· ≠ '\n')) hprefix (by simpa using hall)
      exact Nat.succ_le_succ (Nat.succ_le_succ hle)
    · exact (length_sign_le (by decide) hv).trans (by simp)

theorem length_sign_le_two
    (m : Mark) :
    m.sign.toList.length ≤ 2 := by
  cases m <;> decide

theorem cuts_equals
    {cs : List Char} (harrow : ∀ after, cs ≠ '>' :: after) (hequal : ∀ after, cs ≠ '=' :: after) :
    Cuts ('=' :: cs) (.ofMark .equals cs) ['='] := by
  apply cuts_mark (m := .equals)
  · rintro ⟨after, hafter⟩
    cases (List.cons.inj hafter).1
  · intro m hm
    cases m
    case arrow =>
      obtain ⟨after, hafter⟩ := (List.cons_prefix_cons.mp hm).2
      exact absurd hafter.symm (harrow after)
    case equalEqual =>
      obtain ⟨after, hafter⟩ := (List.cons_prefix_cons.mp hm).2
      exact absurd hafter.symm (hequal after)
    all_goals decide

theorem cuts_sign?
    {c : Char} {cs : List Char} {piece : Piece} (h : sign? c cs = some piece) :
    ∃ w, Cuts (c :: cs) piece w := by
  unfold sign? at h
  split at h
  · obtain rfl := Option.some.inj h
    exact ⟨_, cuts_comment _⟩
  · next hslash =>
    obtain rfl := Option.some.inj h
    exact ⟨_, cuts_single rfl (by decide) fun after _ => hslash after⟩
  · obtain rfl := Option.some.inj h
    exact ⟨_, cuts_mark (m := .arrow) (by simp [Mark.sign]) fun m _ => length_sign_le_two m⟩
  · obtain rfl := Option.some.inj h
    exact ⟨_, cuts_mark (m := .equalEqual) (by simp [Mark.sign]) fun m _ => length_sign_le_two m⟩
  · next harrow hequal =>
    obtain rfl := Option.some.inj h
    exact ⟨_, cuts_equals harrow hequal⟩
  case h_16 =>
    split at h
    next hd =>
      obtain rfl := Option.some.inj h
      exact ⟨_, cuts_fraction hd _⟩
    next => cases h
  case h_17 => cases h
  -- The other signs have one character, and nothing longer starts with it.
  all_goals
    obtain rfl := Option.some.inj h
    exact ⟨_, cuts_single rfl (by decide) (by simp)⟩

theorem sign?_ne_none
    {m : Mark} {c : Char} {after : List Char} (h : m.sign.toList = c :: after) (cs : List Char) :
    sign? c cs ≠ none := by
  cases m
  all_goals
    simp only [Mark.sign, String.reduceToList, List.cons.injEq] at h
    obtain ⟨rfl, -⟩ := h
    unfold sign?
    split <;> simp_all

theorem takeWhile_isDigit_of_sign?
    {cs : List Char} (h : sign? '.' cs = none) :
    cs.takeWhile Char.isDigit = [] := by
  cases cs with
  | nil => rfl
  | cons d ds =>
      apply List.takeWhile_cons_of_neg
      intro hd
      simp [sign?, hd] at h

theorem not_mem_of_sign?
    {c : Char} {cs : List Char} (h : sign? c cs = none)
    (hopening : openingOf c = .point ∨ openingOf c = .sign) {p : Pattern} {v : List Char}
    (hv : v <+: c :: cs) :
    v ∉ p.language := by
  intro hp
  rcases hopening with hpoint | hsign
  · have hfraction : p = .fraction :=
      Pattern.eq_of_opening (by simp [opening]) ((opening_eq_of_mem hv hp).trans hpoint)
    subst hfraction
    obtain ⟨digits, rfl, -⟩ := mem_fraction.mp hp
    obtain ⟨rfl, -⟩ := List.cons_prefix_cons.mp hv
    exact not_mem_fraction (takeWhile_isDigit_of_sign? h) hv hp
  · obtain hremark | ⟨m, rfl⟩ := comment_or_mark hsign hv hp
    · obtain ⟨remark, rfl, -⟩ := mem_comment.mp hremark
      obtain ⟨rfl, -⟩ := List.cons_prefix_cons.mp hv
      exact sign?_ne_none (m := .slash) rfl cs h
    · obtain ⟨c', after, hcons, -⟩ := exists_cons_of_mem hp
      rw [hcons] at hv
      obtain ⟨rfl, -⟩ := List.cons_prefix_cons.mp hv
      exact sign?_ne_none hcons cs h

/-! ## Any piece -/

/-- What is cut off a text is its first piece. -/
theorem cuts_piece?
    {c : Char} {cs : List Char} {piece : Piece} (h : piece? c cs = some piece) :
    ∃ w, Cuts (c :: cs) piece w := by
  unfold piece? at h
  split at h
  next hc =>
    obtain rfl := Option.some.inj h
    exact ⟨_, hc ▸ cuts_newline cs⟩
  split at h
  next hc =>
    obtain rfl := Option.some.inj h
    exact ⟨_, cuts_blanks hc cs⟩
  split at h
  next hc =>
    obtain rfl := Option.some.inj h
    exact cuts_number hc cs
  split at h
  next hc =>
    obtain rfl := Option.some.inj h
    exact ⟨_, cuts_word hc cs⟩
  split at h
  next hc =>
    subst hc
    exact cuts_string? h
  next => exact cuts_sign? h

/-- Where nothing is cut off a text, no pattern matches at its front. -/
theorem not_mem_of_piece?
    {c : Char} {cs : List Char} (h : piece? c cs = none) {p : Pattern} {v : List Char}
    (hv : v <+: c :: cs) :
    v ∉ p.language := by
  unfold piece? at h
  split at h
  next => cases h
  next hline =>
  split at h
  next => cases h
  next hblank =>
  split at h
  next => cases h
  next hdigit =>
  split at h
  next => cases h
  next hletter =>
  split at h
  next hquote =>
    subst hquote
    intro hp
    have htext : p = .text :=
      Pattern.eq_of_opening (by simp [opening]) (opening_eq_of_mem hv hp)
    subst htext
    exact not_mem_text h hv hp
  next hquote =>
    refine not_mem_of_sign? h ?_ hv
    rw [isSpace_iff] at hblank
    rw [isDigit_iff] at hdigit
    rw [startsWord_iff] at hletter
    unfold openingOf
    simp only [hline, hblank, hdigit, hletter, hquote, if_false]
    split
    · exact .inl rfl
    · exact .inr rfl

end Lexer

end ColonScript
