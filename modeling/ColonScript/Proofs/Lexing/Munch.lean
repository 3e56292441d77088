import ColonScript.Proofs.Lexing.Cutting

/-!
# Reading by longest match

Longest-match reading takes the longest piece off the front of a text, again and again.  It keeps
the tokens with the lines on which they end, and stops at the first place where no pattern
matches.  This is a relation over patterns, independent of how pieces are found; the lexer decides
it (`lex_iff_munch`), and where the lexer fails, the place it reports is the one at which cutting
stops (`stopsAt_of_lex_eq_error`).
-/

namespace ColonScript

/-- The line that a source reaches after the text that is read. -/
def lineAfter (read : List Char) : Nat :=
  1 + read.count '\n'

/-- Longest-match reading of a text, after the part of the source that is already read. -/
inductive Munch : List Char → List Char → Except ReadError (List Lexeme) → Prop where
  | done {read : List Char} :
      Munch read [] (.ok [])
  | skip {read w rest : List Char} {outcome : Except ReadError (List Lexeme)}
      (hw : FirstPiece w rest none) (h : Munch (read ++ w) rest outcome) :
      Munch read (w ++ rest) outcome
  | token {read w rest : List Char} {t : Token} {outcome : Except ReadError (List Lexeme)}
      (hw : FirstPiece w rest (some t)) (h : Munch (read ++ w) rest outcome) :
      Munch read (w ++ rest) (outcome.map (⟨t, lineAfter (read ++ w)⟩ :: ·))
  | unclosed {read rest : List Char} (h : ∀ v, v <+: '"' :: rest → ¬IsPiece v) :
      Munch read ('"' :: rest)
        (.error ⟨.unrecognized (String.ofList ('"' :: rest)), lineAfter read⟩)
  | stray {read rest : List Char} {c : Char} (hc : c ≠ '"')
      (h : ∀ v, v <+: c :: rest → ¬IsPiece v) :
      Munch read (c :: rest) (.error ⟨.unrecognized (String.ofList [c]), lineAfter read⟩)

theorem lineAfter_append
    (read w : List Char) :
    lineAfter (read ++ w) = lineAfter read + w.count '\n' := by
  rw [lineAfter, lineAfter, List.count_append, Nat.add_assoc]

/-- A piece is passed, with its token if it stands for one. -/
theorem Munch.of_firstPiece
    {read w rest : List Char} {t : Option Token} {outcome : Except ReadError (List Lexeme)}
    (hw : FirstPiece w rest t) (h : Munch (read ++ w) rest outcome) :
    Munch read (w ++ rest)
      (outcome.map ((t.map (⟨·, lineAfter (read ++ w)⟩)).toList ++ ·)) := by
  cases t with
  | none =>
      have hmap : outcome.map (([] : List Lexeme) ++ ·) = outcome := by
        cases outcome <;> rfl
      exact hmap.symm ▸ .skip hw h
  | some t => exact .token hw h

namespace Lexer

/-! ## The lexer, one piece at a time -/

theorem lexFrom_nil
    (line : Nat) :
    lexFrom line [] = .ok [] := by
  rw [lexFrom]

theorem lexFrom_of_none
    {c : Char} {cs : List Char} (h : piece? c cs = none) (line : Nat) :
    lexFrom line (c :: cs) = .error ⟨.unrecognized (unrecognized c cs), line⟩ := by
  rw [lexFrom]
  split
  next => rfl
  next hsome =>
    rw [h] at hsome
    cases hsome

theorem lexFrom_of_some
    {c : Char} {cs : List Char} {piece : Piece} (h : piece? c cs = some piece) (line : Nat) :
    lexFrom line (c :: cs) =
      (lexFrom (line + piece.newlines) piece.rest).map
        ((piece.token.map (⟨·, line + piece.newlines⟩)).toList ++ ·) := by
  rw [lexFrom]
  split
  next hnone =>
    rw [h] at hnone
    cases hnone
  next p hsome =>
    obtain rfl := Option.some.inj (h.symm.trans hsome)
    cases lexFrom (line + piece.newlines) piece.rest with
    | error e => rfl
    | ok following =>
        cases piece.token <;> rfl

/-- The first piece of a text is what is cut off it. -/
theorem piece?_of_firstPiece
    {c : Char} {cs w rest : List Char} {t : Option Token} (hw : FirstPiece w rest t)
    (hsplit : w ++ rest = c :: cs) :
    piece? c cs = some ⟨t, w.count '\n', rest⟩ := by
  cases hpiece : piece? c cs with
  | none =>
      obtain ⟨-, p, hp⟩ := hw.longest.isPiece
      have hprefix : w <+: c :: cs := hsplit ▸ List.prefix_append w rest
      exact absurd hp (not_mem_of_piece? hpiece hprefix)
  | some piece =>
      obtain ⟨w', hcuts⟩ := cuts_piece? hpiece
      obtain ⟨rfl, hrest, htoken⟩ := hw.unique hcuts.firstPiece (hsplit.trans hcuts.split.symm)
      rw [hrest, htoken, ← hcuts.newlines]

/-- Where no piece starts, none is cut off. -/
theorem piece?_of_not_isPiece
    {c : Char} {cs : List Char} (h : ∀ v, v <+: c :: cs → ¬IsPiece v) :
    piece? c cs = none := by
  cases hpiece : piece? c cs with
  | none => rfl
  | some piece =>
      obtain ⟨w, hcuts⟩ := cuts_piece? hpiece
      have hprefix : w <+: c :: cs := hcuts.split ▸ List.prefix_append w piece.rest
      exact absurd hcuts.firstPiece.longest.isPiece (h w hprefix)

/-! ## The lexer reads by longest match -/

theorem lexFrom_firstPiece
    {read w rest : List Char} {t : Option Token} (hw : FirstPiece w rest t) :
    lexFrom (lineAfter read) (w ++ rest) =
      (lexFrom (lineAfter (read ++ w)) rest).map
        ((t.map (⟨·, lineAfter (read ++ w)⟩)).toList ++ ·) := by
  obtain ⟨c, v, rfl⟩ := List.exists_cons_of_ne_nil hw.longest.isPiece.1
  rw [lineAfter_append, List.cons_append]
  exact lexFrom_of_some (piece?_of_firstPiece hw rfl) _

theorem lexFrom_of_munch
    {read text : List Char} {outcome : Except ReadError (List Lexeme)}
    (h : Munch read text outcome) :
    lexFrom (lineAfter read) text = outcome := by
  induction h with
  | done => exact lexFrom_nil _
  | @skip read w rest outcome hw _ ih =>
      rw [lexFrom_firstPiece hw, ih]
      cases outcome <;> rfl
  | @token read w rest t outcome hw _ ih =>
      rw [lexFrom_firstPiece hw, ih]
      rfl
  | unclosed h =>
      rw [lexFrom_of_none (piece?_of_not_isPiece h)]
      rfl
  | stray hc h =>
      rw [lexFrom_of_none (piece?_of_not_isPiece h), unrecognized, if_neg hc]

theorem munch_of_none
    {c : Char} {cs : List Char} (h : piece? c cs = none) (read : List Char) :
    Munch read (c :: cs) (lexFrom (lineAfter read) (c :: cs)) := by
  have hnone : ∀ v, v <+: c :: cs → ¬IsPiece v := by
    rintro v hv ⟨-, p, hp⟩
    exact not_mem_of_piece? h hv hp
  rw [lexFrom_of_none h, unrecognized]
  split
  next hc =>
    subst hc
    exact .unclosed hnone
  next hc => exact .stray hc hnone

theorem munch_lexFrom
    (read text : List Char) :
    Munch read text (lexFrom (lineAfter read) text) := by
  match text with
  | [] =>
      rw [lexFrom_nil]
      exact .done
  | c :: cs =>
      cases hpiece : piece? c cs with
      | none => exact munch_of_none hpiece read
      | some piece =>
          obtain ⟨w, hcuts⟩ := cuts_piece? hpiece
          rw [← hcuts.split, lexFrom_firstPiece hcuts.firstPiece]
          exact Munch.of_firstPiece hcuts.firstPiece (munch_lexFrom (read ++ w) piece.rest)
termination_by text.length
decreasing_by
  have hrest := length_piece?_rest_le hpiece
  simp only [List.length_cons]
  omega

end Lexer

/-- The lexer reads by longest match: its outcome on a source is the one of longest-match reading,
and the only one. -/
theorem lex_iff_munch
    (source : String) (outcome : Except ReadError (List Lexeme)) :
    lex source = outcome ↔ Munch [] source.toList outcome := by
  constructor
  · rintro rfl
    exact Lexer.munch_lexFrom [] source.toList
  · intro h
    exact Lexer.lexFrom_of_munch h

/-- A numeral ends where no longer one matches, and it stands for the double nearest to it. -/
theorem numerals_are_cut_at_their_longest :
    Munch [] "1.5e3\n3.14".toList
      (.ok [⟨.number (.ofBits 0x3ff8000000000000), 1⟩, ⟨.identifier "e3", 1⟩,
        ⟨.number (.ofBits 0x40091eb851eb851f), 2⟩]) := by
  have hlex : lex "1.5e3\n3.14" = .ok [⟨.number (.ofBits 0x3ff8000000000000), 1⟩,
      ⟨.identifier "e3", 1⟩, ⟨.number (.ofBits 0x40091eb851eb851f), 2⟩] := by
    with_unfolding_all rfl
  exact (lex_iff_munch _ _).mp hlex

/-! ## Where cutting stops -/

/-- Cutting a text comes to a place: what stands before it was cut off piece by piece. -/
inductive ComesTo (text : List Char) : (before rest : List Char) → Prop
  | start : ComesTo text [] text
  | piece {before w rest : List Char} {t : Option Token} : ComesTo text before (w ++ rest) →
      FirstPiece w rest t → ComesTo text (before ++ w) rest

/-- Cutting a text comes to a place where it cannot go on, since no piece starts there. -/
structure StopsAt (text before rest : List Char) : Prop where
  comes : ComesTo text before rest
  stuck : ∀ v, v <+: rest → ¬IsPiece v

/-- What was cut off and what follows it are the text. -/
theorem ComesTo.split
    {text before rest : List Char} (h : ComesTo text before rest) :
    before ++ rest = text := by
  induction h with
  | start => rfl
  | piece _ _ ih => rw [List.append_assoc, ih]

/-- A rejection by longest-match reading reports the place at which cutting stops. -/
theorem Munch.stopsAt
    {text read rest : List Char} {outcome : Except ReadError (List Lexeme)}
    (h : Munch read rest outcome) (hcomes : ComesTo text read rest) {e : ReadError}
    (he : outcome = .error e) :
    ∃ before found after, StopsAt text before (found ++ after) ∧ found ≠ [] ∧
      e = ⟨.unrecognized (String.ofList found), lineAfter before⟩ := by
  induction h with
  | done => cases he
  | skip hw _ ih => exact ih (hcomes.piece hw) he
  | @token read w rest t outcome hw _ ih =>
      cases outcome with
      | ok lexemes => cases he
      | error e' =>
          cases he
          exact ih (hcomes.piece hw) rfl
  | @unclosed read rest hstuck =>
      cases he
      refine ⟨read, '"' :: rest, [], ?_, List.cons_ne_nil _ _, rfl⟩
      rw [List.append_nil]
      exact ⟨hcomes, hstuck⟩
  | @stray read rest c hc hstuck =>
      cases he
      exact ⟨read, [c], rest, ⟨hcomes, hstuck⟩, List.cons_ne_nil _ _, rfl⟩

/-- Text that cannot be cut is reported on the line that the source has reached before it. -/
theorem stopsAt_of_lex_eq_error
    {source : String} {e : ReadError} (h : lex source = .error e) :
    ∃ before found after, source.toList = before ++ (found ++ after) ∧ found ≠ [] ∧
      StopsAt source.toList before (found ++ after) ∧
      e = ⟨.unrecognized (String.ofList found), lineAfter before⟩ := by
  obtain ⟨before, found, after, hstops, hfound, he⟩ :=
    (Lexer.munch_lexFrom [] source.toList).stopsAt .start h
  exact ⟨before, found, after, hstops.comes.split.symm, hfound, hstops, he⟩

end ColonScript
