import ColonScript.Proofs.Lexing.Munch
import ColonScript.Proofs.Lines.Alignment

/-!
# Cutting two texts with a line end between them

A piece that was cut off a text stays the same when a line end and more text come after it: a
string that was closed stays closed, and no other piece reaches over a line end.  A text that is
cut into lexemes is therefore cut into the same lexemes when more text follows on a new line, and
what follows is cut as if it stood alone, on later lines: each of its lexemes, or the place where
nothing can be cut off, moves down by the lines of the first text (`lex_continues_after_newline`).
-/

namespace ColonScript
namespace Lexer

/-- A piece with more text after it. -/
def Piece.followedBy (piece : Piece) (text : List Char) : Piece :=
  { piece with rest := piece.rest ++ text }

section
variable {q : Char → Bool} (hq : q '\n' = false) (cs other : List Char)
include hq

/-- A run of characters that stops at line ends does not reach over one. -/
theorem takeWhile_newline : (cs ++ '\n' :: other).takeWhile q = cs.takeWhile q := by
  induction cs with
  | nil => simp [hq]
  | cons c cs ih =>
      rw [List.cons_append, List.takeWhile_cons, List.takeWhile_cons, ih]

theorem dropWhile_newline :
    (cs ++ '\n' :: other).dropWhile q = cs.dropWhile q ++ '\n' :: other := by
  induction cs with
  | nil => simp [hq]
  | cons c cs ih =>
      rw [List.cons_append, List.dropWhile_cons, List.dropWhile_cons, ih]
      split <;> rfl

end

theorem number_newline
    (c : Char) (cs other : List Char) :
    number c (cs ++ '\n' :: other) = (number c cs).followedBy ('\n' :: other) := by
  unfold number
  simp only [takeWhile_newline (q := Char.isDigit) rfl, dropWhile_newline (q := Char.isDigit) rfl]
  -- A point at the very end is no part of the number, and the line end after it is no digit.
  generalize cs.dropWhile Char.isDigit = rest
  rcases rest with _ | ⟨p, _ | ⟨d, ds⟩⟩
  · rfl
  · by_cases hpoint : p = '.'
    · subst hpoint
      rfl
    · simp [hpoint, Piece.followedBy]
  · by_cases hpoint : p = '.'
    · subst hpoint
      by_cases hd : d.isDigit = true
      · simp [hd, Piece.followedBy, takeWhile_newline (q := Char.isDigit) rfl,
          dropWhile_newline (q := Char.isDigit) rfl]
      · simp [hd, Piece.followedBy]
    · simp [hpoint, Piece.followedBy]

theorem string?_newline
    {cs : List Char} {piece : Piece} (h : string? cs = some piece) (other : List Char) :
    string? (cs ++ '\n' :: other) = some (piece.followedBy ('\n' :: other)) := by
  have hclosed : cs.dropWhile (· ≠ '"') ≠ [] := by
    intro hnil
    rw [string?, hnil] at h
    cases h
  have hshort : ¬ (cs.takeWhile (· ≠ '"')).length = cs.length := by
    have hsplit := congrArg List.length (List.takeWhile_append_dropWhile (p := (· ≠ '"')) (l := cs))
    have hpos := List.length_pos_iff.mpr hclosed
    rw [List.length_append] at hsplit
    omega
  have htake : (cs ++ '\n' :: other).takeWhile (· ≠ '"') = cs.takeWhile (· ≠ '"') := by
    rw [List.takeWhile_append, if_neg hshort]
  have hdrop : (cs ++ '\n' :: other).dropWhile (· ≠ '"') =
      cs.dropWhile (· ≠ '"') ++ '\n' :: other := by
    rw [List.dropWhile_append, if_neg (by rwa [List.isEmpty_iff])]
  rw [string?] at h ⊢
  rw [htake, hdrop]
  cases hrest : cs.dropWhile (· ≠ '"') with
  | nil => exact (hclosed hrest).elim
  | cons quote rest =>
      rw [hrest] at h
      obtain rfl := Option.some.inj h
      rfl

theorem not_cons_newline
    {d : Char} (hd : d ≠ '\n') {cs : List Char} (h : ∀ rest, cs = d :: rest → False)
    (other : List Char) :
    ∀ rest, cs ++ '\n' :: other = d :: rest → False := by
  intro rest heq
  cases cs with
  | nil =>
      obtain ⟨hnewline, -⟩ := List.cons.inj heq
      exact hd hnewline.symm
  | cons c cs =>
      obtain ⟨rfl, -⟩ := List.cons.inj heq
      exact h cs rfl

theorem sign?_newline
    {c : Char} {cs : List Char} {piece : Piece} (h : sign? c cs = some piece)
    (other : List Char) :
    sign? c (cs ++ '\n' :: other) = some (piece.followedBy ('\n' :: other)) := by
  unfold sign? at h
  split at h
  next cs =>
    obtain rfl := Option.some.inj h
    have hdrop := dropWhile_newline (q := (· ≠ '\n')) rfl cs other
    rw [List.cons_append, sign?, hdrop]
    rfl
  next hslash =>
    obtain rfl := Option.some.inj h
    exact sign?.eq_2 _ (not_cons_newline (by decide) hslash other)
  all_goals try (obtain rfl := Option.some.inj h; rfl)
  next harrow hequal =>
    obtain rfl := Option.some.inj h
    exact sign?.eq_5 _ (not_cons_newline (by decide) harrow other)
      (not_cons_newline (by decide) hequal other)
  next d cs =>
    rw [List.cons_append, sign?, takeWhile_newline (q := Char.isDigit) rfl,
      dropWhile_newline (q := Char.isDigit) rfl]
    by_cases hdigit : d.isDigit = true
    · rw [if_pos hdigit] at h ⊢
      obtain rfl := Option.some.inj h
      rfl
    · rw [if_neg hdigit] at h
      cases h
  next => cases h

/-- A piece stays the same when a line end comes after the text it was cut off. -/
theorem piece?_newline
    {c : Char} {cs : List Char} {piece : Piece} (h : piece? c cs = some piece)
    (other : List Char) :
    piece? c (cs ++ '\n' :: other) = some (piece.followedBy ('\n' :: other)) := by
  unfold piece? at h ⊢
  split
  · next hc =>
    rw [if_pos hc] at h
    obtain rfl := Option.some.inj h
    rfl
  next hc =>
  rw [if_neg hc] at h
  split
  · next hspace =>
    rw [if_pos hspace] at h
    obtain rfl := Option.some.inj h
    rw [dropWhile_newline (q := isSpace) rfl]
    rfl
  next hspace =>
  rw [if_neg hspace] at h
  split
  · next hdigit =>
    rw [if_pos hdigit] at h
    obtain rfl := Option.some.inj h
    rw [number_newline]
  next hdigit =>
  rw [if_neg hdigit] at h
  split
  · next hword =>
    rw [if_pos hword] at h
    obtain rfl := Option.some.inj h
    rw [word, takeWhile_newline (q := continuesWord) rfl,
      dropWhile_newline (q := continuesWord) rfl]
    rfl
  next hword =>
  rw [if_neg hword] at h
  split
  · next hquote =>
    rw [if_pos hquote] at h
    exact string?_newline h other
  · next hquote =>
    rw [if_neg hquote] at h
    exact sign?_newline h other

/-- A text that is cut into lexemes is cut into the same lexemes when more text follows on a new
line, which is then cut as if it stood alone on the lines after it. -/
theorem lexFrom_newline
    {line : Nat} {text : List Char} {lexemes : List Lexeme}
    (h : lexFrom line text = .ok lexemes) (other : List Char) :
    lexFrom line (text ++ '\n' :: other) =
      (lexFrom (line + text.count '\n' + 1) other).map (lexemes ++ ·) := by
  match text with
  | [] =>
      rw [lexFrom_nil] at h
      cases h
      have hnewline : piece? '\n' other = some ⟨none, 1, other⟩ := rfl
      rw [List.nil_append, lexFrom_of_some hnewline]
      rfl
  | c :: cs =>
      cases hpiece : piece? c cs with
      | none =>
          rw [lexFrom_of_none hpiece] at h
          cases h
      | some piece =>
          obtain ⟨w, hcuts⟩ := cuts_piece? hpiece
          have hcount : (c :: cs).count '\n' = piece.newlines + piece.rest.count '\n' := by
            rw [← hcuts.split, List.count_append, hcuts.newlines]
          rw [lexFrom_of_some hpiece] at h
          cases hrest : lexFrom (line + piece.newlines) piece.rest with
          | error e =>
              rw [hrest] at h
              cases h
          | ok following =>
              have hshorter := length_piece?_rest_le hpiece
              have hfollowing := lexFrom_newline hrest other
              rw [hrest] at h
              cases h
              rw [List.cons_append, lexFrom_of_some (piece?_newline hpiece other)]
              change (lexFrom (line + piece.newlines) (piece.rest ++ '\n' :: other)).map _ = _
              rw [hfollowing, hcount, Nat.add_assoc line]
              cases lexFrom (line + (piece.newlines + piece.rest.count '\n') + 1) other with
              | error e => rfl
              | ok others => exact congrArg Except.ok (List.append_assoc _ _ _).symm
termination_by text.length

/-- From wherever lines are counted, a text is cut into the same tokens. -/
theorem lexFrom_aligned
    {L : Nat → Nat → Prop} {k l : Nat} (hL : ∀ n, L (k + n) (l + n)) (text : List Char) :
    OutcomesRelate (ReadError.Aligned L) (List.Forall₂ (Lexeme.Aligned L)) (lexFrom k text)
      (lexFrom l text) := by
  match text with
  | [] =>
      rw [lexFrom_nil, lexFrom_nil]
      exact .ok .nil
  | c :: cs =>
      cases hpiece : piece? c cs with
      | none =>
          rw [lexFrom_of_none hpiece, lexFrom_of_none hpiece]
          exact .error ⟨rfl, hL 0⟩
      | some piece =>
          have hshorter := length_piece?_rest_le hpiece
          have hlater (n : Nat) : L (k + piece.newlines + n) (l + piece.newlines + n) := by
            rw [Nat.add_assoc, Nat.add_assoc]
            exact hL (piece.newlines + n)
          rw [lexFrom_of_some hpiece, lexFrom_of_some hpiece]
          refine (lexFrom_aligned hlater piece.rest).map fun others others' hothers => ?_
          cases piece.token with
          | none => exact hothers
          | some t => exact .cons ⟨rfl, hL piece.newlines⟩ hothers
termination_by text.length

/-- Counting from a later line moves everything down by the same number of lines. -/
theorem lexFrom_add
    (line k : Nat) (text : List Char) :
    lexFrom (line + k) text =
      match lexFrom line text with
      | .ok lexemes => .ok (lexemes.map (Lexeme.moved (· + k)))
      | .error e => .error ⟨e.cause, e.line + k⟩ := by
  have hmoved := lexFrom_aligned (L := fun l l' => l + k = l') (k := line) (l := line + k)
    (fun n => Nat.add_right_comm line n k) text
  generalize lexFrom (line + k) text = moved at hmoved ⊢
  generalize lexFrom line text = outcome at hmoved ⊢
  cases hmoved with
  | ok hlexemes => exact congrArg Except.ok (eq_map_moved_of_aligned hlexemes)
  | @error e e' he =>
      obtain ⟨cause, line⟩ := e'
      obtain ⟨rfl, rfl⟩ := he
      rfl

end Lexer

/-- Two source texts with a line end between them are cut like the first and then like the
second, on later lines. -/
theorem lex_newline
    {a : String} {lexemes : List Lexeme} (h : lex a = .ok lexemes) (b : String) :
    lex (a ++ "\n" ++ b) =
      (Lexer.lexFrom (1 + a.toList.count '\n' + 1) b.toList).map (lexemes ++ ·) := by
  have htext : (a ++ "\n" ++ b).toList = a.toList ++ '\n' :: b.toList := by
    rw [String.toList_append, String.toList_append, List.append_assoc]
    rfl
  rw [lex, htext]
  exact Lexer.lexFrom_newline h b.toList

/-- Cutting goes on after a line end.  If a text is cut into lexemes, then whatever follows it on a
new line is cut as if it stood alone, moved down by the lines of the first text and the line end:
the lexemes of both stand one after the other if it can be cut, and otherwise the same text is
rejected, as many lines further down. -/
theorem lex_continues_after_newline
    {a : String} {first : List Lexeme} (h : lex a = .ok first) (b : String) :
    (∀ second, lex b = .ok second →
      lex (a ++ "\n" ++ b) =
        .ok (first ++ second.map (Lexeme.moved (· + (1 + a.toList.count '\n'))))) ∧
    ∀ e, lex b = .error e →
      ∃ found, e.cause = .unrecognized found ∧
        lex (a ++ "\n" ++ b) =
          .error ⟨.unrecognized found, e.line + (1 + a.toList.count '\n')⟩ := by
  have hline : 1 + a.toList.count '\n' + 1 = 1 + (1 + a.toList.count '\n') := Nat.add_comm _ _
  have hwhole := lex_newline h b
  rw [hline, Lexer.lexFrom_add] at hwhole
  refine ⟨fun second hsecond => ?_, fun e he => ?_⟩
  · rw [hwhole, show Lexer.lexFrom 1 b.toList = .ok second from hsecond]
    rfl
  · obtain ⟨_, found, _, _, _, _, rfl⟩ := stopsAt_of_lex_eq_error he
    refine ⟨String.ofList found, rfl, ?_⟩
    rw [hwhole, show Lexer.lexFrom 1 b.toList = .error _ from he]
    rfl

/-- A string over two lines and a comment that holds a quote, and then two texts on a new line, of
which the second cannot be cut to its end. -/
theorem string_over_lines_continues :
    lex "\"p\nq\" // \"" = .ok [⟨.text "p\nq", 2⟩] ∧
      lex "\"p\nq\" // \"\nda" = .ok [⟨.text "p\nq", 2⟩, ⟨.keyword .da, 3⟩] ∧
      lex "\"p\nq\" // \"\nda\n\"r" = .error ⟨.unrecognized "\"r", 4⟩ := by
  have hfirst : lex "\"p\nq\" // \"" = .ok [⟨.text "p\nq", 2⟩] := by
    with_unfolding_all rfl
  have hword : lex "da" = .ok [⟨.keyword .da, 1⟩] := by
    with_unfolding_all rfl
  have hopen : lex "da\n\"r" = .error ⟨.unrecognized "\"r", 2⟩ := by
    with_unfolding_all rfl
  obtain ⟨found, hfound, hfails⟩ := (lex_continues_after_newline hfirst "da\n\"r").2 _ hopen
  obtain rfl := ReadCause.unrecognized.inj hfound
  exact ⟨hfirst, (lex_continues_after_newline hfirst "da").1 _ hword, hfails⟩

end ColonScript
