import ColonScript.Proofs.Reading.Statements
import Mathlib

/-!
# Where the count for a body stops

The end of a body is found by a count that goes from lexeme to lexeme and keeps three numbers.  This
module says of any lexemes what these numbers are: how many wrappers there are, how many words that
own a body, and how many parentheses are open at the end.  The count stops at the first wrapper
before which there are twice as many wrappers as such words (`extent_eq_ok_iff`).  Nothing that
comes after this wrapper has a part in it, and after the lexemes of a program it is the very next
one (`extent_is_exact`).
-/

namespace ColonScript
namespace Block

open Reader

/-- The number of wrappers. -/
def wrappers (lexemes : List Lexeme) : Nat :=
  lexemes.countP fun lexeme => lexeme.token = .mark .colon

/-- The number of parentheses that are open after some lexemes.  One that closes nothing does not
count. -/
def openParens (lexemes : List Lexeme) : Nat :=
  lexemes.foldl
    (fun n lexeme =>
      match lexeme.token with
      | .mark .leftParen => n + 1
      | .mark .rightParen => n - 1
      | _ => n)
    0

/-- A token that owns a body where it stands: `fn` only outside of parentheses. -/
def ownsBody (before : List Lexeme) : Token → Bool
  | .keyword .lada | .keyword .badlada | .keyword .hynrei | .keyword .naduh => true
  | .kind .fn => openParens before = 0
  | _ => false

/-- The number of words that own a body. -/
def owners (lexemes : List Lexeme) : Nat :=
  (List.range lexemes.length).countP fun i =>
    lexemes[i]?.any fun lexeme => ownsBody (lexemes.take i) lexeme.token

/-! ## The numbers that are kept -/

theorem wrappers_concat
    (lexemes : List Lexeme) (lexeme : Lexeme) :
    wrappers (lexemes ++ [lexeme]) =
      wrappers lexemes + if lexeme.token = .mark .colon then 1 else 0 := by
  simp [wrappers, List.countP_append, List.countP_singleton]

theorem owners_concat
    (lexemes : List Lexeme) (lexeme : Lexeme) :
    owners (lexemes ++ [lexeme]) =
      owners lexemes + if ownsBody lexemes lexeme.token then 1 else 0 := by
  have hbefore (i : Nat) (hi : i ∈ List.range lexemes.length) :
      ((lexemes ++ [lexeme])[i]?.any fun x => ownsBody ((lexemes ++ [lexeme]).take i) x.token) =
        lexemes[i]?.any fun x => ownsBody (lexemes.take i) x.token := by
    have hlt : i < lexemes.length := List.mem_range.mp hi
    rw [List.getElem?_append_left hlt, List.take_append_of_le_length (Nat.le_of_lt hlt)]
  rw [owners, List.length_append, List.length_singleton, List.range_succ, List.countP_append,
    List.countP_singleton, List.countP_congr fun i hi => by rw [hbefore i hi], ← owners]
  simp

theorem openParens_concat
    (lexemes : List Lexeme) (lexeme : Lexeme) :
    openParens (lexemes ++ [lexeme]) =
      match lexeme.token with
      | .mark .leftParen => openParens lexemes + 1
      | .mark .rightParen => openParens lexemes - 1
      | _ => openParens lexemes := by
  rw [openParens, List.foldl_append, ← openParens]
  rfl

/-- The tally after some lexemes. -/
def tallyFrom (t : Tally) (lexemes : List Lexeme) : Tally :=
  lexemes.foldl (fun t lexeme => t.count lexeme.token) t

theorem tallyFrom_concat
    (t : Tally) (lexemes : List Lexeme) (lexeme : Lexeme) :
    tallyFrom t (lexemes ++ [lexeme]) = (tallyFrom t lexemes).count lexeme.token := by
  simp [tallyFrom]

/-- What is counted from the start on are wrappers, words that own a body and open parentheses. -/
theorem tallyFrom_start
    (lexemes : List Lexeme) :
    tallyFrom {} lexemes = ⟨wrappers lexemes, owners lexemes, openParens lexemes⟩ := by
  induction lexemes using List.reverseRecOn with
  | nil => rfl
  | append_singleton lexemes lexeme ih =>
      rw [tallyFrom_concat, ih, wrappers_concat, owners_concat, openParens_concat]
      generalize lexeme.token = token
      unfold Tally.count
      split
      case h_6 =>
        -- The one word for which the open parentheses decide.
        by_cases hparens : openParens lexemes = 0 <;> simp [ownsBody, hparens]
      all_goals simp_all [ownsBody]

/-! ## Where the count stops -/

/-- At a position there is a wrapper, and what was counted before it is balanced. -/
def StopsAt (t : Tally) (lexemes : List Lexeme) (n : Nat) : Prop :=
  lexemes[n]?.map Lexeme.token = some (.mark .colon) ∧
    (tallyFrom t (lexemes.take n)).balanced = true

theorem stopsAt_zero
    (t : Tally) (lexeme : Lexeme) (rest : List Lexeme) :
    StopsAt t (lexeme :: rest) 0 ↔ (lexeme.token = .mark .colon && t.balanced) = true := by
  simp [StopsAt, tallyFrom]

theorem stopsAt_succ
    (t : Tally) (lexeme : Lexeme) (rest : List Lexeme) (n : Nat) :
    StopsAt t (lexeme :: rest) (n + 1) ↔ StopsAt (t.count lexeme.token) rest n := by
  simp [StopsAt, tallyFrom]

/-- The count stops at the first position where it can. -/
theorem lengthFrom?_eq_some_iff
    (t : Tally) (lexemes : List Lexeme) (n : Nat) :
    lengthFrom? t lexemes = some n ↔
      StopsAt t lexemes n ∧ ∀ k < n, ¬StopsAt t lexemes k := by
  induction lexemes generalizing t n with
  | nil => simp [lengthFrom?, StopsAt]
  | cons lexeme rest ih =>
      rw [lengthFrom?]
      by_cases hstop : (lexeme.token = .mark .colon && t.balanced) = true
      · rw [if_pos hstop]
        have hzero := (stopsAt_zero t lexeme rest).mpr hstop
        constructor
        · rintro ⟨⟩
          exact ⟨hzero, fun k hk => absurd hk (Nat.not_lt_zero k)⟩
        · rintro ⟨-, hfirst⟩
          obtain rfl : n = 0 := Nat.eq_zero_of_not_pos fun hpos => hfirst 0 hpos hzero
          rfl
      · rw [if_neg hstop]
        have hzero := mt (stopsAt_zero t lexeme rest).mp hstop
        cases n with
        | zero => simp [hzero]
        | succ n =>
            have hmap : (lengthFrom? (t.count lexeme.token) rest).map (· + 1) = some (n + 1) ↔
                lengthFrom? (t.count lexeme.token) rest = some n := by
              simp [Option.map_eq_some_iff]
            rw [hmap, ih, stopsAt_succ]
            refine and_congr_right fun _ => ⟨fun hfirst k hk => ?_, fun hfirst k hk => ?_⟩
            · cases k with
              | zero => exact hzero
              | succ k =>
                  have hlt := Nat.lt_of_succ_lt_succ hk
                  exact mt (stopsAt_succ t lexeme rest k).mp (hfirst k hlt)
            · exact mt (stopsAt_succ t lexeme rest k).mpr (hfirst (k + 1) (Nat.succ_lt_succ hk))

/-- At a position there is a wrapper, and before it there are twice as many wrappers as words that
own a body. -/
def EndsAt (lexemes : List Lexeme) (n : Nat) : Prop :=
  lexemes[n]?.map Lexeme.token = some (.mark .colon) ∧
    wrappers (lexemes.take n) = 2 * owners (lexemes.take n)

theorem stopsAt_start_iff
    (lexemes : List Lexeme) (n : Nat) :
    StopsAt {} lexemes n ↔ EndsAt lexemes n := by
  rw [StopsAt, EndsAt, tallyFrom_start, Tally.balanced, decide_eq_true_iff]

/-- A body extends to the first wrapper at which it can end. -/
theorem extent_eq_ok_iff
    (line : Nat) (lexemes : List Lexeme) (n : Nat) :
    extent line lexemes = .ok n ↔ EndsAt lexemes n ∧ ∀ k < n, ¬EndsAt lexemes k := by
  have hlength : extent line lexemes = .ok n ↔ length? lexemes = some n := by
    unfold extent
    cases length? lexemes <;> simp
  simp only [hlength, length?, lengthFrom?_eq_some_iff, stopsAt_start_iff]

theorem EndsAt.lt_length
    {lexemes : List Lexeme} {n : Nat} (h : EndsAt lexemes n) :
    n < lexemes.length := by
  obtain ⟨lexeme, hlexeme, -⟩ := Option.map_eq_some_iff.mp h.1
  exact (List.getElem?_eq_some_iff.mp hlexeme).1

/-- Whether a body can end at a position is decided before the lexemes after it. -/
theorem endsAt_append
    {lexemes : List Lexeme} {n : Nat} (hn : n < lexemes.length) (more : List Lexeme) :
    EndsAt (lexemes ++ more) n ↔ EndsAt lexemes n := by
  rw [EndsAt, EndsAt, List.getElem?_append_left hn,
    List.take_append_of_le_length (Nat.le_of_lt hn)]

theorem extent_append
    {line n : Nat} {lexemes : List Lexeme} (h : extent line lexemes = .ok n)
    (more : List Lexeme) :
    extent line (lexemes ++ more) = .ok n := by
  rw [extent_eq_ok_iff] at h ⊢
  obtain ⟨hends, hfirst⟩ := h
  have hlt := hends.lt_length
  refine ⟨(endsAt_append hlt more).mpr hends, fun k hk => ?_⟩
  exact mt (endsAt_append (Nat.lt_trans hk hlt) more).mp (hfirst k hk)

/-- The count for a body is exact.  In front of a wrapper, the lexemes of every program are counted
in full, whatever comes after the wrapper, and between two wrappers they are read as the body that
the program is, up to the second wrapper.  Conversely, wherever the count stops there is a wrapper,
before it there are twice as many wrappers as words that own a body, and no lexemes that follow
change where it stops. -/
theorem extent_is_exact :
    (∀ ss lexemes, program lexemes = .ok ss → ∀ (line closed : Nat) (rest : List Lexeme),
      extent line (lexemes ++ ⟨.mark .colon, closed⟩ :: rest) = .ok lexemes.length ∧
        ∀ owner opened, Gives (body owner line
          (⟨.mark .colon, opened⟩ :: (lexemes ++ ⟨.mark .colon, closed⟩ :: rest))) ss rest) ∧
    ∀ line lexemes n, extent line lexemes = .ok n →
      lexemes[n]?.map Lexeme.token = some (.mark .colon) ∧
        wrappers (lexemes.take n) = 2 * owners (lexemes.take n) ∧
        ∀ more, extent line (lexemes ++ more) = .ok n := by
  constructor
  · intro ss lexemes hprogram line closed rest
    have hforms := statements_take.2.2.2 lexemes ss hprogram
    have hlength := length?_of_program hforms closed rest
    exact ⟨by rw [extent, hlength], fun owner opened => gives_body hforms hprogram owner line⟩
  · intro line lexemes n h
    obtain ⟨hcolon, hbalanced⟩ := ((extent_eq_ok_iff line lexemes n).mp h).1
    exact ⟨hcolon, hbalanced, extent_append h⟩

/-- A function with a parameter of kind `fn`, as the body of something else: the word among the
parameters owns nothing, so the two wrappers of the function balance one word. -/
theorem function_parameter_owns_no_body :
    let lexemes : List Lexeme := [⟨.kind .fn, 1⟩, ⟨.identifier "f", 1⟩, ⟨.mark .equals, 1⟩,
      ⟨.mark .leftParen, 1⟩, ⟨.kind .fn, 1⟩, ⟨.identifier "g", 1⟩, ⟨.mark .rightParen, 1⟩,
      ⟨.mark .colon, 1⟩, ⟨.mark .arrow, 2⟩, ⟨.identifier "g", 2⟩, ⟨.mark .leftParen, 2⟩,
      ⟨.mark .rightParen, 2⟩, ⟨.mark .colon, 3⟩]
    let ss : List Statement :=
      [.function "f" [⟨.fn, "g"⟩] [.returns (.call "g" [] 2) 2] 1]
    let rest : List Lexeme := [⟨.mark .colon, 4⟩, ⟨.mark .colon, 5⟩]
    program lexemes = .ok ss ∧ extent 1 (lexemes ++ ⟨.mark .colon, 4⟩ :: rest) = .ok 13 ∧
      Gives (body .countingLoop 1
        (⟨.mark .colon, 1⟩ :: (lexemes ++ ⟨.mark .colon, 4⟩ :: rest))) ss rest ∧
      wrappers ((lexemes ++ ⟨.mark .colon, 4⟩ :: rest).take 13) =
        2 * owners ((lexemes ++ ⟨.mark .colon, 4⟩ :: rest).take 13) ∧
      owners lexemes = 1 := by
  intro lexemes ss rest
  have hprogram : program lexemes = .ok ss := by
    cbv
  obtain ⟨hextent, hbody⟩ := extent_is_exact.1 ss lexemes hprogram 1 4 rest
  obtain ⟨-, hbalanced, -⟩ := extent_is_exact.2 1 _ 13 hextent
  exact ⟨hprogram, hextent, hbody .countingLoop 1, hbalanced, rfl⟩

end Block
end ColonScript
