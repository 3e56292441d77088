import ColonScript.Proofs.Reading.Clause

/-!
# The extent of a body

A body is cut out by counting, before anything in it is read.  The count is right because of
what the rules of statements put between two wrappers: an expression brings no wrapper and no
word that owns a body, and it closes the parentheses it opens; a statement brings two wrappers
for each such word, never a wrapper ahead of its word.  Counting therefore runs over a whole
program without an end in sight and stops at the wrapper after it (`length?_of_program`).
-/

namespace ColonScript
namespace Block

open Reader

/-- Counting from one tally runs over `taken` and goes on from another. -/
def Passes (before after : Tally) (taken : List Lexeme) : Prop :=
  ∀ rest, lengthFrom? before (taken ++ rest) = (lengthFrom? after rest).map (· + taken.length)

namespace Passes

variable {t u v : Tally} {a b : List Lexeme}

theorem nil
    (t : Tally) :
    Passes t t [] := by
  intro rest
  simp

theorem append
    (ha : Passes t u a) (hb : Passes u v b) :
    Passes t v (a ++ b) := by
  intro rest
  rw [List.append_assoc, ha, hb, Option.map_map]
  congr 1
  funext n
  simp only [Function.comp_apply, List.length_append]
  omega

theorem cons
    {lexeme : Lexeme} (hstop : (lexeme.token = .mark .colon && t.balanced) = false)
    (ha : Passes (t.count lexeme.token) u a) :
    Passes t u (lexeme :: a) := by
  intro rest
  rw [List.cons_append, lengthFrom?, hstop, ha]
  simp [Option.map_map, Function.comp_def, Nat.add_assoc]

/-- A token that is not counted is run over. -/
theorem skip
    {token : Token} {line : Nat} (hcolon : token ≠ .mark .colon) (hcount : t.count token = t)
    (ha : Passes t u a) :
    Passes t u (⟨token, line⟩ :: a) := by
  refine cons ?_ ?_
  · simp [hcolon]
  · rw [hcount]
    exact ha

/-- A wrapper that ends nothing is counted. -/
theorem wrapper
    {line : Nat} (howed : t.wrappers < 2 * t.owners)
    (ha : Passes { t with wrappers := t.wrappers + 1 } u a) :
    Passes t u (⟨.mark .colon, line⟩ :: a) := by
  refine cons ?_ ha
  have hne : t.wrappers ≠ 2 * t.owners := by omega
  simp [Tally.balanced, hne]

end Passes

/-- The end that the count finds is a wrapper. -/
theorem split_of_lengthFrom?
    {t : Tally} {lexemes : List Lexeme} {n : Nat} (h : lengthFrom? t lexemes = some n) :
    ∃ closed, lexemes = lexemes.take n ++ ⟨.mark .colon, closed⟩ :: lexemes.drop (n + 1) := by
  induction lexemes generalizing t n with
  | nil => cases h
  | cons lexeme rest ih =>
      rw [lengthFrom?] at h
      split at h
      · next hstop =>
        cases h
        rw [Bool.and_eq_true, decide_eq_true_eq] at hstop
        refine ⟨lexeme.line, ?_⟩
        rw [← hstop.1]
        rfl
      · obtain ⟨k, hk, rfl⟩ := Option.map_eq_some_iff.mp h
        obtain ⟨closed, hrest⟩ := ih hk
        refine ⟨closed, ?_⟩
        rw [List.take_succ_cons, List.drop_succ_cons, List.cons_append, ← hrest]

/-- A tally after one more word that owns a body and its two wrappers. -/
def Tally.settle (t : Tally) : Tally :=
  { t with wrappers := t.wrappers + 2, owners := t.owners + 1 }

theorem Tally.balanced_settle
    (t : Tally) :
    t.settle.balanced = t.balanced := by
  have h : t.wrappers + 2 = 2 * (t.owners + 1) ↔ t.wrappers = 2 * t.owners := by omega
  simp [Tally.balanced, Tally.settle, h]

theorem Tally.count_settle
    (t : Tally) (token : Token) :
    t.settle.count token = (t.count token).settle := by
  unfold Tally.count
  split
  · rfl
  · rfl
  · rfl
  · rfl
  · rfl
  · by_cases hparens : t.parens = 0
    · simp [Tally.settle, hparens]
    · simp [Tally.settle, hparens]
  · rfl
  · rfl
  · rfl

/-- Counting depends on the wrappers that are owed, not on the words that had theirs. -/
theorem lengthFrom?_settle
    (t : Tally) (lexemes : List Lexeme) :
    lengthFrom? t.settle lexemes = lengthFrom? t lexemes := by
  induction lexemes generalizing t with
  | nil => rfl
  | cons lexeme rest ih =>
      rw [lengthFrom?, lengthFrom?, Tally.balanced_settle, Tally.count_settle, ih]

theorem Passes.settled
    {t u : Tally} {a : List Lexeme} (h : Passes t u.settle a) :
    Passes t u a := by
  intro rest
  rw [h, lengthFrom?_settle]

/-- A tally inside a list of expressions: the parenthesis around arguments is open. -/
def Tally.inside (t : Tally) : Enclosure → Tally
  | .arguments => { t with parens := t.parens + 1 }
  | .elements => t

/-- The tally before a phrase after which the tally is `t`.  A list of expressions takes the
mark that closes it, but not the one that opened it. -/
def Tally.entering (t : Tally) : Phrase → Tally
  | .items enclosure _ | .itemsTail enclosure _ => t.inside enclosure
  | _ => t

theorem Passes.closing
    (t : Tally) (enclosure : Enclosure) (line : Nat) :
    Passes (t.inside enclosure) t [⟨.mark enclosure.closing, line⟩] := by
  cases enclosure with
  | arguments => exact .cons rfl (.nil t)
  | elements => exact .skip (by simp [Enclosure.closing]) rfl (.nil t)

theorem Passes.comma
    {t u : Tally} {a : List Lexeme} {line : Nat} (ha : Passes t u a) :
    Passes t u (⟨.mark .comma, line⟩ :: a) :=
  .skip (by simp) rfl ha

theorem Passes.sumOp
    {t u : Tally} {token : Token} {op : BinaryOp} {a : List Lexeme} {line : Nat}
    (hop : sumOp? token = some op) (ha : Passes t u a) :
    Passes t u (⟨token, line⟩ :: a) := by
  unfold sumOp? at hop
  split at hop
  · exact .skip (by simp) rfl ha
  · exact .skip (by simp) rfl ha
  · cases hop

theorem Passes.productOp
    {t u : Tally} {token : Token} {op : BinaryOp} {a : List Lexeme} {line : Nat}
    (hop : productOp? token = some op) (ha : Passes t u a) :
    Passes t u (⟨token, line⟩ :: a) := by
  unfold productOp? at hop
  split at hop
  · exact .skip (by simp) rfl ha
  · exact .skip (by simp) rfl ha
  · exact .skip (by simp) rfl ha
  · cases hop

/-- An expression leaves every tally as it is. -/
theorem Passes.phrase
    {phrase : Phrase} {taken rest : List Lexeme} (h : Reads phrase taken rest) (t : Tally) :
    Passes (t.entering phrase) t taken := by
  induction h generalizing t with
  | compared _ _ ihl ihr =>
      refine (ihl t).append ?_
      exact .skip (by simp) rfl (ihr t)
  | uncompared _ _ ih | plain _ ih | someItems _ ih => exact ih t
  | sum _ _ ihl ihr | product _ _ ihl ihr => exact (ihl t).append (ihr t)
  | sumEnd _ | productEnd _ => exact .nil t
  | sumStep hop _ _ ihl ihr =>
      have hoperands := (ihl t).append (ihr t)
      exact .sumOp hop hoperands
  | productStep hop _ _ ihl ihr =>
      have hoperands := (ihl t).append (ihr t)
      exact .productOp hop hoperands
  | negated _ ih | array _ ih => exact .skip (by simp) rfl (ih t)
  | number | text | boolean | name _ => exact .skip (by simp) rfl (.nil t)
  | @grouped _ _ closed _ _ _ ih =>
      have hinner := (ih (t.inside .arguments)).append (.closing t .arguments closed)
      exact .cons (by simp) hinner
  | call _ ih =>
      refine .skip (by simp) rfl ?_
      exact .cons (by simp) (ih t)
  | noItems => exact .closing t _ _
  | lastItem _ ih => exact (ih _).append (.closing t _ _)
  | moreItems _ _ ihl ihr =>
      refine (ihl _).append ?_
      exact .comma (ihr t)

/-- Inside the parentheses of parameters the word `fn` owns no body. -/
theorem Passes.kindInside
    {t u : Tally} {kind : Kind} {a : List Lexeme} {line : Nat}
    (ha : Passes (t.inside .arguments) u a) :
    Passes (t.inside .arguments) u (⟨.kind kind, line⟩ :: a) := by
  refine .skip (by simp) ?_ ha
  cases kind <;> rfl

theorem Passes.listed
    {ps : List Parameter} {a : List Lexeme} (h : Listed ps a) (t : Tally) :
    Passes (t.inside .arguments) t a := by
  induction h with
  | last =>
      refine .kindInside (.skip (by simp) rfl ?_)
      exact .closing t .arguments _
  | more _ ih =>
      refine .kindInside (.skip (by simp) rfl ?_)
      exact .comma ih

theorem Passes.signature
    {ps : List Parameter} {a : List Lexeme} (h : Signature ps a) (t : Tally) :
    Passes t t a := by
  cases h with
  | empty => exact .cons (by simp) (.closing t .arguments _)
  | listed hps => exact .cons (by simp) (.listed hps t)

/-- No parenthesis is open and no wrapper has come ahead of the word that owes it. -/
def Tally.Owing (t : Tally) : Prop :=
  t.parens = 0 ∧ t.wrappers ≤ 2 * t.owners

/-- The tally before a clause after which the tally is `t`.  A body comes after the word that
owns it. -/
def Tally.before (t : Tally) : Clause → Tally
  | .body _ => { t with owners := t.owners + 1 }
  | _ => t

/-- A statement brings two wrappers for every word that owns a body, and none of them could end
the body around it. -/
theorem Passes.clause
    {clause : Clause} {taken rest : List Lexeme} (h : Forms clause taken rest) {t : Tally}
    (ht : t.Owing) :
    Passes (t.before clause) t taken := by
  induction h generalizing t with
  | function hsig _ ih =>
      have hcount : t.count (.kind .fn) = { t with owners := t.owners + 1 } := if_pos ht.1
      have hrest := (Passes.signature hsig { t with owners := t.owners + 1 }).append (ih ht)
      refine .cons (by simp) (.skip (by simp) rfl (.skip (by simp) rfl ?_))
      change Passes (t.count (.kind .fn)) t _
      rw [hcount]
      exact hrest
  | @declare kind _ _ _ _ _ _ _ hkind hvalue =>
      have hcount : t.count (.kind kind) = t := by
        cases kind with
        | fn => exact absurd rfl hkind
        | _ => rfl
      refine .skip (by simp) hcount (.skip (by simp) rfl (.skip (by simp) rfl ?_))
      exact .phrase hvalue t
  | conditional hguard _ _ ihb iha | guarded hguard _ _ ihb iha =>
      have hbodies := (ihb ht).append (iha ht)
      have hguarded := (Passes.phrase hguard { t with owners := t.owners + 1 }).append hbodies
      exact .cons (by simp) hguarded
  | loop hfirst hlast _ ih =>
      have hbounds := Passes.phrase hfirst { t with owners := t.owners + 1 }
      refine .cons (by simp) (hbounds.append (.skip (by simp) rfl ?_))
      refine (Passes.phrase hlast _).append ?_
      exact .skip (by simp) rfl (.skip (by simp) rfl (ih ht))
  | returns hvalue => exact .skip (by simp) rfl (.phrase hvalue t)
  | expression hvalue => exact .phrase hvalue t
  | noArms _ _ | done => exact .nil t
  | final _ ih => exact .cons (by simp) (ih ht)
  | wrapped _ ih =>
      -- The word before the body owes both wrappers, so neither is mistaken for an end.
      obtain ⟨hparens, howed⟩ := ht
      have hopen : t.wrappers < 2 * (t.owners + 1) := by omega
      have hclose : t.wrappers + 1 < 2 * (t.owners + 1) := by omega
      have howing : Tally.Owing
          { t with wrappers := t.wrappers + 1, owners := t.owners + 1 } :=
        ⟨hparens, Nat.le_of_lt hclose⟩
      refine .wrapper hopen (Passes.append (ih howing) ?_)
      exact .wrapper hclose (Passes.settled (.nil _))
  | cons _ _ ihs ihp => exact (ihs ht).append (ihp ht)

/-- The count finds the end of a program that is followed by a wrapper. -/
theorem length?_of_program
    {ss : List Statement} {taken rest : List Lexeme} (h : Forms (.program ss) taken rest)
    (closed : Nat) (after : List Lexeme) :
    length? (taken ++ ⟨.mark .colon, closed⟩ :: after) = some taken.length := by
  have hpass : Passes {} {} taken := Passes.clause h ⟨rfl, Nat.le_refl _⟩
  rw [length?, hpass]
  simp [lengthFrom?, Tally.balanced]

end Block
end ColonScript
