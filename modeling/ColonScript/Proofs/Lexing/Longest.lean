import ColonScript.Proofs.Lexing.Pattern

/-!
# The longest piece of a text

The piece that is cut off the front of a text is the longest one that has a pattern.  A word of
the language wins over an identifier.  A text has at most one such piece, and this stands for one
token or for none.
-/

namespace ColonScript

/-- A text that is not empty and has a pattern. -/
def IsPiece (w : List Char) : Prop :=
  w ≠ [] ∧ ∃ p : Pattern, w ∈ p.language

/-- A piece at the front of a text, such that none there is longer. -/
structure Longest (w rest : List Char) : Prop where
  isPiece : IsPiece w
  length_le : ∀ v, v <+: w ++ rest → IsPiece v → v.length ≤ w.length

namespace Pattern

/-- The pattern that decides about a text.  A word of the language is no identifier. -/
structure Wins (p : Pattern) (w : List Char) : Prop where
  mem : w ∈ p.language
  unreserved : p = .identifier → ∀ q : Pattern, q.isReserved = true → w ∉ q.language

end Pattern

/-- The piece at the front of a text, with the token that it stands for. -/
structure FirstPiece (w rest : List Char) (token : Option Token) : Prop where
  longest : Longest w rest
  denoted : ∃ p : Pattern, p.Wins w ∧ p.Denotes w token

/-! ## There is at most one first piece -/

theorem Longest.unique
    {v w rest rest' : List Char} (hv : Longest v rest) (hw : Longest w rest')
    (htext : v ++ rest = w ++ rest') :
    v = w ∧ rest = rest' := by
  have hvw : v.length ≤ w.length := by
    apply hw.length_le v _ hv.isPiece
    rw [← htext]
    exact List.prefix_append v rest
  have hwv : w.length ≤ v.length := by
    apply hv.length_le w _ hw.isPiece
    rw [htext]
    exact List.prefix_append w rest'
  exact List.append_inj htext (Nat.le_antisymm hvw hwv)

namespace Pattern

/-- The token of a reserved word is the one that the table of words gives. -/
theorem lookup_reservedWords
    {p : Pattern} (hp : p.isReserved = true) {w : List Char} (hw : w ∈ p.language)
    {t : Option Token} (ht : p.Denotes w t) :
    Lexer.reservedWords.lookup (String.ofList w) = t := by
  cases ht with
  | @boolean w b =>
      obtain rfl : w = (boolWord b).toList := hw
      cases b <;> rfl
  | @kind w k =>
      obtain rfl : w = k.word.toList := hw
      cases k <;> rfl
  | @keyword w k =>
      obtain rfl : w = k.word.toList := hw
      cases k <;> rfl
  | _ => cases hp

theorem eq_of_sign
    {m m' : Mark} (h : m.sign.toList = m'.sign.toList) :
    m = m' := by
  revert h
  cases m <;> cases m' <;> decide

theorem not_mem_comment
    {m : Mark} {w : List Char} (hm : w = m.sign.toList) :
    w ∉ comment.language := by
  intro hw
  obtain ⟨remark, rfl, -⟩ := mem_comment.mp hw
  cases m <;> simp [Mark.sign] at hm

/-- Apart from words, a text has at most one pattern. -/
theorem unique_of_not_reserved
    {p q : Pattern} (hp : p.isReserved = false) (hq : q.isReserved = false) {w : List Char}
    (hwp : w ∈ p.language) (hwq : w ∈ q.language) :
    p = q := by
  obtain ⟨c, v, rfl, hopening⟩ := exists_cons_of_mem hwp
  obtain ⟨c', v', hcons, hopening'⟩ := exists_cons_of_mem hwq
  obtain ⟨rfl, rfl⟩ := List.cons.inj hcons
  rw [hopening] at hopening'
  cases p with
  | comment =>
      cases q with
      | comment => rfl
      | mark m => exact absurd hwp (not_mem_comment hwq)
      | _ => cases hopening'
  | mark m =>
      cases q with
      | comment => exact absurd hwq (not_mem_comment hwp)
      | mark m' => rw [eq_of_sign (hwp.symm.trans hwq)]
      | _ => cases hopening'
  | boolean | kind | keyword => cases hp
  | number | fraction | text | identifier | newline | blanks =>
      cases q <;> first | rfl | contradiction

/-- What decides about a word of the language is such a word. -/
theorem Wins.isReserved
    {p q : Pattern} (hq : q.isReserved = true) {w : List Char} (hwq : w ∈ q.language)
    (hp : p.Wins w) :
    p.isReserved = true := by
  by_contra hreserved
  rw [Bool.not_eq_true] at hreserved
  have hidentifier : p = .identifier :=
    unique_of_not_reserved hreserved rfl hp.mem (mem_identifier_of_mem hq hwq)
  exact hp.unreserved hidentifier q hq hwq

theorem Wins.denotes_unique
    {p q : Pattern} {w : List Char} (hp : p.Wins w) (hq : q.Wins w) {t u : Option Token}
    (ht : p.Denotes w t) (hu : q.Denotes w u) :
    t = u := by
  by_cases hreserved : p.isReserved = true
  · have hreserved' : q.isReserved = true := hq.isReserved hreserved hp.mem
    rw [← lookup_reservedWords hreserved hp.mem ht, lookup_reservedWords hreserved' hq.mem hu]
  · have hreserved' : ¬q.isReserved = true := fun h => hreserved (hp.isReserved h hq.mem)
    rw [Bool.not_eq_true] at hreserved hreserved'
    obtain rfl := unique_of_not_reserved hreserved hreserved' hp.mem hq.mem
    exact ht.unique hu

end Pattern

theorem FirstPiece.unique
    {v w rest rest' : List Char} {t u : Option Token} (hv : FirstPiece v rest t)
    (hw : FirstPiece w rest' u) (htext : v ++ rest = w ++ rest') :
    v = w ∧ rest = rest' ∧ t = u := by
  obtain ⟨rfl, rfl⟩ := hv.longest.unique hw.longest htext
  obtain ⟨p, hp, ht⟩ := hv.denoted
  obtain ⟨q, hq, hu⟩ := hw.denoted
  exact ⟨rfl, rfl, hp.denotes_unique hq ht hu⟩

end ColonScript
