import ColonScript.Proofs.Reading.Statements
import Mathlib

/-!
# Readers look one token ahead

A reader takes lexemes off the front of a list and may look at what comes after them, and the reader
of bodies counts over all of it.  None of this reaches far: every reader takes at least one lexeme,
and it gives the same before anything else that starts with a token of the same sort, before a
wrapper, and at the end (`readers_look_one_ahead`).  Both halves come from the rules of the readers,
which say what is taken and where it ends.
-/

namespace ColonScript

/-- Two tokens are of the same sort: they are the same, up to the content of a literal and the name
of an identifier. -/
inductive Token.SameSort : Token → Token → Prop
  | number (a b : Float) : SameSort (.number a) (.number b)
  | text (a b : String) : SameSort (.text a) (.text b)
  | boolean (a b : Bool) : SameSort (.boolean a) (.boolean b)
  | identifier (a b : String) : SameSort (.identifier a) (.identifier b)
  | same (token : Token) : SameSort token token

/-- The tokens that continue something are all the same within their sort. -/
theorem Token.SameSort.eq_of_mem_extending
    {a b : Token} (h : a.SameSort b) (hb : b ∈ Reader.extending) :
    a = b := by
  cases h with
  | number | text | boolean | identifier => simp [Reader.extending] at hb
  | same => rfl

namespace Reader

/-- `other` can stand for `rest`: both are empty or start with tokens of the same sort, or `other`
is empty or starts with a wrapper. -/
def StandsFor (other rest : List Lexeme) : Prop :=
  Option.Rel Token.SameSort (next? rest) (next? other) ∨ other = [] ∨
    next? other = some (.mark .colon)

/-- What ends before `rest` ends before everything that can stand for it. -/
theorem StandsFor.endsAlike
    {other rest : List Lexeme} (h : StandsFor other rest) :
    EndsAlike rest other := by
  intro token hmem hnext
  rcases h with hsame | rfl | hcolon
  · rw [hnext] at hsame
    generalize next? rest = first at hsame ⊢
    cases hsame with
    | some hsort => rw [hsort.eq_of_mem_extending hmem]
  · cases hnext
  · obtain rfl : Token.mark .colon = token := Option.some.inj (hcolon.symm.trans hnext)
    simp [extending] at hmem

/-- A reader makes progress and looks one token ahead: it takes some lexemes, and gives the same and
leaves exactly what follows if anything that can stand for the rest follows them. -/
def LooksOneAhead {α : Type} (read : (lexemes : List Lexeme) → Reading α lexemes) : Prop :=
  ∀ lexemes x rest, Gives (read lexemes) x rest →
    ∃ taken, taken ≠ [] ∧ lexemes = taken ++ rest ∧
      ∀ other, StandsFor other rest → Gives (read (taken ++ other)) x other

/-- A reader looks one token ahead if it takes by rules, and gives whatever these rules allow before
all that ends alike. -/
theorem looksOneAhead_of_rules
    {α : Type} {read : (lexemes : List Lexeme) → Reading α lexemes}
    (rule : α → List Lexeme → List Lexeme → Prop)
    (htakes : ∀ lexemes p, read lexemes = .ok p →
      ∃ taken, lexemes = taken ++ p.rest ∧ rule p.value taken p.rest)
    (hgives : ∀ {x taken rest other}, rule x taken rest → EndsAlike rest other →
      Gives (read (taken ++ other)) x other) :
    LooksOneAhead read := by
  rintro lexemes x rest ⟨p, hp, rfl, rfl⟩
  obtain ⟨taken, hlexemes, hrule⟩ := htakes lexemes p hp
  refine ⟨taken, ?_, hlexemes, fun other hother => hgives hrule hother.endsAlike⟩
  rintro rfl
  have hlength := congrArg List.length hlexemes
  have hshorter := p.shorter
  rw [List.nil_append] at hlength
  omega

/-- Readers of expressions follow their rules also before other lexemes that end alike. -/
theorem looksOneAhead_of_reads
    {read : (lexemes : List Lexeme) → Reading Expr lexemes} {phrase : Expr → Phrase}
    (htakes : ∀ lexemes, Takes phrase lexemes (read lexemes))
    (hreads : ∀ {e taken rest}, Reads (phrase e) taken rest →
      Gives (read (taken ++ rest)) e rest) :
    LooksOneAhead read :=
  looksOneAhead_of_rules (fun e => Reads (phrase e)) htakes
    fun h halike => hreads (h.endsAlike halike)

/-- Every reader makes progress and looks one token ahead: the readers of statements, of expressions
at each level of precedence, where a whole expression is a comparison, and of bodies, whatever line
and construct they are handed. -/
theorem readers_look_one_ahead :
    LooksOneAhead statement ∧
      (∀ line, LooksOneAhead (comparison line)) ∧
      (∀ line, LooksOneAhead (sum line)) ∧
      (∀ line, LooksOneAhead (product line)) ∧
      (∀ line, LooksOneAhead (factor line)) ∧
      ∀ owner line, LooksOneAhead (body owner line) := by
  obtain ⟨hcomparison, hsum, -, hproduct, -, hfactor, -, -, -⟩ := expressions_take
  obtain ⟨hstatement, -, hbody, -⟩ := statements_take
  refine ⟨?_, fun line => ?_, fun line => ?_, fun line => ?_, fun line => ?_, fun owner line => ?_⟩
  · exact looksOneAhead_of_rules (fun s => Forms (.statement s)) hstatement
      fun h halike => h.isFormed halike
  · exact looksOneAhead_of_reads (hcomparison line) fun h => h.isRead line
  · exact looksOneAhead_of_reads (hsum line) fun h => h.isRead line
  · exact looksOneAhead_of_reads (hproduct line) fun h => h.isRead line
  · exact looksOneAhead_of_reads (hfactor line) fun h => h.isRead line
  · exact looksOneAhead_of_rules (fun ss => Forms (.body ss)) (hbody owner line)
      fun h halike => h.isFormed halike owner line

/-- A conditional that is followed by a name is read alike before another name, although what comes
after that name is no program and leaves bodies open. -/
theorem conditional_read_before_any_name :
    let taken : List Lexeme := [⟨.keyword .lada, 1⟩, ⟨.identifier "x", 1⟩, ⟨.mark .colon, 1⟩,
      ⟨.mark .colon, 2⟩]
    let rest : List Lexeme := [⟨.identifier "y", 3⟩]
    let other : List Lexeme := [⟨.identifier "z", 4⟩, ⟨.mark .colon, 5⟩, ⟨.keyword .naduh, 6⟩]
    let s := Statement.conditional [.mk (some (.name "x" 1)) [] 1] 1
    Gives (statement (taken ++ rest)) s rest ∧ StandsFor other rest ∧
      Gives (statement (taken ++ other)) s other := by
  intro taken rest other s
  have hgives : Gives (statement (taken ++ rest)) s rest :=
    ⟨⟨s, rest, by decide⟩, by cbv, rfl, rfl⟩
  have hother : StandsFor other rest := .inl (.some (.identifier "y" "z"))
  obtain ⟨taken', -, hsplit, hahead⟩ := readers_look_one_ahead.1 _ s rest hgives
  obtain rfl : taken = taken' := List.append_cancel_right hsplit
  exact ⟨hgives, hother, hahead other hother⟩

end Reader
end ColonScript
