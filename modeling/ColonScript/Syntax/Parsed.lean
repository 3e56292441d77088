import ColonScript.ReadError

/-!
# Results of reading

A reader takes something off the front of a list of lexemes.  Its result carries the lexemes
after it together with the fact that they are fewer than a bound, so that reading on from there
comes to an end.
-/

namespace ColonScript

/-- Something that was read, with the lexemes after it. -/
structure Parsed (α : Type) (bound : Nat) where
  value : α
  rest : List Lexeme
  shorter : rest.length < bound

namespace Parsed

variable {α β : Type} {m n : Nat}

/-- What was read and the lexemes after it, without the bound. -/
def toPair (p : Parsed α n) : α × List Lexeme :=
  (p.value, p.rest)

/-- Replaces what was read and relaxes the bound. -/
def mapLe (f : α → β) (h : m ≤ n) (p : Parsed α m) : Parsed β n :=
  ⟨f p.value, p.rest, Nat.lt_of_lt_of_le p.shorter h⟩

/-- Replaces what was read. -/
def map (f : α → β) (p : Parsed α n) : Parsed β n :=
  p.mapLe f (Nat.le_refl n)

/-- One more lexeme can be taken off what is left. -/
theorem succ_length_le
    (p : Parsed α n) {lexeme : Lexeme} {after : List Lexeme} (h : p.rest = lexeme :: after) :
    after.length + 1 ≤ n := by
  have hshorter := p.shorter
  rw [h, List.length_cons] at hshorter
  exact Nat.le_of_lt hshorter

@[simp]
theorem value_mapLe
    (f : α → β) (h : m ≤ n) (p : Parsed α m) :
    (p.mapLe f h).value = f p.value :=
  rfl

@[simp]
theorem rest_mapLe
    (f : α → β) (h : m ≤ n) (p : Parsed α m) :
    (p.mapLe f h).rest = p.rest :=
  rfl

@[simp]
theorem toPair_mapLe
    (f : α → β) (h : m ≤ n) (p : Parsed α m) :
    (p.mapLe f h).toPair = (f p.value, p.rest) :=
  rfl

end Parsed

/-- The outcome of reading from a list of lexemes: some of them are taken. -/
abbrev Reading (α : Type) (lexemes : List Lexeme) : Type :=
  Except ReadError (Parsed α lexemes.length)

/-- An outcome of reading without its bound. -/
def Reading.toPair {α : Type} {n : Nat} (r : Except ReadError (Parsed α n)) :
    Except ReadError (α × List Lexeme) :=
  r.map Parsed.toPair

end ColonScript
