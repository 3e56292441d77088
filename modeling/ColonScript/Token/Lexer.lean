import ColonScript.Decimal.Reading
import ColonScript.ReadError

/-!
# Cutting source text into lexemes

Source text is cut from the front, each piece as long as its form allows.  Blanks, comments and
line ends separate tokens and are dropped.  Lines count from one; a token is tagged with the
line on which it ends.
-/

namespace ColonScript
namespace Lexer

/-- The blanks between tokens on one line. -/
def isSpace (c : Char) : Bool :=
  c = ' ' || c = '\t' || c = '\r' || c = '\x0c'

/-- The characters that start a word. -/
def startsWord (c : Char) : Bool :=
  c.isAlpha || c = '_'

/-- The characters that continue a word. -/
def continuesWord (c : Char) : Bool :=
  c.isAlphanum || c = '_'

/-- The words that are not identifiers. -/
def reservedWords : List (String × Token) :=
  ([.fn, .num, .str, .arr, .bool].map fun k => (Kind.word k, .kind k)) ++
  ([.lada, .badlada, .hynrei, .naduh, .haduh, .da, .whileLoop].map fun w =>
    (Keyword.word w, .keyword w)) ++
  [("true", .boolean true), ("false", .boolean false)]

/-- The token of a word. -/
def wordToken (word : String) : Token :=
  (reservedWords.lookup word).getD (.identifier word)

/-- A piece cut off the front of a text: its token, unless it only separates tokens, the
number of line ends in it, and the text after it. -/
structure Piece where
  token : Option Token
  newlines : Nat
  rest : List Char

/-- Cuts off a number that starts with a digit.  A point belongs to it only if a digit
follows. -/
def number (c : Char) (cs : List Char) : Piece :=
  let whole := c :: cs.takeWhile Char.isDigit
  let rest := cs.dropWhile Char.isDigit
  match rest with
  | '.' :: d :: ds =>
      if d.isDigit then
        let fraction := d :: ds.takeWhile Char.isDigit
        ⟨some (.number (Decimal.ofDigits whole fraction).toFloat), 0, ds.dropWhile Char.isDigit⟩
      else ⟨some (.number (Decimal.ofDigits whole []).toFloat), 0, rest⟩
  | _ => ⟨some (.number (Decimal.ofDigits whole []).toFloat), 0, rest⟩

/-- Cuts off a word. -/
def word (c : Char) (cs : List Char) : Piece :=
  ⟨some (wordToken (String.ofList (c :: cs.takeWhile continuesWord))), 0,
    cs.dropWhile continuesWord⟩

/-- Cuts off a string, given the text after its opening quote.  It ends at the next quote. -/
def string? (cs : List Char) : Option Piece :=
  let content := cs.takeWhile (· ≠ '"')
  match cs.dropWhile (· ≠ '"') with
  | [] => none
  | _ :: rest => some ⟨some (.text (String.ofList content)), content.count '\n', rest⟩

/-- A piece that is a mark. -/
def Piece.ofMark (m : Mark) (rest : List Char) : Piece :=
  ⟨some (.mark m), 0, rest⟩

/-- Cuts off a mark, a comment or a fraction without whole part. -/
def sign? : Char → List Char → Option Piece
  | '/', '/' :: cs => some ⟨none, 0, cs.dropWhile (· ≠ '\n')⟩
  | '/', cs => some (.ofMark .slash cs)
  | '=', '>' :: cs => some (.ofMark .arrow cs)
  | '=', '=' :: cs => some (.ofMark .equalEqual cs)
  | '=', cs => some (.ofMark .equals cs)
  | '+', cs => some (.ofMark .plus cs)
  | '-', cs => some (.ofMark .minus cs)
  | '*', cs => some (.ofMark .star cs)
  | '%', cs => some (.ofMark .percent cs)
  | ':', cs => some (.ofMark .colon cs)
  | '(', cs => some (.ofMark .leftParen cs)
  | ')', cs => some (.ofMark .rightParen cs)
  | '[', cs => some (.ofMark .leftBracket cs)
  | ']', cs => some (.ofMark .rightBracket cs)
  | ',', cs => some (.ofMark .comma cs)
  | '.', d :: cs =>
      if d.isDigit then
        let fraction := d :: cs.takeWhile Char.isDigit
        some ⟨some (.number (Decimal.ofDigits [] fraction).toFloat), 0, cs.dropWhile Char.isDigit⟩
      else none
  | _, _ => none

/-- Cuts the longest piece off the front of the text `c :: cs`. -/
def piece? (c : Char) (cs : List Char) : Option Piece :=
  if c = '\n' then some ⟨none, 1, cs⟩
  else if isSpace c then some ⟨none, 0, cs.dropWhile isSpace⟩
  else if c.isDigit then some (number c cs)
  else if startsWord c then some (word c cs)
  else if c = '"' then string? cs
  else sign? c cs

/-- Dropping a run of characters does not lengthen a text. -/
theorem length_dropWhile_le
    (p : Char → Bool) (cs : List Char) :
    (cs.dropWhile p).length ≤ cs.length :=
  (List.dropWhile_sublist p).length_le

theorem length_number_rest_le
    (c : Char) (cs : List Char) :
    (number c cs).rest.length ≤ cs.length := by
  have hrest := length_dropWhile_le Char.isDigit cs
  unfold number
  dsimp only
  split
  next d ds heq =>
    have hds := length_dropWhile_le Char.isDigit ds
    split
    · rw [heq] at hrest
      simp only [List.length_cons] at hrest ⊢
      omega
    · exact hrest
  next => exact hrest

theorem length_string?_rest_le
    {cs : List Char} {p : Piece} (h : string? cs = some p) :
    p.rest.length ≤ cs.length := by
  have hrest := length_dropWhile_le (· ≠ '"') cs
  unfold string? at h
  dsimp only at h
  split at h
  next => exact absurd h (by simp)
  next rest heq =>
    rw [heq] at hrest
    obtain rfl := Option.some.inj h
    simp only [List.length_cons] at hrest ⊢
    omega

theorem length_sign?_rest_le
    {c : Char} {cs : List Char} {p : Piece} (h : sign? c cs = some p) :
    p.rest.length ≤ cs.length := by
  unfold sign? at h
  split at h
  next cs' =>
    obtain rfl := Option.some.inj h
    have := length_dropWhile_le (· ≠ '\n') cs'
    simp only [List.length_cons]
    omega
  all_goals try (obtain rfl := Option.some.inj h; simp [Piece.ofMark])
  next d cs' =>
    split at h
    · obtain rfl := Option.some.inj h
      have := length_dropWhile_le Char.isDigit cs'
      simp only [List.length_cons]
      omega
    · exact absurd h (by simp)
  next => exact absurd h (by simp)

/-- What is left after a piece is no longer than the text after its first character. -/
theorem length_piece?_rest_le
    {c : Char} {cs : List Char} {p : Piece} (h : piece? c cs = some p) :
    p.rest.length ≤ cs.length := by
  unfold piece? at h
  split at h
  · obtain rfl := Option.some.inj h
    exact Nat.le_refl _
  split at h
  · obtain rfl := Option.some.inj h
    exact length_dropWhile_le isSpace cs
  split at h
  · obtain rfl := Option.some.inj h
    exact length_number_rest_le c cs
  split at h
  · obtain rfl := Option.some.inj h
    exact length_dropWhile_le continuesWord cs
  split at h
  · exact length_string?_rest_le h
  · exact length_sign?_rest_le h

/-- The text that is reported when no piece can be cut off: all of a string that does not
end, otherwise one character. -/
def unrecognized (c : Char) (cs : List Char) : String :=
  if c = '"' then String.ofList (c :: cs) else String.ofList [c]

/-- Cuts a text into lexemes, counting lines from `line`. -/
def lexFrom (line : Nat) : List Char → Except ReadError (List Lexeme)
  | [] => .ok []
  | c :: cs =>
      match _h : piece? c cs with
      | none => .error ⟨.unrecognized (unrecognized c cs), line⟩
      | some p => do
          let following ← lexFrom (line + p.newlines) p.rest
          match p.token with
          | some t => .ok (⟨t, line + p.newlines⟩ :: following)
          | none => .ok following
termination_by cs => cs.length
decreasing_by
  have := length_piece?_rest_le _h
  simp only [List.length_cons]
  omega

end Lexer

/-- Cuts a source text into lexemes. -/
def lex (source : String) : Except ReadError (List Lexeme) :=
  Lexer.lexFrom 1 source.toList

end ColonScript
