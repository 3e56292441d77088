import ColonScript.ReadError

/-!
# Finding the end of a body

Bodies open and close with the same mark, so nesting alone does not tell where a body ends.
Every word that owns a body brings exactly two wrappers: its opening and its closing one.  A
body therefore ends at the first wrapper before which there are twice as many wrappers as such
words.  The word `fn` owns a body unless it stands inside parentheses, where it is the kind of
a parameter.
-/

namespace ColonScript
namespace Block

/-- What has been counted from the start of a body: wrappers, words that own a body, and
parentheses that are open. -/
structure Tally where
  wrappers : Nat := 0
  owners : Nat := 0
  parens : Nat := 0
deriving DecidableEq

/-- Every word so far that owns a body has had both its wrappers. -/
def Tally.balanced (t : Tally) : Bool :=
  t.wrappers = 2 * t.owners

/-- Counts one token that does not end the body. -/
def Tally.count (t : Tally) : Token → Tally
  | .mark .colon => { t with wrappers := t.wrappers + 1 }
  | .keyword .lada | .keyword .badlada | .keyword .hynrei | .keyword .naduh =>
      { t with owners := t.owners + 1 }
  | .kind .fn => if t.parens = 0 then { t with owners := t.owners + 1 } else t
  | .mark .leftParen => { t with parens := t.parens + 1 }
  | .mark .rightParen => { t with parens := t.parens - 1 }
  | _ => t

/-- The number of lexemes before the wrapper that ends the body, after a tally. -/
def lengthFrom? (t : Tally) : List Lexeme → Option Nat
  | [] => none
  | lexeme :: rest =>
      if lexeme.token = .mark .colon && t.balanced then some 0
      else (lengthFrom? (t.count lexeme.token) rest).map (· + 1)

/-- The number of lexemes of a body, given the lexemes after its opening wrapper. -/
def length? (lexemes : List Lexeme) : Option Nat :=
  lengthFrom? {} lexemes

/-- The number of lexemes of a body that was opened on `line`. -/
def extent (line : Nat) (lexemes : List Lexeme) : Except ReadError Nat :=
  match length? lexemes with
  | some n => .ok n
  | none => .error ⟨.unterminatedBlock, line⟩

end Block
end ColonScript
