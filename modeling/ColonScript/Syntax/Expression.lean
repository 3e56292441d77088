import ColonScript.Syntax
import ColonScript.Syntax.Parsed

/-!
# Reading expressions

Equality binds loosest and does not chain, then come sums and products, which associate to the
left, then negation, then literals, names, calls, arrays and parenthesised expressions.  The
line handed to a reader is reported when the lexemes end before an operand.
-/

namespace ColonScript
namespace Reader

/-- The lists of expressions that are separated by commas. -/
inductive Enclosure where
  | arguments
  | elements
deriving DecidableEq, Repr

/-- The mark that ends a list. -/
def Enclosure.closing : Enclosure → Mark
  | arguments => .rightParen
  | elements => .rightBracket

/-- The complaint about a token that neither continues nor ends a list. -/
def Enclosure.complaint : Enclosure → Token → ReadCause
  | arguments, _ => .unclosedParen
  | elements, found => .missingBracket found

/-- The operators of sums. -/
def sumOp? : Token → Option BinaryOp
  | .mark .plus => some .add
  | .mark .minus => some .sub
  | _ => none

/-- The operators of products. -/
def productOp? : Token → Option BinaryOp
  | .mark .star => some .mul
  | .mark .slash => some .div
  | .mark .percent => some .mod
  | _ => none

mutual

/-- Reads a comparison: a sum, optionally compared with another. -/
def comparison (line : Nat) (lexemes : List Lexeme) : Reading Expr lexemes := do
  let left ← sum line lexemes
  match _h : left.rest with
  | ⟨.mark .equalEqual, opLine⟩ :: rest =>
      let right ← sum opLine rest
      return right.mapLe (fun e => .binary .equal left.value e opLine) (by
        have := left.shorter
        simp_all only [List.length_cons]
        omega)
  | _ => return left
termination_by (lexemes.length, 5)
decreasing_by
  · exact Prod.Lex.right _ (by omega)
  · have := left.shorter
    simp_all only [List.length_cons]
    exact Prod.Lex.left _ _ (by omega)

/-- Reads a sum. -/
def sum (line : Nat) (lexemes : List Lexeme) : Reading Expr lexemes := do
  let first ← product line lexemes
  let all ← sumTail first.value first.rest
  return all.mapLe id (by have := first.shorter; omega)
termination_by (lexemes.length, 4)
decreasing_by
  · exact Prod.Lex.right _ (by omega)
  · exact Prod.Lex.left _ _ first.shorter

/-- Reads the summands that follow a sum read so far. -/
def sumTail (left : Expr) (lexemes : List Lexeme) :
    Except ReadError (Parsed Expr (lexemes.length + 1)) :=
  match lexemes with
  | [] => .ok ⟨left, [], by simp⟩
  | ⟨token, opLine⟩ :: rest =>
      match sumOp? token with
      | none => .ok ⟨left, ⟨token, opLine⟩ :: rest, by simp⟩
      | some op => do
          let right ← product opLine rest
          let all ← sumTail (.binary op left right.value opLine) right.rest
          return all.mapLe id (by
            have := right.shorter
            simp only [List.length_cons]
            omega)
termination_by (lexemes.length, 0)
decreasing_by
  · exact Prod.Lex.left _ _ (by simp)
  · have := right.shorter
    exact Prod.Lex.left _ _ (by simp only [List.length_cons]; omega)

/-- Reads a product. -/
def product (line : Nat) (lexemes : List Lexeme) : Reading Expr lexemes := do
  let first ← factor line lexemes
  let all ← productTail first.value first.rest
  return all.mapLe id (by have := first.shorter; omega)
termination_by (lexemes.length, 3)
decreasing_by
  · exact Prod.Lex.right _ (by omega)
  · exact Prod.Lex.left _ _ first.shorter

/-- Reads the factors that follow a product read so far. -/
def productTail (left : Expr) (lexemes : List Lexeme) :
    Except ReadError (Parsed Expr (lexemes.length + 1)) :=
  match lexemes with
  | [] => .ok ⟨left, [], by simp⟩
  | ⟨token, opLine⟩ :: rest =>
      match productOp? token with
      | none => .ok ⟨left, ⟨token, opLine⟩ :: rest, by simp⟩
      | some op => do
          let right ← factor opLine rest
          let all ← productTail (.binary op left right.value opLine) right.rest
          return all.mapLe id (by
            have := right.shorter
            simp only [List.length_cons]
            omega)
termination_by (lexemes.length, 0)
decreasing_by
  · exact Prod.Lex.left _ _ (by simp)
  · have := right.shorter
    exact Prod.Lex.left _ _ (by simp only [List.length_cons]; omega)

/-- Reads a factor: a primary expression under any number of minus signs. -/
def factor (line : Nat) (lexemes : List Lexeme) : Reading Expr lexemes :=
  match lexemes with
  | ⟨.mark .minus, minusLine⟩ :: rest => do
      let operand ← factor minusLine rest
      return operand.mapLe (fun e => .negate e minusLine) (by simp)
  | lexemes => primary line lexemes
termination_by (lexemes.length, 2)
decreasing_by
  · exact Prod.Lex.left _ _ (by simp)
  · exact Prod.Lex.right _ (by omega)

/-- Reads a literal, a name, a call, an array or a parenthesised expression. -/
def primary (line : Nat) (lexemes : List Lexeme) : Reading Expr lexemes :=
  match lexemes with
  | [] => .error ⟨.endOfInput, line⟩
  | ⟨.number value, l⟩ :: rest => .ok ⟨.literal (.number value) l, rest, by simp⟩
  | ⟨.text content, l⟩ :: rest => .ok ⟨.literal (.text content) l, rest, by simp⟩
  | ⟨.boolean value, l⟩ :: rest => .ok ⟨.literal (.boolean value) l, rest, by simp⟩
  | ⟨.mark .leftParen, l⟩ :: rest => do
      let inner ← comparison l rest
      match _h : inner.rest with
      | ⟨.mark .rightParen, _⟩ :: after =>
          return ⟨inner.value, after, by
            have := inner.shorter
            simp_all only [List.length_cons]
            omega⟩
      | ⟨_, foundLine⟩ :: _ => throw ⟨.unclosedParen, foundLine⟩
      | [] => throw ⟨.unclosedParen, l⟩
  | ⟨.mark .leftBracket, l⟩ :: rest => do
      let elements ← items .elements l rest
      return elements.mapLe (fun es => .array es l) (by simp)
  | ⟨.identifier name, l⟩ :: ⟨.mark .leftParen, _⟩ :: rest => do
      let arguments ← items .arguments l rest
      return arguments.mapLe (fun es => .call name es l) (by simp only [List.length_cons]; omega)
  | ⟨.identifier name, l⟩ :: rest => .ok ⟨.name name l, rest, by simp⟩
  | ⟨token, l⟩ :: _ => .error ⟨.unexpected token, l⟩
termination_by (lexemes.length, 1)
decreasing_by
  · exact Prod.Lex.left _ _ (by simp)
  · exact Prod.Lex.left _ _ (by simp)
  · exact Prod.Lex.left _ _ (by simp only [List.length_cons]; omega)

/-- Reads a list of expressions up to its closing mark. -/
def items (enclosure : Enclosure) (line : Nat) (lexemes : List Lexeme) :
    Reading (List Expr) lexemes :=
  match lexemes with
  | [] => itemsTail enclosure line []
  | ⟨token, l⟩ :: rest =>
      if token = .mark enclosure.closing then .ok ⟨[], rest, by simp⟩
      else itemsTail enclosure line (⟨token, l⟩ :: rest)
termination_by (lexemes.length, 7)
decreasing_by
  · exact Prod.Lex.right _ (by omega)
  · exact Prod.Lex.right _ (by omega)

/-- Reads the expressions of a list that has at least one more. -/
def itemsTail (enclosure : Enclosure) (line : Nat) (lexemes : List Lexeme) :
    Reading (List Expr) lexemes := do
  let item ← comparison line lexemes
  match _h : item.rest with
  | ⟨.mark .comma, _⟩ :: after =>
      let others ← itemsTail enclosure line after
      return others.mapLe (item.value :: ·) (by
        have := item.shorter
        simp_all only [List.length_cons]
        omega)
  | ⟨token, l⟩ :: after =>
      if token = .mark enclosure.closing then
        return ⟨[item.value], after, by
          have := item.shorter
          simp_all only [List.length_cons]
          omega⟩
      else throw ⟨enclosure.complaint token, l⟩
  | [] => throw ⟨.endOfInput, line⟩
termination_by (lexemes.length, 6)
decreasing_by
  · exact Prod.Lex.right _ (by omega)
  · have := item.shorter
    simp_all only [List.length_cons]
    exact Prod.Lex.left _ _ (by omega)

end

end Reader
end ColonScript
