import ColonScript.Syntax.Block
import ColonScript.Syntax.Expression
import ColonScript.Token.Lexer

/-!
# Reading statements

The first token of a statement decides its form.  Statements need no separator: each ends where
its form ends.  A body is cut out between its wrappers first and then read as a program of its
own.
-/

namespace ColonScript
namespace Reader

/-- Reads the name and the equals sign of a declaration. -/
def declaredName (line : Nat) : (lexemes : List Lexeme) → Reading String lexemes
  | ⟨.identifier name, _⟩ :: ⟨.mark .equals, _⟩ :: rest =>
      .ok ⟨name, rest, by simp only [List.length_cons]; omega⟩
  | ⟨.identifier name, _⟩ :: ⟨token, l⟩ :: _ => .error ⟨.missingEquals name token, l⟩
  | ⟨.identifier _, _⟩ :: [] => .error ⟨.endOfInput, line⟩
  | ⟨token, l⟩ :: _ => .error ⟨.missingName token, l⟩
  | [] => .error ⟨.endOfInput, line⟩

/-- Reads one parameter. -/
def parameter (line : Nat) : (lexemes : List Lexeme) → Reading Parameter lexemes
  | ⟨.kind kind, _⟩ :: ⟨.identifier name, _⟩ :: rest =>
      .ok ⟨⟨kind, name⟩, rest, by simp only [List.length_cons]; omega⟩
  | ⟨.kind kind, _⟩ :: ⟨token, l⟩ :: _ => .error ⟨.parameterName kind token, l⟩
  | ⟨.kind _, _⟩ :: [] => .error ⟨.endOfInput, line⟩
  | ⟨token, l⟩ :: _ => .error ⟨.parameterKind token, l⟩
  | [] => .error ⟨.endOfInput, line⟩

/-- Reads the parameters of a list that has at least one more. -/
def parametersTail (line : Nat) (lexemes : List Lexeme) : Reading (List Parameter) lexemes := do
  let one ← parameter line lexemes
  match _h : one.rest with
  | ⟨.mark .comma, _⟩ :: after =>
      let others ← parametersTail line after
      return others.mapLe (one.value :: ·) (Nat.le_of_succ_le (one.succ_length_le _h))
  | ⟨.mark .rightParen, _⟩ :: after =>
      return ⟨[one.value], after, one.succ_length_le _h⟩
  | ⟨token, l⟩ :: _ => throw ⟨.parameterSeparator token, l⟩
  | [] => throw ⟨.endOfInput, line⟩
termination_by lexemes.length
decreasing_by exact one.succ_length_le _h

/-- Reads a parenthesised list of parameters. -/
def parameters (line : Nat) : (lexemes : List Lexeme) → Reading (List Parameter) lexemes
  | ⟨.mark .leftParen, _⟩ :: ⟨.mark .rightParen, _⟩ :: rest =>
      .ok ⟨[], rest, by simp only [List.length_cons]; omega⟩
  | ⟨.mark .leftParen, _⟩ :: rest =>
      (parametersTail line rest).map (Parsed.mapLe id (Nat.le_succ _))
  | ⟨token, l⟩ :: _ => .error ⟨.missingParameters token, l⟩
  | [] => .error ⟨.endOfInput, line⟩

/-- The keyword of a word of loop headers. -/
def loopKeyword : LoopWord → Keyword
  | .haduh => .haduh
  | .da => .da

/-- Reads a bound of a loop and the word after it. -/
def loopBound (line : Nat) (word : LoopWord) (lexemes : List Lexeme) : Reading Expr lexemes := do
  let bound ← comparison line lexemes
  match _h : bound.rest with
  | ⟨token, l⟩ :: after =>
      if token = .keyword (loopKeyword word) then
        return ⟨bound.value, after, bound.succ_length_le _h⟩
      else throw ⟨.loopWord word, l⟩
  | [] => throw ⟨.loopWord word, line⟩

/-- Reads the variable of a loop. -/
def loopCounter (line : Nat) : (lexemes : List Lexeme) → Reading String lexemes
  | ⟨.identifier name, _⟩ :: rest => .ok ⟨name, rest, Nat.lt_succ_self _⟩
  | ⟨token, l⟩ :: _ => .error ⟨.loopVariable (some token), l⟩
  | [] => .error ⟨.loopVariable none, line⟩

mutual

/-- Reads one statement. -/
def statement (lexemes : List Lexeme) : Reading Statement lexemes :=
  match lexemes with
  | [] => .error ⟨.endOfInput, 1⟩
  | ⟨.kind .fn, line⟩ :: rest => do
      let name ← declaredName line rest
      let params ← parameters line name.rest
      let content ← body .functionDeclaration line params.rest
      return content.mapLe (fun b => .function name.value params.value b line) (by
        have := name.shorter
        have := params.shorter
        simp only [List.length_cons]
        omega)
  | ⟨.kind kind, line⟩ :: rest => do
      let name ← declaredName line rest
      let value ← comparison line name.rest
      return value.mapLe (fun e => .declare kind name.value e line) (by
        have := name.shorter
        simp only [List.length_cons]
        omega)
  | ⟨.keyword .lada, line⟩ :: rest => do
      let guard ← comparison line rest
      let content ← body .conditionalStatement line guard.rest
      let others ← arms content.rest
      return others.mapLe
        (fun as => .conditional (.mk (some guard.value) content.value line :: as) line) (by
          have := guard.shorter
          have := content.shorter
          simp only [List.length_cons]
          omega)
  | ⟨.keyword .badlada, line⟩ :: _ => .error ⟨.strayArm .badlada, line⟩
  | ⟨.keyword .hynrei, line⟩ :: _ => .error ⟨.strayArm .hynrei, line⟩
  | ⟨.keyword .whileLoop, line⟩ :: _ => .error ⟨.unsupportedLoop .whileLoop, line⟩
  | ⟨.keyword .naduh, line⟩ :: rest => do
      let first ← loopBound line .haduh rest
      let last ← loopBound line .da first.rest
      let counter ← loopCounter line last.rest
      let content ← body .countingLoop line counter.rest
      return content.mapLe
        (fun b => .loop counter.value first.value last.value b line) (by
          have := first.shorter
          have := last.shorter
          have := counter.shorter
          simp only [List.length_cons]
          omega)
  | ⟨.mark .arrow, line⟩ :: rest => do
      let value ← comparison line rest
      return value.mapLe (fun e => .returns e line) (Nat.le_succ _)
  | ⟨token, line⟩ :: rest => do
      let value ← comparison line (⟨token, line⟩ :: rest)
      return value.map fun e => .expression e line
termination_by (lexemes.length, 0)
decreasing_by
  · have := name.shorter
    have := params.shorter
    exact Prod.Lex.left _ _ (by simp only [List.length_cons]; omega)
  · have := guard.shorter
    exact Prod.Lex.left _ _ (by simp only [List.length_cons]; omega)
  · have := guard.shorter
    have := content.shorter
    exact Prod.Lex.left _ _ (by simp only [List.length_cons]; omega)
  · have := first.shorter
    have := last.shorter
    have := counter.shorter
    exact Prod.Lex.left _ _ (by simp only [List.length_cons]; omega)

/-- Reads the later arms of a conditional.  An arm without guard is the last. -/
def arms (lexemes : List Lexeme) : Except ReadError (Parsed (List Arm) (lexemes.length + 1)) :=
  match lexemes with
  | ⟨.keyword .badlada, line⟩ :: rest => do
      let guard ← comparison line rest
      let content ← body .conditionalStatement line guard.rest
      let others ← arms content.rest
      return others.mapLe (.mk (some guard.value) content.value line :: ·) (by
        have := guard.shorter
        have := content.shorter
        simp only [List.length_cons]
        omega)
  | ⟨.keyword .hynrei, line⟩ :: rest => do
      let content ← body .conditionalStatement line rest
      return content.mapLe (fun b => [.mk none b line]) (by simp only [List.length_cons]; omega)
  | lexemes => .ok ⟨[], lexemes, by simp⟩
termination_by (lexemes.length, 0)
decreasing_by
  · have := guard.shorter
    exact Prod.Lex.left _ _ (by simp only [List.length_cons]; omega)
  · have := guard.shorter
    have := content.shorter
    exact Prod.Lex.left _ _ (by simp only [List.length_cons]; omega)
  · exact Prod.Lex.left _ _ (by simp)

/-- Reads a wrapped body.  `line` is reported when there is no wrapper to report on. -/
def body (owner : Construct) (line : Nat) (lexemes : List Lexeme) :
    Reading (List Statement) lexemes :=
  match lexemes with
  | ⟨.mark .colon, opened⟩ :: rest => do
      let n ← Block.extent opened rest
      let content ← program (rest.take n)
      return ⟨content, rest.drop (n + 1), by
        simp only [List.length_drop, List.length_cons]
        omega⟩
  | ⟨token, l⟩ :: _ => .error ⟨.missingWrapper owner (some token), l⟩
  | [] => .error ⟨.missingWrapper owner none, line⟩
termination_by (lexemes.length, 0)
decreasing_by
  exact Prod.Lex.left _ _ (by simp only [List.length_take, List.length_cons]; omega)

/-- Reads statements up to the end of the lexemes. -/
def program (lexemes : List Lexeme) : Except ReadError (List Statement) :=
  match lexemes with
  | [] => .ok []
  | lexeme :: rest => do
      let one ← statement (lexeme :: rest)
      let others ← program one.rest
      return one.value :: others
termination_by (lexemes.length, 1)
decreasing_by
  · exact Prod.Lex.right _ (by omega)
  · exact Prod.Lex.left _ _ one.shorter

end

end Reader

/-- Reads a source text as a program. -/
def readProgram (source : String) : Except ReadError (List Statement) := do
  Reader.program (← lex source)

/-- Reads a source text as an expression, leaving aside what follows it. -/
def readExpression (source : String) : Except ReadError Expr := do
  return (← Reader.comparison 1 (← lex source)).value

end ColonScript
