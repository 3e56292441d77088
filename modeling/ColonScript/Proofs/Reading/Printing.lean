import ColonScript.Proofs.Reading.Grammar

/-!
# Writing programs

A program is written as tokens, with parentheses around an operand exactly where the level of the
operand is looser than the one its place asks for.  Statements stand next to each other without a
separator, so not every list of statements can be written such that it is understood: what starts
with a minus sign would be taken as part of an expression before it, and what starts with a
parenthesis as the arguments of a name before it.  `Statement.programWritable` says which lists are
free of this.
-/

namespace ColonScript

open Grammar

/-- How tight a level is. -/
def Grammar.Level.rank : Level → Nat
  | comparison => 0
  | additive => 1
  | multiplicative => 2
  | unary => 3
  | primary => 4

/-- The level of an expression without parentheses around it. -/
def Expr.level : Expr → Level
  | .binary op _ _ _ => opLevel op
  | .negate _ _ => .unary
  | .literal _ _ | .name _ _ | .call _ _ _ | .array _ _ => .primary

/-- Puts parentheses around tokens of one level where a tighter one is asked for. -/
def parenthesized (required level : Level) (tokens : List Token) : List Token :=
  if level.rank < required.rank then .mark .leftParen :: (tokens ++ [.mark .rightParen])
  else tokens

mutual

/-- The tokens of an expression. -/
def Expr.tokens : Expr → List Token
  | .literal value _ => [literalToken value]
  | .name word _ => [.identifier word]
  | .negate operand _ => .mark .minus :: parenthesized .unary operand.level operand.tokens
  | .binary op left right _ =>
      parenthesized (leftLevel op) left.level left.tokens ++
        .mark (opMark op) :: parenthesized (rightLevel op) right.level right.tokens
  | .call callee arguments _ =>
      .identifier callee :: .mark .leftParen ::
        (Expr.elementTokens arguments ++ [.mark .rightParen])
  | .array elements _ =>
      .mark .leftBracket :: (Expr.elementTokens elements ++ [.mark .rightBracket])

/-- The tokens of expressions with commas between them. -/
def Expr.elementTokens : List Expr → List Token
  | [] => []
  | [e] => e.tokens
  | e :: es => e.tokens ++ .mark .comma :: Expr.elementTokens es

end

/-- The tokens of one or more parameters and of the parenthesis that ends them. -/
def Parameter.listTokens : List Parameter → List Token
  | [] => [.mark .rightParen]
  | [p] => [.kind p.kind, .identifier p.name, .mark .rightParen]
  | p :: ps => .kind p.kind :: .identifier p.name :: .mark .comma :: Parameter.listTokens ps

/-- The tokens of a program with its wrappers. -/
def wrappedTokens (tokens : List Token) : List Token :=
  .mark .colon :: (tokens ++ [.mark .colon])

mutual

/-- The tokens of a statement.  A conditional cannot be written unless its first arm has a
guard. -/
def Statement.tokens : Statement → List Token
  | .declare kind name value _ => .kind kind :: .identifier name :: .mark .equals :: value.tokens
  | .function name parameters body _ =>
      .kind .fn :: .identifier name :: .mark .equals :: .mark .leftParen ::
        (Parameter.listTokens parameters ++ wrappedTokens (Statement.programTokens body))
  | .conditional (.mk (some guard) body _ :: later) _ =>
      .keyword .lada :: (guard.tokens ++ (wrappedTokens (Statement.programTokens body) ++
        Statement.armTokens later))
  | .conditional _ _ => []
  | .loop counter first last body _ =>
      .keyword .naduh :: (first.tokens ++ .keyword .haduh :: (last.tokens ++ .keyword .da ::
        .identifier counter :: wrappedTokens (Statement.programTokens body)))
  | .returns value _ => .mark .arrow :: value.tokens
  | .expression value _ => value.tokens

/-- The tokens of the later arms of a conditional. -/
def Statement.armTokens : List Arm → List Token
  | [] => []
  | .mk (some guard) body _ :: later =>
      .keyword .badlada :: (guard.tokens ++ (wrappedTokens (Statement.programTokens body) ++
        Statement.armTokens later))
  | .mk none body _ :: later =>
      .keyword .hynrei :: (wrappedTokens (Statement.programTokens body) ++
        Statement.armTokens later)

/-- The tokens of statements, one after the other. -/
def Statement.programTokens : List Statement → List Token
  | [] => []
  | s :: rest => s.tokens ++ Statement.programTokens rest

end

/-! ## Trees without lines -/

mutual

/-- An expression without its lines. -/
def Expr.unlined : Expr → Expr
  | .literal value _ => .literal value 0
  | .name word _ => .name word 0
  | .negate operand _ => .negate operand.unlined 0
  | .binary op left right _ => .binary op left.unlined right.unlined 0
  | .call callee arguments _ => .call callee (Expr.unlinedEach arguments) 0
  | .array elements _ => .array (Expr.unlinedEach elements) 0

/-- Expressions without their lines. -/
def Expr.unlinedEach : List Expr → List Expr
  | [] => []
  | e :: es => e.unlined :: Expr.unlinedEach es

end

mutual

/-- A statement without its lines. -/
def Statement.unlined : Statement → Statement
  | .declare kind name value _ => .declare kind name value.unlined 0
  | .function name parameters body _ => .function name parameters (Statement.unlinedEach body) 0
  | .conditional arms _ => .conditional (Statement.unlinedArms arms) 0
  | .loop counter first last body _ =>
      .loop counter first.unlined last.unlined (Statement.unlinedEach body) 0
  | .returns value _ => .returns value.unlined 0
  | .expression value _ => .expression value.unlined 0

/-- Arms without their lines. -/
def Statement.unlinedArms : List Arm → List Arm
  | [] => []
  | .mk guard body _ :: arms =>
      .mk (guard.map Expr.unlined) (Statement.unlinedEach body) 0 :: Statement.unlinedArms arms

/-- Statements without their lines. -/
def Statement.unlinedEach : List Statement → List Statement
  | [] => []
  | s :: rest => s.unlined :: Statement.unlinedEach rest

end

/-! ## What can be written -/

/-- A token is an identifier. -/
def Token.isIdentifier : Token → Bool
  | .identifier _ => true
  | _ => false

/-- A statement ends with an expression. -/
def Statement.endsOpen : Statement → Bool
  | .declare _ _ _ _ | .returns _ _ | .expression _ _ => true
  | .function _ _ _ _ | .conditional _ _ | .loop _ _ _ _ _ => false

/-- A statement would take the beginning of the next one for a part of itself. -/
def Statement.absorbs (s next : Statement) : Bool :=
  s.endsOpen && (next.tokens.head? = some (.mark .minus) ||
    (next.tokens.head? = some (.mark .leftParen) && s.tokens.getLast?.any Token.isIdentifier))

mutual

/-- A statement can be written: no function is declared by an expression, all arms of a
conditional have guards except possibly a last one that is not the first, and this holds of all
bodies. -/
def Statement.writable : Statement → Bool
  | .declare kind _ _ _ => kind ≠ .fn
  | .function _ _ body _ => Statement.programWritable body
  | .conditional (.mk (some _) body _ :: later) _ =>
      Statement.programWritable body && Statement.armsWritable later
  | .conditional _ _ => false
  | .loop _ _ _ body _ => Statement.programWritable body
  | .returns _ _ | .expression _ _ => true

/-- The later arms of a conditional can be written. -/
def Statement.armsWritable : List Arm → Bool
  | [] => true
  | .mk (some _) body _ :: later =>
      Statement.programWritable body && Statement.armsWritable later
  | .mk none body _ :: later => later.isEmpty && Statement.programWritable body

/-- Statements can be written next to each other. -/
def Statement.programWritable : List Statement → Bool
  | [] => true
  | s :: rest => s.writable && rest.head?.all (!s.absorbs ·) && Statement.programWritable rest

end

end ColonScript
