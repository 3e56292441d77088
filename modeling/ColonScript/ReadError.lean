import ColonScript.Token

/-!
# Errors of reading source text

Reading fails with a cause and the line it is reported on.
-/

namespace ColonScript

/-- The constructs that own a wrapped body, or the title of a body that is read on its own. -/
inductive Construct where
  | functionDeclaration
  | conditionalStatement
  | countingLoop
  | titled (title : String)
deriving DecidableEq, Repr

/-- The words of a loop header that stand after a bound. -/
inductive LoopWord where
  | haduh
  | da
deriving DecidableEq, Repr

/-- The reasons why a source text is rejected. -/
inductive ReadCause where
  /-- Text that starts no token. -/
  | unrecognized (text : String)
  /-- A token that cannot start an expression. -/
  | unexpected (found : Token)
  /-- A later arm of a conditional without a first one. -/
  | strayArm (found : Keyword)
  /-- A declaration without a name. -/
  | missingName (found : Token)
  /-- A declaration of `name` without its equals sign. -/
  | missingEquals (name : String) (found : Token)
  /-- A function without parenthesised parameters. -/
  | missingParameters (found : Token)
  /-- An array literal that neither continues nor ends. -/
  | missingBracket (found : Token)
  /-- The tokens end inside a construct. -/
  | endOfInput
  /-- A parenthesis is not closed. -/
  | unclosedParen
  /-- A body does not start with its wrapper. -/
  | missingWrapper (owner : Construct) (found : Option Token)
  /-- A body never ends. -/
  | unterminatedBlock
  /-- A parameter does not start with a kind. -/
  | parameterKind (found : Token)
  /-- A parameter has a kind but no name. -/
  | parameterName (kind : Kind) (found : Token)
  /-- Parameters stand together without a comma. -/
  | parameterSeparator (found : Token)
  /-- A loop header lacks one of its words. -/
  | loopWord (missing : LoopWord)
  /-- A loop header lacks its variable. -/
  | loopVariable (found : Option Token)
  /-- A loop word without a meaning. -/
  | unsupportedLoop (found : Keyword)
deriving DecidableEq

/-- A rejection of a source text. -/
structure ReadError where
  cause : ReadCause
  line : Nat
deriving DecidableEq

/-- The name of a construct in messages. -/
def Construct.title : Construct → String
  | functionDeclaration => "function declaration"
  | conditionalStatement => "conditional statement"
  | countingLoop => "naduh loop"
  | titled title => title

/-- What is missing in a loop header. -/
def LoopWord.complaint : LoopWord → String
  | haduh => "expected 'haduh' after the start value"
  | da => "expected 'da' after the end value"

/-- The end of a message that names what stands in the place of something. -/
def foundInstead (found : Token) : String :=
  ", found " ++ found.title

/-- The wording of a cause. -/
def ReadCause.message : ReadCause → String
  | unrecognized text => "Unexpected token: " ++ text
  | unexpected found => "Unexpected token: " ++ found.title
  | strayArm found =>
      "Unexpected token: " ++ found.title ++ " without a preceding 'lada' arm"
  | missingName found => "Unexpected token: Expected identifier" ++ foundInstead found
  | missingEquals name found =>
      "Unexpected token: Expected '=' after '" ++ name ++ "'" ++ foundInstead found
  | missingParameters found =>
      "Unexpected token: A function's parameters should be wrapped in parentheses" ++
        foundInstead found
  | missingBracket found =>
      "Unexpected token: Expected ',' or " ++ Mark.rightBracket.title ++ foundInstead found
  | endOfInput => "Unexpected end of input"
  | unclosedParen => "Parentheses should always be properly closed"
  | missingWrapper owner found =>
      "A " ++ owner.title ++ " requires an opening wrapper ':', found " ++
        (found.map Token.title).getD "end of input"
  | unterminatedBlock => "The block opened here is never closed with a matching ':'"
  | parameterKind found =>
      "Invalid parameter list: expected a parameter type" ++ foundInstead found
  | parameterName kind found =>
      "Invalid parameter list: expected a name after '" ++ kind.word ++ "'" ++
        foundInstead found
  | parameterSeparator found =>
      "Invalid parameter list: parameters must be separated by commas" ++ foundInstead found
  | loopWord missing => "Malformed naduh loop: " ++ missing.complaint
  | loopVariable found =>
      "Malformed naduh loop: expected a loop variable after 'da'" ++
        (found.map foundInstead).getD ""
  | unsupportedLoop found => "'" ++ found.word ++ "' is not a supported loop type"

/-- A message under the line it belongs to. -/
def onLine (line : Nat) (message : String) : String :=
  "Error on line " ++ toString line ++ ": " ++ message ++ "."

/-- The message of a rejection. -/
def ReadError.message (e : ReadError) : String :=
  onLine e.line e.cause.message

end ColonScript
