import ColonScript.Decimal.Layout
import ColonScript.Kind
import ColonScript.Text.Quoted

/-!
# Tokens

A token is a literal, an identifier, a word of the language or a mark.  A lexeme is a token
with the line on which it ends.
-/

namespace ColonScript

/-- The words of the language other than kinds and truth values. -/
inductive Keyword where
  | lada
  | badlada
  | hynrei
  | naduh
  | haduh
  | da
  | whileLoop
deriving DecidableEq, Repr

/-- The punctuation and operator signs. -/
inductive Mark where
  | arrow
  | equalEqual
  | equals
  | plus
  | minus
  | star
  | slash
  | percent
  | colon
  | leftParen
  | rightParen
  | leftBracket
  | rightBracket
  | comma
deriving DecidableEq, Repr

/-- The units of source text that carry meaning. -/
inductive Token where
  | number (value : Float)
  | text (content : String)
  | boolean (value : Bool)
  | kind (kind : Kind)
  | keyword (keyword : Keyword)
  | identifier (name : String)
  | mark (mark : Mark)
deriving DecidableEq

/-- A token and the line of the source on which it ends. -/
structure Lexeme where
  token : Token
  line : Nat
deriving DecidableEq

/-- The spelling of a keyword. -/
def Keyword.word : Keyword → String
  | lada => "lada"
  | badlada => "badlada"
  | hynrei => "hynrei"
  | naduh => "naduh"
  | haduh => "haduh"
  | da => "da"
  | whileLoop => "while"

/-- The name of a keyword in messages. -/
def Keyword.title : Keyword → String
  | lada => "Lada"
  | badlada => "Badlada"
  | hynrei => "Hynrei"
  | naduh => "Naduh"
  | haduh => "Haduh"
  | da => "Da"
  | whileLoop => "While"

/-- The name of a kind's word in messages. -/
def Kind.title : Kind → String
  | fn => "Fn"
  | num => "Num"
  | str => "Str"
  | arr => "Arr"
  | bool => "Bool"

/-- The spelling of a mark. -/
def Mark.sign : Mark → String
  | arrow => "=>"
  | equalEqual => "=="
  | equals => "="
  | plus => "+"
  | minus => "-"
  | star => "*"
  | slash => "/"
  | percent => "%"
  | colon => ":"
  | leftParen => "("
  | rightParen => ")"
  | leftBracket => "["
  | rightBracket => "]"
  | comma => ","

/-- The name of a mark in messages. -/
def Mark.title : Mark → String
  | arrow => "Arrow"
  | equalEqual => "EqualEqual"
  | equals => "Equals"
  | plus => "Plus"
  | minus => "Minus"
  | star => "Star"
  | slash => "Slash"
  | percent => "Percent"
  | colon => "Colon"
  | leftParen => "LParen"
  | rightParen => "RParen"
  | leftBracket => "LBracket"
  | rightBracket => "RBracket"
  | comma => "Comma"

/-- The word of a truth value. -/
def boolWord (b : Bool) : String :=
  if b then "true" else "false"

/-- How messages show a token: its name, with the content of literals and identifiers. -/
def Token.title : Token → String
  | number value => "Number(" ++ Decimal.Layout.literal.text value ++ ")"
  | text content => "Text(" ++ Text.quoted content ++ ")"
  | boolean value => "Boolean(" ++ boolWord value ++ ")"
  | kind k => k.title
  | keyword w => w.title
  | identifier name => "Identifier(" ++ Text.quoted name ++ ")"
  | mark m => m.title

end ColonScript
