import ColonScript.Kind

/-!
# Syntax trees

Expressions and statements.  Every node carries the line it belongs to, which errors report.
-/

namespace ColonScript

/-- The constants of source text. -/
inductive Literal where
  | number (value : Float)
  | text (content : String)
  | boolean (value : Bool)
deriving DecidableEq

/-- The operators with two operands. -/
inductive BinaryOp where
  | add
  | sub
  | mul
  | div
  | mod
  | equal
deriving DecidableEq, Repr

/-- The sign of an operator. -/
def BinaryOp.sign : BinaryOp → String
  | add => "+"
  | sub => "-"
  | mul => "*"
  | div => "/"
  | mod => "%"
  | equal => "=="

/-- Expressions. -/
inductive Expr where
  | literal (value : Literal) (line : Nat)
  | name (name : String) (line : Nat)
  | negate (operand : Expr) (line : Nat)
  | binary (op : BinaryOp) (left right : Expr) (line : Nat)
  | call (callee : String) (arguments : List Expr) (line : Nat)
  | array (elements : List Expr) (line : Nat)

/-- A parameter of a function. -/
structure Parameter where
  kind : Kind
  name : String
deriving DecidableEq

mutual

/-- Statements. -/
inductive Statement where
  /-- `kind name = value` for kinds other than `fn`. -/
  | declare (kind : Kind) (name : String) (value : Expr) (line : Nat)
  /-- `fn name = (parameters) : body :`. -/
  | function (name : String) (parameters : List Parameter) (body : List Statement) (line : Nat)
  /-- A chain of arms of which at most one runs. -/
  | conditional (arms : List Arm) (line : Nat)
  /-- `naduh first haduh last da counter : body :`. -/
  | loop (counter : String) (first last : Expr) (body : List Statement) (line : Nat)
  /-- `=> value`. -/
  | returns (value : Expr) (line : Nat)
  /-- An expression on its own. -/
  | expression (value : Expr) (line : Nat)

/-- An arm of a conditional.  The final arm may have no guard. -/
inductive Arm where
  | mk (guard : Option Expr) (body : List Statement) (line : Nat)

end

/-- The line of an expression. -/
def Expr.line : Expr → Nat
  | literal _ line | name _ line | negate _ line | binary _ _ _ line | call _ _ line |
    array _ line => line

end ColonScript
