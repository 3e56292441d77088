import ColonScript.Syntax

/-!
# Equality of syntax trees

Two trees are the same when they have the same shape, names, constants and lines.  Numbers in
them are compared as numbers.
-/

namespace ColonScript

/-- Equality of constants. -/
def Literal.same : Literal → Literal → Bool
  | number a, number b => a == b
  | text a, text b => a == b
  | boolean a, boolean b => a == b
  | _, _ => false

mutual

/-- Equality of expressions. -/
def Expr.same : Expr → Expr → Bool
  | .literal a k, .literal b l => a.same b && k == l
  | .name a k, .name b l => a == b && k == l
  | .negate a k, .negate b l => a.same b && k == l
  | .binary f a b k, .binary g c d l => f == g && a.same c && b.same d && k == l
  | .call f as k, .call g bs l => f == g && Expr.sameList as bs && k == l
  | .array as k, .array bs l => Expr.sameList as bs && k == l
  | _, _ => false

/-- Equality of lists of expressions. -/
def Expr.sameList : List Expr → List Expr → Bool
  | [], [] => true
  | a :: as, b :: bs => a.same b && Expr.sameList as bs
  | _, _ => false

end

/-- Equality of optional expressions. -/
def Expr.sameOption : Option Expr → Option Expr → Bool
  | none, none => true
  | some a, some b => a.same b
  | _, _ => false

mutual

/-- Equality of statements. -/
def Statement.same : Statement → Statement → Bool
  | .declare i a x k, .declare j b y l => i == j && a == b && x.same y && k == l
  | .function a ps x k, .function b qs y l =>
      a == b && ps == qs && Statement.sameList x y && k == l
  | .conditional as k, .conditional bs l => Statement.sameArms as bs && k == l
  | .loop a p q x k, .loop b r s y l =>
      a == b && p.same r && q.same s && Statement.sameList x y && k == l
  | .returns x k, .returns y l => x.same y && k == l
  | .expression x k, .expression y l => x.same y && k == l
  | _, _ => false

/-- Equality of lists of statements. -/
def Statement.sameList : List Statement → List Statement → Bool
  | [], [] => true
  | a :: as, b :: bs => a.same b && Statement.sameList as bs
  | _, _ => false

/-- Equality of arms. -/
def Statement.sameArm : Arm → Arm → Bool
  | .mk g x k, .mk h y l => Expr.sameOption g h && Statement.sameList x y && k == l

/-- Equality of chains of arms. -/
def Statement.sameArms : List Arm → List Arm → Bool
  | [], [] => true
  | a :: as, b :: bs => Statement.sameArm a b && Statement.sameArms as bs
  | _, _ => false

end

end ColonScript
