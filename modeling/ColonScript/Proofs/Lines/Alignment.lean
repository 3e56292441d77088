import ColonScript.ReadError
import ColonScript.RunError
import ColonScript.Syntax
import Mathlib.Data.List.Forall2

/-!
# The same but for lines

Two things are aligned if they differ in nothing but line numbers, and the line numbers in
corresponding places go together.  Which lines go together is left open as a relation `L`: with
`AnyLine`, being aligned means to be the same up to lines.
-/

namespace ColonScript

/-- All lines go together. -/
def AnyLine (_ _ : Nat) : Prop :=
  True

/-- Two lexemes with the same token. -/
structure Lexeme.Aligned (L : Nat → Nat → Prop) (a b : Lexeme) : Prop where
  token : a.token = b.token
  line : L a.line b.line

/-- Lexemes with the same tokens are the same up to lines. -/
theorem aligned_of_tokens_eq
    {as bs : List Lexeme} (h : as.map Lexeme.token = bs.map Lexeme.token) :
    List.Forall₂ (Lexeme.Aligned AnyLine) as bs := by
  rw [← List.forall₂_eq_eq_eq, List.forall₂_map_left_iff, List.forall₂_map_right_iff] at h
  exact h.imp fun _ _ htoken => ⟨htoken, trivial⟩

/-- A lexeme under another line. -/
def Lexeme.moved (φ : Nat → Nat) (lexeme : Lexeme) : Lexeme :=
  ⟨lexeme.token, φ lexeme.line⟩

/-- Lexemes whose lines go with others by a function are those under these lines. -/
theorem eq_map_moved_of_aligned
    {φ : Nat → Nat} {as bs : List Lexeme}
    (h : List.Forall₂ (Lexeme.Aligned fun k l => φ k = l) as bs) :
    bs = as.map (Lexeme.moved φ) := by
  induction h with
  | nil => rfl
  | @cons a b as bs hab _ ih =>
      obtain ⟨token, line⟩ := b
      obtain ⟨rfl, rfl⟩ := hab
      rw [List.map_cons, ← ih, Lexeme.moved]

/-- Two rejections for the same cause. -/
structure ReadError.Aligned (L : Nat → Nat → Prop) (e e' : ReadError) : Prop where
  cause : e.cause = e'.cause
  line : L e.line e'.line

/-- Two failures of runs for the same cause. -/
structure RunError.Aligned (L : Nat → Nat → Prop) (e e' : RunError) : Prop where
  cause : e.cause = e'.cause
  line : L e.line e'.line

/-- Two expressions of the same form. -/
inductive Expr.Aligned (L : Nat → Nat → Prop) : Expr → Expr → Prop
  | literal (constant : Literal) {k l : Nat} : L k l →
      Aligned L (.literal constant k) (.literal constant l)
  | name (name : String) {k l : Nat} : L k l → Aligned L (.name name k) (.name name l)
  | negate {a b : Expr} {k l : Nat} : Aligned L a b → L k l →
      Aligned L (.negate a k) (.negate b l)
  | binary (op : BinaryOp) {a b c d : Expr} {k l : Nat} : Aligned L a b → Aligned L c d → L k l →
      Aligned L (.binary op a c k) (.binary op b d l)
  | call (callee : String) {as bs : List Expr} {k l : Nat} : List.Forall₂ (Aligned L) as bs →
      L k l → Aligned L (.call callee as k) (.call callee bs l)
  | array {as bs : List Expr} {k l : Nat} : List.Forall₂ (Aligned L) as bs → L k l →
      Aligned L (.array as k) (.array bs l)

mutual

/-- Two statements of the same form. -/
inductive Statement.Aligned (L : Nat → Nat → Prop) : Statement → Statement → Prop
  | declare (kind : Kind) (name : String) {a b : Expr} {k l : Nat} : a.Aligned L b → L k l →
      Statement.Aligned L (.declare kind name a k) (.declare kind name b l)
  | function (name : String) (parameters : List Parameter) {as bs : List Statement} {k l : Nat} :
      List.Forall₂ (Statement.Aligned L) as bs → L k l →
      Statement.Aligned L (.function name parameters as k) (.function name parameters bs l)
  | conditional {as bs : List Arm} {k l : Nat} : List.Forall₂ (Arm.Aligned L) as bs → L k l →
      Statement.Aligned L (.conditional as k) (.conditional bs l)
  | loop (counter : String) {a b c d : Expr} {as bs : List Statement} {k l : Nat} :
      a.Aligned L b → c.Aligned L d → List.Forall₂ (Statement.Aligned L) as bs → L k l →
      Statement.Aligned L (.loop counter a c as k) (.loop counter b d bs l)
  | returns {a b : Expr} {k l : Nat} : a.Aligned L b → L k l →
      Statement.Aligned L (.returns a k) (.returns b l)
  | expression {a b : Expr} {k l : Nat} : a.Aligned L b → L k l →
      Statement.Aligned L (.expression a k) (.expression b l)

/-- Two arms of the same form. -/
inductive Arm.Aligned (L : Nat → Nat → Prop) : Arm → Arm → Prop
  | mk {g h : Option Expr} {as bs : List Statement} {k l : Nat} : Option.Rel (Expr.Aligned L) g h →
      List.Forall₂ (Statement.Aligned L) as bs → L k l → Arm.Aligned L (.mk g as k) (.mk h bs l)

end

variable {L : Nat → Nat → Prop}

theorem Expr.Aligned.line
    {a b : Expr} (h : a.Aligned L b) :
    L a.line b.line := by
  cases h with
  | literal _ hline | name _ hline | negate _ hline | binary _ _ _ hline | call _ _ hline
  | array _ hline => exact hline

/-- Two outcomes that are both failures or both not, and relate in what they carry. -/
inductive OutcomesRelate {ε α β : Type} (E : ε → ε → Prop) (R : α → β → Prop) :
    Except ε α → Except ε β → Prop
  | ok {a : α} {b : β} : R a b → OutcomesRelate E R (.ok a) (.ok b)
  | error {e e' : ε} : E e e' → OutcomesRelate E R (.error e) (.error e')

namespace OutcomesRelate

variable {ε α β γ δ : Type} {E : ε → ε → Prop} {R : α → β → Prop} {S : γ → δ → Prop}

theorem bind
    {x : Except ε α} {y : Except ε β} {f : α → Except ε γ} {g : β → Except ε δ}
    (h : OutcomesRelate E R x y) (hf : ∀ a b, R a b → OutcomesRelate E S (f a) (g b)) :
    OutcomesRelate E S (x >>= f) (y >>= g) := by
  cases h with
  | ok hR => exact hf _ _ hR
  | error hE => exact .error hE

/-- What both outcomes carry is replaced. -/
theorem map
    {x : Except ε α} {y : Except ε β} {f : α → γ} {g : β → δ} (h : OutcomesRelate E R x y)
    (hf : ∀ a b, R a b → S (f a) (g b)) :
    OutcomesRelate E S (x.map f) (y.map g) := by
  cases h with
  | ok hR => exact .ok (hf _ _ hR)
  | error hE => exact .error hE

end OutcomesRelate
end ColonScript
