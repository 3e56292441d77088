import Mathlib
import ColonScript.Proofs.Reading.Statements

/-!
# The grammar

The grammar says which lexemes a program can be written with, and nothing about how they are
read: no rule looks at what comes after.  A rule concatenates the lexemes of its parts, so a
derivation accounts for every lexeme once and in order.  Parentheses around an expression are the
only ones without a trace in the tree.  A node has the line of its own token: of the operator if
there is one, of the token it starts with otherwise.

Whatever is read as a program can be derived as that program (`program_derivable`).
-/

namespace ColonScript
namespace Grammar

open Reader

/-- The levels of expressions, loosest first. -/
inductive Level where
  | comparison
  | additive
  | multiplicative
  | unary
  | primary
deriving DecidableEq, Repr

/-- The next tighter level.  There is none beyond that of primary expressions. -/
def Level.next : Level → Level
  | comparison => additive
  | additive => multiplicative
  | multiplicative => unary
  | unary | primary => primary

/-- The mark of an operator. -/
def opMark : BinaryOp → Mark
  | .add => .plus
  | .sub => .minus
  | .mul => .star
  | .div => .slash
  | .mod => .percent
  | .equal => .equalEqual

/-- The level of an operation. -/
def opLevel : BinaryOp → Level
  | .equal => .comparison
  | .add | .sub => .additive
  | .mul | .div | .mod => .multiplicative

/-- The level of a left operand.  Operations of one level nest to the left, but comparisons do not
nest. -/
def leftLevel : BinaryOp → Level
  | .equal | .add | .sub => .additive
  | .mul | .div | .mod => .multiplicative

/-- The level of a right operand. -/
def rightLevel : BinaryOp → Level
  | .equal => .additive
  | .add | .sub => .multiplicative
  | .mul | .div | .mod => .unary

/-- The token of a constant. -/
def literalToken : Literal → Token
  | .number value => .number value
  | .text content => .text content
  | .boolean value => .boolean value

/-- What can be derived from lexemes on the way to a statement: an expression of a level, or one or
more expressions with commas between them. -/
inductive Part where
  | expression (level : Level) (e : Expr)
  | elements (es : List Expr)

/-- The rules of expressions. -/
inductive Derives : Part → List Lexeme → Prop where
  /-- `additive == additive`, `additive + multiplicative`, `multiplicative * unary` and so on. -/
  | binary (op : BinaryOp) {l r : Expr} {line : Nat} {a b : List Lexeme} :
      Derives (.expression (leftLevel op) l) a → Derives (.expression (rightLevel op) r) b →
      Derives (.expression (opLevel op) (.binary op l r line))
        (a ++ ⟨.mark (opMark op), line⟩ :: b)
  /-- A level contains the next tighter one. -/
  | tighter {level : Level} {e : Expr} {a : List Lexeme} :
      Derives (.expression level.next e) a → Derives (.expression level e) a
  /-- `- unary`. -/
  | negate {e : Expr} {line : Nat} {a : List Lexeme} :
      Derives (.expression .unary e) a →
      Derives (.expression .unary (.negate e line)) (⟨.mark .minus, line⟩ :: a)
  | literal (value : Literal) {line : Nat} :
      Derives (.expression .primary (.literal value line)) [⟨literalToken value, line⟩]
  | name {name : String} {line : Nat} :
      Derives (.expression .primary (.name name line)) [⟨.identifier name, line⟩]
  /-- `( comparison )`. -/
  | group {e : Expr} {opened closed : Nat} {a : List Lexeme} :
      Derives (.expression .comparison e) a →
      Derives (.expression .primary e)
        (⟨.mark .leftParen, opened⟩ :: (a ++ [⟨.mark .rightParen, closed⟩]))
  /-- `[ ]`. -/
  | emptyArray {line closed : Nat} :
      Derives (.expression .primary (.array [] line))
        [⟨.mark .leftBracket, line⟩, ⟨.mark .rightBracket, closed⟩]
  /-- `[ elements ]`. -/
  | array {es : List Expr} {line closed : Nat} {a : List Lexeme} :
      Derives (.elements es) a →
      Derives (.expression .primary (.array es line))
        (⟨.mark .leftBracket, line⟩ :: (a ++ [⟨.mark .rightBracket, closed⟩]))
  /-- `name ( )`. -/
  | emptyCall {name : String} {line opened closed : Nat} :
      Derives (.expression .primary (.call name [] line))
        [⟨.identifier name, line⟩, ⟨.mark .leftParen, opened⟩, ⟨.mark .rightParen, closed⟩]
  /-- `name ( elements )`. -/
  | call {name : String} {es : List Expr} {line opened closed : Nat} {a : List Lexeme} :
      Derives (.elements es) a →
      Derives (.expression .primary (.call name es line))
        (⟨.identifier name, line⟩ :: ⟨.mark .leftParen, opened⟩ ::
          (a ++ [⟨.mark .rightParen, closed⟩]))
  | element {e : Expr} {a : List Lexeme} :
      Derives (.expression .comparison e) a → Derives (.elements [e]) a
  /-- `comparison , elements`. -/
  | elements {e : Expr} {es : List Expr} {line : Nat} {a b : List Lexeme} :
      Derives (.expression .comparison e) a → Derives (.elements es) b →
      Derives (.elements (e :: es)) (a ++ ⟨.mark .comma, line⟩ :: b)

/-- The rules of statements. -/
inductive Composes : Clause → List Lexeme → Prop where
  /-- `kind name = comparison`, where the kind is not `fn`. -/
  | declare {kind : Kind} {name : String} {e : Expr} {line l₁ l₂ : Nat} {a : List Lexeme} :
      kind ≠ .fn → Derives (.expression .comparison e) a →
      Composes (.statement (.declare kind name e line))
        (⟨.kind kind, line⟩ :: ⟨.identifier name, l₁⟩ :: ⟨.mark .equals, l₂⟩ :: a)
  /-- `fn name = signature body`. -/
  | function {name : String} {ps : List Parameter} {ss : List Statement} {line l₁ l₂ : Nat}
      {a b : List Lexeme} :
      Signature ps a → Composes (.body ss) b →
      Composes (.statement (.function name ps ss line))
        (⟨.kind .fn, line⟩ :: ⟨.identifier name, l₁⟩ :: ⟨.mark .equals, l₂⟩ :: (a ++ b))
  /-- `lada comparison body arms`. -/
  | conditional {guard : Expr} {ss : List Statement} {as : List Arm} {line : Nat}
      {a b c : List Lexeme} :
      Derives (.expression .comparison guard) a → Composes (.body ss) b → Composes (.arms as) c →
      Composes (.statement (.conditional (.mk (some guard) ss line :: as) line))
        (⟨.keyword .lada, line⟩ :: (a ++ (b ++ c)))
  /-- `naduh comparison haduh comparison da name body`. -/
  | loop {counter : String} {first last : Expr} {ss : List Statement} {line l₁ l₂ l₃ : Nat}
      {a b c : List Lexeme} :
      Derives (.expression .comparison first) a → Derives (.expression .comparison last) b →
      Composes (.body ss) c →
      Composes (.statement (.loop counter first last ss line))
        (⟨.keyword .naduh, line⟩ :: (a ++ ⟨.keyword .haduh, l₁⟩ ::
          (b ++ ⟨.keyword .da, l₂⟩ :: ⟨.identifier counter, l₃⟩ :: c)))
  /-- `=> comparison`. -/
  | returns {e : Expr} {line : Nat} {a : List Lexeme} :
      Derives (.expression .comparison e) a →
      Composes (.statement (.returns e line)) (⟨.mark .arrow, line⟩ :: a)
  | expression {e : Expr} {token : Token} {line : Nat} {a : List Lexeme} :
      Derives (.expression .comparison e) (⟨token, line⟩ :: a) →
      Composes (.statement (.expression e line)) (⟨token, line⟩ :: a)
  | noArms : Composes (.arms []) []
  /-- `badlada comparison body arms`. -/
  | guarded {guard : Expr} {ss : List Statement} {as : List Arm} {line : Nat}
      {a b c : List Lexeme} :
      Derives (.expression .comparison guard) a → Composes (.body ss) b → Composes (.arms as) c →
      Composes (.arms (.mk (some guard) ss line :: as))
        (⟨.keyword .badlada, line⟩ :: (a ++ (b ++ c)))
  /-- `hynrei body`, after which no arm follows. -/
  | final {ss : List Statement} {line : Nat} {a : List Lexeme} :
      Composes (.body ss) a →
      Composes (.arms [.mk none ss line]) (⟨.keyword .hynrei, line⟩ :: a)
  /-- `: program :`. -/
  | body {ss : List Statement} {opened closed : Nat} {a : List Lexeme} :
      Composes (.program ss) a →
      Composes (.body ss) (⟨.mark .colon, opened⟩ :: (a ++ [⟨.mark .colon, closed⟩]))
  | noStatements : Composes (.program []) []
  /-- `statement program`. -/
  | statements {s : Statement} {ss : List Statement} {a b : List Lexeme} :
      Composes (.statement s) a → Composes (.program ss) b → Composes (.program (s :: ss)) (a ++ b)

/-! ## What is read can be derived -/

theorem opMark_of_sumOp?
    {token : Token} {op : BinaryOp} (h : sumOp? token = some op) :
    token = .mark (opMark op) ∧ opLevel op = .additive ∧ leftLevel op = .additive ∧
      rightLevel op = .multiplicative := by
  unfold sumOp? at h
  split at h
  · cases h
    exact ⟨rfl, rfl, rfl, rfl⟩
  · cases h
    exact ⟨rfl, rfl, rfl, rfl⟩
  · cases h

theorem opMark_of_productOp?
    {token : Token} {op : BinaryOp} (h : productOp? token = some op) :
    token = .mark (opMark op) ∧ opLevel op = .multiplicative ∧ leftLevel op = .multiplicative ∧
      rightLevel op = .unary := by
  unfold productOp? at h
  split at h
  · cases h
    exact ⟨rfl, rfl, rfl, rfl⟩
  · cases h
    exact ⟨rfl, rfl, rfl, rfl⟩
  · cases h
    exact ⟨rfl, rfl, rfl, rfl⟩
  · cases h

variable {l r e : Expr} {token : Token} {op : BinaryOp} {line : Nat} {a b : List Lexeme}

theorem Derives.sum
    (hop : sumOp? token = some op) (hl : Derives (.expression .additive l) a)
    (hr : Derives (.expression .multiplicative r) b) :
    Derives (.expression .additive (.binary op l r line)) (a ++ ⟨token, line⟩ :: b) := by
  obtain ⟨rfl, hlevel, hleft, hright⟩ := opMark_of_sumOp? hop
  rw [← hleft] at hl
  rw [← hright] at hr
  rw [← hlevel]
  exact .binary op hl hr

theorem Derives.product
    (hop : productOp? token = some op) (hl : Derives (.expression .multiplicative l) a)
    (hr : Derives (.expression .unary r) b) :
    Derives (.expression .multiplicative (.binary op l r line)) (a ++ ⟨token, line⟩ :: b) := by
  obtain ⟨rfl, hlevel, hleft, hright⟩ := opMark_of_productOp? hop
  rw [← hleft] at hl
  rw [← hright] at hr
  rw [← hlevel]
  exact .binary op hl hr

/-- The lexemes of a phrase can be derived.  What follows an operand continues whatever the operand
was derived from, and the lexemes of a list end with its closing mark. -/
def DerivedPhrase (taken : List Lexeme) : Phrase → Prop
  | .comparison e => Derives (.expression .comparison e) taken
  | .sum e => Derives (.expression .additive e) taken
  | .sumTail left e => ∀ before, Derives (.expression .additive left) before →
      Derives (.expression .additive e) (before ++ taken)
  | .product e => Derives (.expression .multiplicative e) taken
  | .productTail left e => ∀ before, Derives (.expression .multiplicative left) before →
      Derives (.expression .multiplicative e) (before ++ taken)
  | .factor e => Derives (.expression .unary e) taken
  | .primary e => Derives (.expression .primary e) taken
  | .items enclosure es => ∃ inside line, taken = inside ++ [⟨.mark enclosure.closing, line⟩] ∧
      (es = [] ∧ inside = [] ∨ Derives (.elements es) inside)
  | .itemsTail enclosure es => ∃ inside line,
      taken = inside ++ [⟨.mark enclosure.closing, line⟩] ∧ Derives (.elements es) inside

/-- Whatever the readers of expressions take can be derived. -/
theorem derived_of_reads
    {phrase : Phrase} {taken rest : List Lexeme} (h : Reads phrase taken rest) :
    DerivedPhrase taken phrase := by
  induction h with
  | compared _ _ ihl ihr => exact .binary .equal ihl ihr
  | uncompared _ _ ih | plain _ ih => exact .tighter ih
  | sum _ _ ihl ihr | product _ _ ihl ihr => exact ihr _ (.tighter ihl)
  | sumEnd _ | productEnd _ =>
      intro before hbefore
      rw [List.append_nil]
      exact hbefore
  | sumStep hop _ _ ihl ihr =>
      intro before hbefore
      have hstep := ihr _ (Derives.sum hop hbefore ihl)
      rw [List.append_assoc] at hstep
      exact hstep
  | productStep hop _ _ ihl ihr =>
      intro before hbefore
      have hstep := ihr _ (Derives.product hop hbefore ihl)
      rw [List.append_assoc] at hstep
      exact hstep
  | negated _ ih => exact .negate ih
  | @number value => exact .literal (.number value)
  | @text content => exact .literal (.text content)
  | @boolean value => exact .literal (.boolean value)
  | grouped _ ih => exact .group ih
  | array _ ih =>
      obtain ⟨inside, closed, rfl, ⟨rfl, rfl⟩ | hes⟩ := ih
      · exact .emptyArray
      · exact .array hes
  | call _ ih =>
      obtain ⟨inside, closed, rfl, ⟨rfl, rfl⟩ | hes⟩ := ih
      · exact .emptyCall
      · exact .call hes
  | name _ => exact .name
  | noItems => exact ⟨[], _, rfl, .inl ⟨rfl, rfl⟩⟩
  | someItems _ ih =>
      obtain ⟨inside, closed, htaken, hes⟩ := ih
      exact ⟨inside, closed, htaken, .inr hes⟩
  | lastItem _ ih => exact ⟨_, _, rfl, .element ih⟩
  | moreItems _ _ ihl ihr =>
      obtain ⟨inside, closed, rfl, hes⟩ := ihr
      exact ⟨_, closed, by rw [List.append_assoc, List.cons_append], .elements ihl hes⟩

/-- Whatever the readers of statements take can be composed. -/
theorem composed_of_forms
    {clause : Clause} {taken rest : List Lexeme} (h : Forms clause taken rest) :
    Composes clause taken := by
  induction h with
  | function hsig _ ih => exact .function hsig ih
  | declare hkind hvalue => exact .declare hkind (derived_of_reads hvalue)
  | conditional hguard _ _ ihb iha => exact .conditional (derived_of_reads hguard) ihb iha
  | loop hfirst hlast _ ih =>
      exact .loop (derived_of_reads hfirst) (derived_of_reads hlast) ih
  | returns hvalue => exact .returns (derived_of_reads hvalue)
  | expression hvalue => exact .expression (derived_of_reads hvalue)
  | noArms _ _ => exact .noArms
  | guarded hguard _ _ ihb iha => exact .guarded (derived_of_reads hguard) ihb iha
  | final _ ih => exact .final ih
  | wrapped _ ih => exact .body ih
  | done => exact .noStatements
  | cons _ _ ihs ihp => exact .statements ihs ihp

/-- Only programs of the grammar are read, and no lexeme is lost: lexemes that are read as a program
can be derived as this program, all of them and in their order. -/
theorem program_derivable
    {lexemes : List Lexeme} {ss : List Statement} (h : Reader.program lexemes = .ok ss) :
    Composes (.program ss) lexemes :=
  composed_of_forms (statements_take.2.2.2 lexemes ss h)

/-- A function with a function as its parameter and a conditional in its body. -/
theorem nested_program_derivable :
    let lexemes : List Lexeme :=
      [⟨.kind .fn, 1⟩, ⟨.identifier "f", 1⟩, ⟨.mark .equals, 1⟩, ⟨.mark .leftParen, 1⟩,
        ⟨.kind .fn, 1⟩, ⟨.identifier "g", 1⟩, ⟨.mark .rightParen, 1⟩, ⟨.mark .colon, 1⟩,
        ⟨.keyword .lada, 2⟩, ⟨.mark .leftParen, 2⟩, ⟨.identifier "g", 2⟩, ⟨.mark .leftParen, 2⟩,
        ⟨.mark .rightParen, 2⟩, ⟨.mark .rightParen, 3⟩, ⟨.mark .equalEqual, 3⟩,
        ⟨.boolean true, 3⟩, ⟨.mark .colon, 3⟩, ⟨.mark .arrow, 4⟩, ⟨.mark .minus, 4⟩,
        ⟨.identifier "g", 4⟩, ⟨.mark .colon, 5⟩, ⟨.mark .colon, 6⟩]
    let ss : List Statement :=
      [.function "f" [⟨.fn, "g"⟩]
        [.conditional [.mk
          (some (.binary .equal (.call "g" [] 2) (.literal (.boolean true) 3) 3))
          [.returns (.negate (.name "g" 4) 4) 4] 2] 2] 1]
    Reader.program lexemes = .ok ss ∧ Composes (.program ss) lexemes := by
  intro lexemes ss
  have h : Reader.program lexemes = .ok ss := by cbv
  exact ⟨h, program_derivable h⟩

end Grammar
end ColonScript
