import ColonScript.Syntax.Expression

/-!
# What the expression readers accept

`Reads phrase taken rest` says by rules which lexemes an expression reader takes off the front
of `taken ++ rest`.  A rule looks at `rest` only where a reader looks ahead, and then only at
its first token, so what comes after can be exchanged for anything that ends a phrase alike
(`Reads.endsAlike`).
-/

namespace ColonScript
namespace Reader

/-- The token that comes next. -/
def next? (lexemes : List Lexeme) : Option Token :=
  lexemes.head?.map Lexeme.token

@[simp]
theorem next?_nil : next? [] = none :=
  rfl

@[simp]
theorem next?_cons
    (lexeme : Lexeme) (rest : List Lexeme) :
    next? (lexeme :: rest) = some lexeme.token :=
  rfl

theorem next?_ne_of_forall_cons_ne
    {token : Token} {lexemes : List Lexeme}
    (h : ∀ line rest, lexemes = ⟨token, line⟩ :: rest → False) :
    next? lexemes ≠ some token := by
  cases lexemes with
  | nil => simp
  | cons lexeme rest =>
      intro hnext
      rw [next?_cons, Option.some.injEq] at hnext
      subst hnext
      exact h lexeme.line rest rfl

/-- The tokens that continue something which could also end before them. -/
def extending : List Token :=
  [.mark .equalEqual, .mark .plus, .mark .minus, .mark .star, .mark .slash, .mark .percent,
    .mark .leftParen, .keyword .badlada, .keyword .hynrei]

/-- Whatever ends before `rest` also ends before `other`. -/
def EndsAlike (rest other : List Lexeme) : Prop :=
  ∀ token ∈ extending, next? other = some token → next? rest = some token

namespace EndsAlike

variable {rest other : List Lexeme}

theorem append
    (h : EndsAlike rest other) (taken : List Lexeme) :
    EndsAlike (taken ++ rest) (taken ++ other) := by
  cases taken with
  | nil => exact h
  | cons lexeme taken =>
      intro token _ hnext
      exact hnext

/-- Lists that start with the same lexeme are alike. -/
theorem cons
    (lexeme : Lexeme) :
    EndsAlike (lexeme :: rest) (lexeme :: other) := by
  intro token _ hnext
  exact hnext

/-- Everything ends before a list that starts with no extending token. -/
theorem of_next?
    (h : ∀ token ∈ extending, next? other ≠ some token) :
    EndsAlike rest other := by
  intro token hmem hnext
  exact absurd hnext (h token hmem)

theorem nil : EndsAlike rest [] := by
  apply of_next?
  simp

/-- A wrapper ends everything. -/
theorem colon
    (line : Nat) :
    EndsAlike rest (⟨.mark .colon, line⟩ :: other) := by
  apply of_next?
  simp [extending]

theorem next?_ne
    (h : EndsAlike rest other) {token : Token} (hmem : token ∈ extending)
    (hrest : next? rest ≠ some token) :
    next? other ≠ some token := by
  intro hother
  exact hrest (h token hmem hother)

end EndsAlike

/-- What an expression reader is after, together with what it gives.  A tail also has the
operand before it. -/
inductive Phrase where
  | comparison (e : Expr)
  | sum (e : Expr)
  | sumTail (left e : Expr)
  | product (e : Expr)
  | productTail (left e : Expr)
  | factor (e : Expr)
  | primary (e : Expr)
  | items (enclosure : Enclosure) (es : List Expr)
  | itemsTail (enclosure : Enclosure) (es : List Expr)

/-- The rules of expressions: `taken` is read as the phrase when `rest` comes after it. -/
inductive Reads : Phrase → (taken rest : List Lexeme) → Prop where
  | compared {l r : Expr} {a b rest : List Lexeme} {line : Nat} :
      Reads (.sum l) a (⟨.mark .equalEqual, line⟩ :: (b ++ rest)) → Reads (.sum r) b rest →
      Reads (.comparison (.binary .equal l r line)) (a ++ ⟨.mark .equalEqual, line⟩ :: b) rest
  | uncompared {e : Expr} {a rest : List Lexeme} :
      Reads (.sum e) a rest → next? rest ≠ some (.mark .equalEqual) →
      Reads (.comparison e) a rest
  | sum {l e : Expr} {a b rest : List Lexeme} :
      Reads (.product l) a (b ++ rest) → Reads (.sumTail l e) b rest →
      Reads (.sum e) (a ++ b) rest
  | sumEnd {l : Expr} {rest : List Lexeme} :
      (next? rest).bind sumOp? = none → Reads (.sumTail l l) [] rest
  | sumStep {token : Token} {op : BinaryOp} {line : Nat} {l r e : Expr}
      {a b rest : List Lexeme} :
      sumOp? token = some op → Reads (.product r) a (b ++ rest) →
      Reads (.sumTail (.binary op l r line) e) b rest →
      Reads (.sumTail l e) (⟨token, line⟩ :: (a ++ b)) rest
  | product {l e : Expr} {a b rest : List Lexeme} :
      Reads (.factor l) a (b ++ rest) → Reads (.productTail l e) b rest →
      Reads (.product e) (a ++ b) rest
  | productEnd {l : Expr} {rest : List Lexeme} :
      (next? rest).bind productOp? = none → Reads (.productTail l l) [] rest
  | productStep {token : Token} {op : BinaryOp} {line : Nat} {l r e : Expr}
      {a b rest : List Lexeme} :
      productOp? token = some op → Reads (.factor r) a (b ++ rest) →
      Reads (.productTail (.binary op l r line) e) b rest →
      Reads (.productTail l e) (⟨token, line⟩ :: (a ++ b)) rest
  | negated {e : Expr} {line : Nat} {a rest : List Lexeme} :
      Reads (.factor e) a rest →
      Reads (.factor (.negate e line)) (⟨.mark .minus, line⟩ :: a) rest
  | plain {e : Expr} {a rest : List Lexeme} :
      Reads (.primary e) a rest → Reads (.factor e) a rest
  | number {value : Float} {line : Nat} {rest : List Lexeme} :
      Reads (.primary (.literal (.number value) line)) [⟨.number value, line⟩] rest
  | text {content : String} {line : Nat} {rest : List Lexeme} :
      Reads (.primary (.literal (.text content) line)) [⟨.text content, line⟩] rest
  | boolean {value : Bool} {line : Nat} {rest : List Lexeme} :
      Reads (.primary (.literal (.boolean value) line)) [⟨.boolean value, line⟩] rest
  | grouped {e : Expr} {line closed : Nat} {a rest : List Lexeme} :
      Reads (.comparison e) a (⟨.mark .rightParen, closed⟩ :: rest) →
      Reads (.primary e) (⟨.mark .leftParen, line⟩ :: (a ++ [⟨.mark .rightParen, closed⟩])) rest
  | array {es : List Expr} {line : Nat} {a rest : List Lexeme} :
      Reads (.items .elements es) a rest →
      Reads (.primary (.array es line)) (⟨.mark .leftBracket, line⟩ :: a) rest
  | call {name : String} {es : List Expr} {line opened : Nat} {a rest : List Lexeme} :
      Reads (.items .arguments es) a rest →
      Reads (.primary (.call name es line))
        (⟨.identifier name, line⟩ :: ⟨.mark .leftParen, opened⟩ :: a) rest
  | name {name : String} {line : Nat} {rest : List Lexeme} :
      next? rest ≠ some (.mark .leftParen) →
      Reads (.primary (.name name line)) [⟨.identifier name, line⟩] rest
  | noItems {enclosure : Enclosure} {line : Nat} {rest : List Lexeme} :
      Reads (.items enclosure []) [⟨.mark enclosure.closing, line⟩] rest
  | someItems {enclosure : Enclosure} {es : List Expr} {a rest : List Lexeme} :
      Reads (.itemsTail enclosure es) a rest → Reads (.items enclosure es) a rest
  | lastItem {enclosure : Enclosure} {e : Expr} {line : Nat} {a rest : List Lexeme} :
      Reads (.comparison e) a (⟨.mark enclosure.closing, line⟩ :: rest) →
      Reads (.itemsTail enclosure [e]) (a ++ [⟨.mark enclosure.closing, line⟩]) rest
  | moreItems {enclosure : Enclosure} {e : Expr} {es : List Expr} {line : Nat}
      {a b rest : List Lexeme} :
      Reads (.comparison e) a (⟨.mark .comma, line⟩ :: (b ++ rest)) →
      Reads (.itemsTail enclosure es) b rest →
      Reads (.itemsTail enclosure (e :: es)) (a ++ ⟨.mark .comma, line⟩ :: b) rest

theorem mem_extending_of_sumOp?
    {token : Token} {op : BinaryOp} (h : sumOp? token = some op) :
    token ∈ extending := by
  unfold sumOp? at h
  split at h <;> simp_all [extending]

theorem mem_extending_of_productOp?
    {token : Token} {op : BinaryOp} (h : productOp? token = some op) :
    token ∈ extending := by
  unfold productOp? at h
  split at h <;> simp_all [extending]

/-- A stop that depends on the next token carries over to lists that end alike. -/
theorem EndsAlike.bind_eq_none
    {rest other : List Lexeme} (h : EndsAlike rest other) {op? : Token → Option BinaryOp}
    (hop : ∀ {token op}, op? token = some op → token ∈ extending)
    (hrest : (next? rest).bind op? = none) :
    (next? other).bind op? = none := by
  rw [Option.bind_eq_none_iff]
  intro token hnext
  cases hstep : op? token with
  | none => rfl
  | some op =>
      have hother := h token (hop hstep) hnext
      rw [hother, Option.bind_some, hstep] at hrest
      exact hrest

/-- Reading depends on what comes after only through where it ends. -/
theorem Reads.endsAlike
    {phrase : Phrase} {taken rest other : List Lexeme} (h : Reads phrase taken rest)
    (halike : EndsAlike rest other) :
    Reads phrase taken other := by
  induction h generalizing other with
  | compared _ _ ihl ihr => exact .compared (ihl (.cons _)) (ihr halike)
  | uncompared _ hnext ih =>
      exact .uncompared (ih halike) (halike.next?_ne (by simp [extending]) hnext)
  | sum _ _ ihl ihr => exact .sum (ihl (halike.append _)) (ihr halike)
  | sumEnd hnext => exact .sumEnd (halike.bind_eq_none mem_extending_of_sumOp? hnext)
  | sumStep hop _ _ ihl ihr => exact .sumStep hop (ihl (halike.append _)) (ihr halike)
  | product _ _ ihl ihr => exact .product (ihl (halike.append _)) (ihr halike)
  | productEnd hnext => exact .productEnd (halike.bind_eq_none mem_extending_of_productOp? hnext)
  | productStep hop _ _ ihl ihr => exact .productStep hop (ihl (halike.append _)) (ihr halike)
  | negated _ ih => exact .negated (ih halike)
  | plain _ ih => exact .plain (ih halike)
  | number => exact .number
  | text => exact .text
  | boolean => exact .boolean
  | grouped _ ih => exact .grouped (ih (.cons _))
  | array _ ih => exact .array (ih halike)
  | call _ ih => exact .call (ih halike)
  | name hnext => exact .name (halike.next?_ne (by simp [extending]) hnext)
  | noItems => exact .noItems
  | someItems _ ih => exact .someItems (ih halike)
  | lastItem _ ih => exact .lastItem (ih (.cons _))
  | moreItems _ _ ihl ihr => exact .moreItems (ihl (.cons _)) (ihr halike)

/-- The tokens that an expression can start with. -/
def starting : Token → Bool
  | .number _ | .text _ | .boolean _ | .identifier _ => true
  | .mark .minus | .mark .leftParen | .mark .leftBracket => true
  | _ => false

/-- A phrase that is not a tail and not an empty list takes a token that starts an expression. -/
def Phrase.isOperand : Phrase → Bool
  | .sumTail _ _ | .productTail _ _ | .items _ _ => false
  | _ => true

theorem Reads.exists_starting
    {phrase : Phrase} {taken rest : List Lexeme} (h : Reads phrase taken rest)
    (hphrase : phrase.isOperand = true) :
    ∃ token line after, taken = ⟨token, line⟩ :: after ∧ starting token = true := by
  induction h with
  | compared _ _ ih _ | moreItems _ _ ih _ | sum _ _ ih _ | product _ _ ih _ =>
      obtain ⟨token, line, after, rfl, hstart⟩ := ih rfl
      exact ⟨token, line, _, rfl, hstart⟩
  | lastItem _ ih =>
      obtain ⟨token, line, after, rfl, hstart⟩ := ih rfl
      exact ⟨token, line, _, rfl, hstart⟩
  | uncompared _ _ ih => exact ih rfl
  | plain _ ih => exact ih rfl
  | sumEnd _ | sumStep _ _ _ _ _ | productEnd _ | productStep _ _ _ _ _ | noItems | someItems _ _ =>
      cases hphrase
  | negated _ _ | number | text | boolean | grouped _ _ | array _ _ | call _ _ | name _ =>
      exact ⟨_, _, _, rfl, rfl⟩

end Reader
end ColonScript
