import ColonScript.Proofs.Reading.Grammar

/-!
# What follows a derivation

A derivation of the grammar is what the readers take as long as the next token does not extend it:
no operator follows, and no parenthesis turns a name at its end into a call (`reads_of_derives`).
Operations nest to the left while the readers go from left to right, so at the levels of sums and
products the statement is about the derivation together with the operands that follow it.
-/

namespace ColonScript

open Reader

namespace Grammar

/-- What comes after some lexemes does not turn a name at their end into a call. -/
def Apart (taken rest : List Lexeme) : Prop :=
  ∀ name line, taken.getLast? = some ⟨.identifier name, line⟩ →
    next? rest ≠ some (.mark .leftParen)

/-- What comes next is no operator. -/
def NoOperator (rest : List Lexeme) : Prop :=
  ∀ op, next? rest ≠ some (.mark (opMark op))

theorem Apart.of_next?_ne
    {taken rest : List Lexeme} (h : next? rest ≠ some (.mark .leftParen)) :
    Apart taken rest :=
  fun _ _ _ => h

/-- A name at the end of the last part is one at the end of the whole. -/
theorem Apart.append_right
    {a b rest : List Lexeme} (h : Apart (a ++ b) rest) :
    Apart b rest := by
  intro name line hlast
  apply h name line
  rw [List.getLast?_append, hlast]
  rfl

theorem Apart.tail
    {lexeme : Lexeme} {a rest : List Lexeme} (h : Apart (lexeme :: a) rest) :
    Apart a rest := by
  rw [← List.singleton_append] at h
  exact h.append_right

theorem NoOperator.bind_sumOp?
    {rest : List Lexeme} (h : NoOperator rest) :
    (next? rest).bind sumOp? = none := by
  rw [Option.bind_eq_none_iff]
  intro token hnext
  cases hop : sumOp? token with
  | none => rfl
  | some op =>
      obtain ⟨rfl, -⟩ := opMark_of_sumOp? hop
      exact absurd hnext (h op)

theorem NoOperator.bind_productOp?
    {rest : List Lexeme} (h : NoOperator rest) :
    (next? rest).bind productOp? = none := by
  rw [Option.bind_eq_none_iff]
  intro token hnext
  cases hop : productOp? token with
  | none => rfl
  | some op =>
      obtain ⟨rfl, -⟩ := opMark_of_productOp? hop
      exact absurd hnext (h op)

theorem plain_of_sumOp?
    {token : Token} {op : BinaryOp} (h : sumOp? token = some op) :
    token ≠ .mark .leftParen ∧ productOp? token = none := by
  unfold sumOp? at h
  split at h
  · exact ⟨by simp, rfl⟩
  · exact ⟨by simp, rfl⟩
  · cases h

theorem ne_leftParen_of_productOp?
    {token : Token} {op : BinaryOp} (h : productOp? token = some op) :
    token ≠ .mark .leftParen := by
  rintro rfl
  cases h

/-- The lexemes of a part are read as it.  At the levels of sums and products this is said
together with whatever operators and operands follow, since operations nest to the left. -/
def ReadAs (taken : List Lexeme) : Part → Prop
  | .expression .comparison e => ∀ rest, Apart taken rest → NoOperator rest →
      Reads (.comparison e) taken rest
  | .expression .additive e => ∀ whole more rest, Apart taken (more ++ rest) →
      (next? (more ++ rest)).bind productOp? = none → Reads (.sumTail e whole) more rest →
      Reads (.sum whole) (taken ++ more) rest
  | .expression .multiplicative e => ∀ whole more rest, Apart taken (more ++ rest) →
      Reads (.productTail e whole) more rest → Reads (.product whole) (taken ++ more) rest
  | .expression .unary e => ∀ rest, Apart taken rest → Reads (.factor e) taken rest
  | .expression .primary e => ∀ rest, Apart taken rest → Reads (.primary e) taken rest
  | .elements es => ∀ enclosure closed rest,
      Reads (.itemsTail enclosure es) (taken ++ [⟨.mark (Enclosure.closing enclosure), closed⟩])
        rest

variable {taken : List Lexeme} {e : Expr}

theorem ReadAs.sum
    (h : ReadAs taken (.expression .additive e)) {rest : List Lexeme} (hapart : Apart taken rest)
    (hproduct : (next? rest).bind productOp? = none) (hsum : (next? rest).bind sumOp? = none) :
    Reads (.sum e) taken rest := by
  have hreads := h e [] rest hapart hproduct (.sumEnd hsum)
  rw [List.append_nil] at hreads
  exact hreads

theorem ReadAs.product
    (h : ReadAs taken (.expression .multiplicative e)) {rest : List Lexeme}
    (hapart : Apart taken rest) (hproduct : (next? rest).bind productOp? = none) :
    Reads (.product e) taken rest := by
  have hreads := h e [] rest hapart (.productEnd hproduct)
  rw [List.append_nil] at hreads
  exact hreads

theorem readAs_equal
    {l r : Expr} {line : Nat} {a b : List Lexeme} (hl : ReadAs a (.expression .additive l))
    (hr : ReadAs b (.expression .additive r)) :
    ReadAs (a ++ ⟨.mark .equalEqual, line⟩ :: b)
      (.expression .comparison (.binary .equal l r line)) := by
  intro rest hapart hrest
  have hleft : Reads (.sum l) a (⟨.mark .equalEqual, line⟩ :: (b ++ rest)) :=
    hl.sum (.of_next?_ne (by simp)) rfl rfl
  have hright : Reads (.sum r) b rest :=
    hr.sum hapart.append_right.tail hrest.bind_productOp? hrest.bind_sumOp?
  exact .compared hleft hright

theorem readAs_sum
    {op : BinaryOp} {token : Token} (hop : sumOp? token = some op) {l r : Expr} {line : Nat}
    {a b : List Lexeme} (hl : ReadAs a (.expression .additive l))
    (hr : ReadAs b (.expression .multiplicative r)) :
    ReadAs (a ++ ⟨token, line⟩ :: b) (.expression .additive (.binary op l r line)) := by
  intro whole more rest hapart hproduct htail
  have hright : Reads (.product r) b (more ++ rest) :=
    hr.product hapart.append_right.tail hproduct
  -- The operation on its left operand is followed by the right one and all that follows that.
  have hmore : Reads (.sumTail l whole) (⟨token, line⟩ :: (b ++ more)) rest :=
    .sumStep hop hright htail
  obtain ⟨hparen, hnext⟩ := plain_of_sumOp? hop
  have hreads := hl whole (⟨token, line⟩ :: (b ++ more)) rest
    (.of_next?_ne (by simpa using hparen)) hnext hmore
  rw [List.append_assoc, List.cons_append]
  exact hreads

theorem readAs_product
    {op : BinaryOp} {token : Token} (hop : productOp? token = some op) {l r : Expr} {line : Nat}
    {a b : List Lexeme} (hl : ReadAs a (.expression .multiplicative l))
    (hr : ReadAs b (.expression .unary r)) :
    ReadAs (a ++ ⟨token, line⟩ :: b) (.expression .multiplicative (.binary op l r line)) := by
  intro whole more rest hapart htail
  have hright : Reads (.factor r) b (more ++ rest) := hr _ hapart.append_right.tail
  have hmore : Reads (.productTail l whole) (⟨token, line⟩ :: (b ++ more)) rest :=
    .productStep hop hright htail
  have hparen := ne_leftParen_of_productOp? hop
  have hreads := hl whole (⟨token, line⟩ :: (b ++ more)) rest
    (.of_next?_ne (by simpa using hparen)) hmore
  rw [List.append_assoc, List.cons_append]
  exact hreads

theorem readAs_binary
    (op : BinaryOp) {l r : Expr} {line : Nat} {a b : List Lexeme}
    (hl : ReadAs a (.expression (leftLevel op) l)) (hr : ReadAs b (.expression (rightLevel op) r)) :
    ReadAs (a ++ ⟨.mark (opMark op), line⟩ :: b)
      (.expression (opLevel op) (.binary op l r line)) := by
  cases op with
  | equal => exact readAs_equal hl hr
  | add | sub => exact readAs_sum rfl hl hr
  | mul | div | mod => exact readAs_product rfl hl hr

/-- What is read at a level is read at every looser one. -/
theorem readAs_tighter
    {level : Level} (h : ReadAs taken (.expression level.next e)) :
    ReadAs taken (.expression level e) := by
  cases level with
  | comparison =>
      intro rest hapart hrest
      have hsum := h.sum hapart hrest.bind_productOp? hrest.bind_sumOp?
      exact .uncompared hsum (hrest .equal)
  | additive =>
      intro whole more rest hapart hproduct htail
      exact .sum (h.product hapart hproduct) htail
  | multiplicative =>
      intro whole more rest hapart htail
      exact .product (h _ hapart) htail
  | unary =>
      intro rest hapart
      exact .plain (h rest hapart)
  | primary => exact h

theorem noOperator_mark
    {m : Mark} (hm : ∀ op, opMark op ≠ m) (line : Nat) (rest : List Lexeme) :
    NoOperator (⟨.mark m, line⟩ :: rest) := by
  intro op hnext
  simp only [next?_cons, Option.some.injEq, Token.mark.injEq] at hnext
  exact hm op hnext.symm

theorem noOperator_closing
    (enclosure : Enclosure) (line : Nat) (rest : List Lexeme) :
    NoOperator (⟨.mark enclosure.closing, line⟩ :: rest) := by
  apply noOperator_mark
  intro op
  cases enclosure <;> cases op <;> decide

/-- A derivation is what is read, as long as what comes next does not extend it. -/
theorem readAs_of_derives
    {part : Part} (h : Derives part taken) :
    ReadAs taken part := by
  induction h with
  | binary op _ _ ihl ihr => exact readAs_binary op ihl ihr
  | tighter _ ih => exact readAs_tighter ih
  | negate _ ih =>
      intro rest hapart
      exact .negated (ih rest hapart.tail)
  | literal value =>
      intro rest _
      cases value with
      | number value => exact .number
      | text content => exact .text
      | boolean value => exact .boolean
  | @name name line =>
      intro rest hapart
      exact .name (hapart name line rfl)
  | group _ ih =>
      intro rest _
      refine .grouped (ih _ (.of_next?_ne (by simp)) ?_)
      exact noOperator_closing .arguments _ _
  | emptyArray =>
      intro rest _
      exact .array (.noItems)
  | @array es line closed a _ ih =>
      intro rest _
      exact .array (.someItems (ih .elements closed rest))
  | emptyCall =>
      intro rest _
      exact .call (.noItems)
  | @call name es line opened closed a _ ih =>
      intro rest _
      exact .call (.someItems (ih .arguments closed rest))
  | element _ ih =>
      intro enclosure closed rest
      refine .lastItem (ih _ (.of_next?_ne ?_) (noOperator_closing enclosure closed rest))
      cases enclosure <;> simp [Enclosure.closing]
  | elements _ _ ihl ihr =>
      intro enclosure closed rest
      rw [List.append_assoc, List.cons_append]
      refine .moreItems (ihl _ (.of_next?_ne (by simp)) ?_) (ihr enclosure closed rest)
      exact noOperator_mark (fun op => by cases op <;> decide) _ _

theorem reads_of_derives
    (h : Derives (.expression .comparison e) taken) {rest : List Lexeme}
    (hapart : Apart taken rest) (hrest : NoOperator rest) :
    Reads (.comparison e) taken rest :=
  readAs_of_derives h rest hapart hrest

end Grammar
end ColonScript
