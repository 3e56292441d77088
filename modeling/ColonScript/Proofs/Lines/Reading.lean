import ColonScript.Proofs.Lines.Alignment
import ColonScript.Syntax.Statement

/-!
# Reading does not look at lines

Readers copy lines from lexemes into trees and errors and do nothing else with them.  On aligned
lexemes every reader therefore comes to the same end: it gives aligned trees and leaves aligned
lexemes, or it fails for the same cause.
-/

namespace ColonScript

/-- Two results of reading: what was read relates, and the lexemes after it are aligned. -/
structure Parsed.Aligned (L : Nat → Nat → Prop) {α β : Type} (R : α → β → Prop) {m n : Nat}
    (p : Parsed α m) (q : Parsed β n) : Prop where
  value : R p.value q.value
  rest : List.Forall₂ (Lexeme.Aligned L) p.rest q.rest

namespace Reader

/-- Two readings come to the same end. -/
abbrev ReadAlike (L : Nat → Nat → Prop) {α β : Type} (R : α → β → Prop) {m n : Nat}
    (x : Except ReadError (Parsed α m)) (y : Except ReadError (Parsed β n)) : Prop :=
  OutcomesRelate (ReadError.Aligned L) (Parsed.Aligned L R) x y

/-- A reader, handed something besides its lexemes, comes to the same end on aligned lexemes. -/
def Steady (L : Nat → Nat → Prop) {ι α : Type} (I : ι → ι → Prop) (R : α → α → Prop)
    {bound : List Lexeme → Nat}
    (read : ι → (lexemes : List Lexeme) → Except ReadError (Parsed α (bound lexemes)))
    (i : ι) (lexemes : List Lexeme) : Prop :=
  ∀ j others, I i j → List.Forall₂ (Lexeme.Aligned L) lexemes others →
    ReadAlike L R (read i lexemes) (read j others)

/-- A reader that is handed nothing but its lexemes comes to the same end on aligned ones. -/
def SteadyAlone (L : Nat → Nat → Prop) {α : Type} (R : α → α → Prop) {bound : List Lexeme → Nat}
    (read : (lexemes : List Lexeme) → Except ReadError (Parsed α (bound lexemes)))
    (lexemes : List Lexeme) : Prop :=
  ∀ others, List.Forall₂ (Lexeme.Aligned L) lexemes others →
    ReadAlike L R (read lexemes) (read others)

variable {L : Nat → Nat → Prop} {α β : Type} {R : α → α → Prop} {S : β → β → Prop}

theorem ReadAlike.mapLe
    {m n m' n' : Nat} {x : Except ReadError (Parsed α m)} {y : Except ReadError (Parsed α n)}
    {f g : α → β} {hm : m ≤ m'} {hn : n ≤ n'} (h : ReadAlike L R x y)
    (hf : ∀ a b, R a b → S (f a) (g b)) :
    ReadAlike L S (do let p ← x; return p.mapLe f hm) (do let q ← y; return q.mapLe g hn) :=
  h.bind fun p q hpq => .ok ⟨hf p.value q.value hpq.value, hpq.rest⟩

theorem ReadAlike.fail
    {m n : Nat} {cause : ReadCause} {k l : Nat} (h : L k l) :
    ReadAlike L R (.error ⟨cause, k⟩ : Except ReadError (Parsed α m))
      (.error ⟨cause, l⟩ : Except ReadError (Parsed α n)) :=
  .error ⟨rfl, h⟩

/-- Aligned lists of lexemes are both empty, or they start with the same token. -/
theorem aligned_cases
    {motive : ∀ lexemes others, List.Forall₂ (Lexeme.Aligned L) lexemes others → Prop}
    {lexemes others : List Lexeme} (h : List.Forall₂ (Lexeme.Aligned L) lexemes others)
    (nil : motive [] [] .nil)
    (cons : ∀ token k l rest rest' hline hrest,
      motive (⟨token, k⟩ :: rest) (⟨token, l⟩ :: rest') (.cons ⟨rfl, hline⟩ hrest)) :
    motive lexemes others h := by
  rcases h with _ | ⟨⟨htoken, hline⟩, hrest⟩
  · exact nil
  · next lexeme lexeme' rest rest' =>
    obtain ⟨token, k⟩ := lexeme
    obtain ⟨token', l⟩ := lexeme'
    obtain rfl : token = token' := htoken
    exact cons token k l rest rest' hline hrest

theorem not_cons_of_aligned
    {token : Token} {lexemes others : List Lexeme}
    (h : List.Forall₂ (Lexeme.Aligned L) lexemes others)
    (hne : ∀ line rest, lexemes = ⟨token, line⟩ :: rest → False) :
    ∀ line rest, others = ⟨token, line⟩ :: rest → False := by
  intro line rest hothers
  cases h using aligned_cases with
  | nil => cases hothers
  | cons _ k l before after _ _ =>
    cases hothers
    exact hne k before rfl

theorem comparison_steady
    {line : Nat} {lexemes : List Lexeme}
    (hleft : Steady L L (Expr.Aligned L) sum line lexemes)
    (hright : ∀ (left : Parsed Expr lexemes.length) (opLine : Nat) (rest : List Lexeme),
      left.rest = ⟨.mark .equalEqual, opLine⟩ :: rest →
        Steady L L (Expr.Aligned L) sum opLine rest) :
    Steady L L (Expr.Aligned L) comparison line lexemes := by
  intro line' lexemes' hline hlexemes
  rw [comparison, comparison]
  refine (hleft line' lexemes' hline hlexemes).bind ?_
  rintro ⟨e, rest, hlt⟩ ⟨e', rest', hlt'⟩ ⟨he, hrest⟩
  cases hrest using aligned_cases with
  | nil => exact .ok ⟨he, .nil⟩
  | cons token k l after after' hop hafter =>
    by_cases hequal : token = .mark .equalEqual
    · subst hequal
      have hother := hright ⟨e, _, hlt⟩ k after rfl l after' hop hafter
      exact hother.mapLe fun _ _ hexpr => .binary .equal he hexpr hop
    · split
      · next heq => cases heq; exact (hequal rfl).elim
      · split
        · next heq => cases heq; exact (hequal rfl).elim
        · exact .ok ⟨he, .cons ⟨rfl, hop⟩ hafter⟩

/-- An operand and what follows it, at either level of precedence. -/
theorem ReadAlike.chain
    {m n m' n' : Nat} {x : Except ReadError (Parsed Expr m)} {y : Except ReadError (Parsed Expr n)}
    {tail : Expr → (lexemes : List Lexeme) →
      Except ReadError (Parsed Expr (lexemes.length + 1))}
    {f g : Expr → Expr} {hm : ∀ p : Parsed Expr m, p.rest.length + 1 ≤ m'}
    {hn : ∀ q : Parsed Expr n, q.rest.length + 1 ≤ n'} (h : ReadAlike L (Expr.Aligned L) x y)
    (hf : ∀ a b, a.Aligned L b → (f a).Aligned L (g b))
    (htail : ∀ p : Parsed Expr m,
      Steady L (Expr.Aligned L) (Expr.Aligned L) tail (f p.value) p.rest) :
    ReadAlike L (Expr.Aligned L)
      (do let p ← x; let all ← tail (f p.value) p.rest; return all.mapLe id (hm p))
      (do let q ← y; let all ← tail (g q.value) q.rest; return all.mapLe id (hn q)) := by
  refine h.bind fun p q hpq => ?_
  have hoperand := hf p.value q.value hpq.value
  exact (htail p (g q.value) q.rest hoperand hpq.rest).mapLe fun _ _ hexpr => hexpr

theorem sum_steady
    {line : Nat} {lexemes : List Lexeme}
    (hfirst : Steady L L (Expr.Aligned L) product line lexemes)
    (htail : ∀ first : Parsed Expr lexemes.length,
      Steady L (Expr.Aligned L) (Expr.Aligned L) sumTail first.value first.rest) :
    Steady L L (Expr.Aligned L) sum line lexemes := by
  intro line' lexemes' hline hlexemes
  rw [sum, sum]
  exact (hfirst line' lexemes' hline hlexemes).chain (f := id) (g := id) (fun _ _ h => h) htail

theorem product_steady
    {line : Nat} {lexemes : List Lexeme}
    (hfirst : Steady L L (Expr.Aligned L) factor line lexemes)
    (htail : ∀ first : Parsed Expr lexemes.length,
      Steady L (Expr.Aligned L) (Expr.Aligned L) productTail first.value first.rest) :
    Steady L L (Expr.Aligned L) product line lexemes := by
  intro line' lexemes' hline hlexemes
  rw [product, product]
  exact (hfirst line' lexemes' hline hlexemes).chain (f := id) (g := id) (fun _ _ h => h) htail

theorem sumTail_steady
    {left : Expr} {token : Token} {opLine : Nat} {rest : List Lexeme} {op : BinaryOp}
    (hop : sumOp? token = some op)
    (hright : Steady L L (Expr.Aligned L) product opLine rest)
    (htail : ∀ right : Parsed Expr rest.length,
      Steady L (Expr.Aligned L) (Expr.Aligned L) sumTail (.binary op left right.value opLine)
        right.rest) :
    Steady L (Expr.Aligned L) (Expr.Aligned L) sumTail left (⟨token, opLine⟩ :: rest) := by
  intro left' lexemes' hleft hlexemes
  cases hlexemes using aligned_cases with
  | cons _ _ l _ rest' hline hrest =>
    rw [sumTail, sumTail, hop]
    exact (hright l rest' hline hrest).chain (fun _ _ hexpr => .binary op hleft hexpr hline) htail

theorem productTail_steady
    {left : Expr} {token : Token} {opLine : Nat} {rest : List Lexeme} {op : BinaryOp}
    (hop : productOp? token = some op)
    (hright : Steady L L (Expr.Aligned L) factor opLine rest)
    (htail : ∀ right : Parsed Expr rest.length,
      Steady L (Expr.Aligned L) (Expr.Aligned L) productTail (.binary op left right.value opLine)
        right.rest) :
    Steady L (Expr.Aligned L) (Expr.Aligned L) productTail left (⟨token, opLine⟩ :: rest) := by
  intro left' lexemes' hleft hlexemes
  cases hlexemes using aligned_cases with
  | cons _ _ l _ rest' hline hrest =>
    rw [productTail, productTail, hop]
    exact (hright l rest' hline hrest).chain (fun _ _ hexpr => .binary op hleft hexpr hline) htail

theorem group_steady
    {line l : Nat} {rest : List Lexeme}
    (hinner : Steady L L (Expr.Aligned L) comparison l rest) :
    Steady L L (Expr.Aligned L) primary line (⟨.mark .leftParen, l⟩ :: rest) := by
  intro line' lexemes' _ hlexemes
  cases hlexemes using aligned_cases with
  | cons _ _ l' _ rest' hopened hrest =>
    rw [primary, primary]
    refine (hinner l' rest' hopened hrest).bind ?_
    rintro ⟨e, after, hlt⟩ ⟨e', after', hlt'⟩ ⟨he, hafter⟩
    cases hafter using aligned_cases with
    | nil => exact ReadAlike.fail hopened
    | cons token k k' after after' hline hafter =>
      by_cases hclosed : token = .mark .rightParen
      · subst hclosed
        exact .ok ⟨he, hafter⟩
      · split
        · next heq => cases heq; exact (hclosed rfl).elim
        · next heq => cases heq; exact ReadAlike.fail hline
        · next heq => cases heq

theorem itemsTail_steady
    {enclosure : Enclosure} {line : Nat} {lexemes : List Lexeme}
    (hitem : Steady L L (Expr.Aligned L) comparison line lexemes)
    (hothers : ∀ (item : Parsed Expr lexemes.length) (commaLine : Nat) (after : List Lexeme),
      item.rest = ⟨.mark .comma, commaLine⟩ :: after →
        Steady L L (List.Forall₂ (Expr.Aligned L)) (itemsTail enclosure) line after) :
    Steady L L (List.Forall₂ (Expr.Aligned L)) (itemsTail enclosure) line lexemes := by
  intro line' lexemes' hline hlexemes
  rw [itemsTail, itemsTail]
  refine (hitem line' lexemes' hline hlexemes).bind ?_
  rintro ⟨e, rest, hlt⟩ ⟨e', rest', hlt'⟩ ⟨he, hrest⟩
  cases hrest using aligned_cases with
  | nil => exact ReadAlike.fail hline
  | cons token k l after after' hnext hafter =>
    by_cases hcomma : token = .mark .comma
    · subst hcomma
      have hmore := hothers ⟨e, _, hlt⟩ k after rfl line' after' hline hafter
      exact hmore.mapLe fun _ _ hexprs => .cons he hexprs
    · split
      · next heq => cases heq; exact (hcomma rfl).elim
      · next heq =>
        cases heq
        split
        · exact .ok ⟨.cons he .nil, hafter⟩
        · exact ReadAlike.fail hnext
      · next heq => cases heq

/-- The expression readers come to the same end on aligned lexemes. -/
theorem expressions_steady :
    (∀ line lexemes, Steady L L (Expr.Aligned L) comparison line lexemes) ∧
      (∀ line lexemes, Steady L L (Expr.Aligned L) sum line lexemes) ∧
      (∀ left lexemes, Steady L (Expr.Aligned L) (Expr.Aligned L) sumTail left lexemes) ∧
      (∀ line lexemes, Steady L L (Expr.Aligned L) product line lexemes) ∧
      (∀ left lexemes, Steady L (Expr.Aligned L) (Expr.Aligned L) productTail left lexemes) ∧
      (∀ line lexemes, Steady L L (Expr.Aligned L) factor line lexemes) ∧
      (∀ line lexemes, Steady L L (Expr.Aligned L) primary line lexemes) ∧
      (∀ enclosure line lexemes,
        Steady L L (List.Forall₂ (Expr.Aligned L)) (items enclosure) line lexemes) ∧
      ∀ enclosure line lexemes,
        Steady L L (List.Forall₂ (Expr.Aligned L)) (itemsTail enclosure) line lexemes := by
  refine comparison.mutual_induct _ _ _ _ _ _ _ _ _ ?comparison ?sum ?sumTailNil ?sumTailEnd
    ?sumTailStep ?product ?productTailNil ?productTailEnd ?productTailStep ?negated ?plain
    ?noPrimary ?number ?text ?boolean ?group ?array ?call ?name ?strayPrimary ?itemsNil ?noItems
    ?someItems ?itemsTail
  case comparison => exact fun _ _ => comparison_steady
  case sum => exact fun _ _ => sum_steady
  case sumTailNil =>
    intro left left' _ hleft hlexemes
    cases hlexemes
    rw [sumTail, sumTail]
    exact .ok ⟨hleft, .nil⟩
  case sumTailEnd =>
    intro left token opLine rest hop left' _ hleft hlexemes
    cases hlexemes using aligned_cases with
    | cons _ _ l _ rest' hline hrest =>
      rw [sumTail, sumTail, hop]
      exact .ok ⟨hleft, .cons ⟨rfl, hline⟩ hrest⟩
  case sumTailStep => exact fun _ _ _ _ _ => sumTail_steady
  case product => exact fun _ _ => product_steady
  case productTailNil =>
    intro left left' _ hleft hlexemes
    cases hlexemes
    rw [productTail, productTail]
    exact .ok ⟨hleft, .nil⟩
  case productTailEnd =>
    intro left token opLine rest hop left' _ hleft hlexemes
    cases hlexemes using aligned_cases with
    | cons _ _ l _ rest' hline hrest =>
      rw [productTail, productTail, hop]
      exact .ok ⟨hleft, .cons ⟨rfl, hline⟩ hrest⟩
  case productTailStep => exact fun _ _ _ _ _ => productTail_steady
  case negated =>
    intro line minusLine rest hoperand line' _ _ hlexemes
    cases hlexemes using aligned_cases with
    | cons _ _ l _ rest' hminus hrest =>
      rw [factor, factor]
      exact (hoperand l rest' hminus hrest).mapLe fun _ _ hexpr => .negate hexpr hminus
  case plain =>
    intro line lexemes hne hprimary line' lexemes' hline hlexemes
    have hne' := not_cons_of_aligned hlexemes hne
    rw [factor.eq_2 line lexemes hne, factor.eq_2 line' lexemes' hne']
    exact hprimary line' lexemes' hline hlexemes
  case noPrimary =>
    intro line line' _ hline hlexemes
    cases hlexemes
    rw [primary, primary]
    exact ReadAlike.fail hline
  case number | text | boolean =>
    intro line constant l rest line' _ _ hlexemes
    cases hlexemes using aligned_cases with
    | cons _ _ l' _ rest' hl hrest =>
      rw [primary, primary]
      exact .ok ⟨.literal _ hl, hrest⟩
  case group => exact fun _ _ _ => group_steady
  case array =>
    intro line l rest hitems line' _ _ hlexemes
    cases hlexemes using aligned_cases with
    | cons _ _ l' _ rest' hl hrest =>
      rw [primary, primary]
      exact (hitems l' rest' hl hrest).mapLe fun _ _ hexprs => .array hexprs hl
  case call =>
    intro line name l opened rest hitems line' _ _ hlexemes
    cases hlexemes using aligned_cases with
    | cons _ _ l' _ rest' hl hrest =>
      cases hrest using aligned_cases with
      | cons _ _ _ _ rest' _ hrest =>
        rw [primary, primary]
        exact (hitems l' rest' hl hrest).mapLe fun _ _ hexprs => .call name hexprs hl
  case name =>
    intro line name l rest hne line' _ _ hlexemes
    cases hlexemes using aligned_cases with
    | cons _ _ l' _ rest' hl hrest =>
      have hne' := not_cons_of_aligned hrest hne
      rw [primary, primary]
      · exact .ok ⟨.name name hl, hrest⟩
      all_goals assumption
  case strayPrimary =>
    intro line token l rest h₁ h₂ h₃ h₄ h₅ h₆ h₇ line' _ _ hlexemes
    cases hlexemes using aligned_cases with
    | cons _ _ l' _ rest' hl hrest =>
      have hcall : ∀ name opened after, rest' = ⟨.mark .leftParen, opened⟩ :: after →
          token = .identifier name → False :=
        fun name _ _ _ => h₇ name
      rw [primary, primary]
      · exact ReadAlike.fail hl
      all_goals assumption
  case itemsNil =>
    intro enclosure line htail line' _ hline hlexemes
    cases hlexemes
    rw [items, items]
    exact htail line' [] hline .nil
  case noItems =>
    intro enclosure line l rest line' _ _ hlexemes
    cases hlexemes using aligned_cases with
    | cons _ _ l' _ rest' hl hrest =>
      rw [items, items, if_pos rfl, if_pos rfl]
      exact .ok ⟨.nil, hrest⟩
  case someItems =>
    intro enclosure line token l rest hne htail line' _ hline hlexemes
    cases hlexemes using aligned_cases with
    | cons _ _ l' _ rest' hl hrest =>
      rw [items, items, if_neg hne, if_neg hne]
      exact htail line' _ hline (.cons ⟨rfl, hl⟩ hrest)
  case itemsTail => exact fun _ _ _ => itemsTail_steady

/-! ## Statements -/

theorem declaredName_steady
    (line : Nat) (lexemes : List Lexeme) :
    Steady L L Eq declaredName line lexemes := by
  intro line' lexemes' hline hlexemes
  cases hlexemes using aligned_cases with
  | nil => exact ReadAlike.fail hline
  | cons token k l rest rest' hfirst hrest =>
    cases token with
    | identifier name =>
        cases hrest using aligned_cases with
        | nil => exact ReadAlike.fail hline
        | cons token k' l' rest rest' hsecond hrest =>
          by_cases hequals : token = .mark .equals
          · subst hequals
            exact .ok ⟨rfl, hrest⟩
          · rw [declaredName, declaredName]
            · exact ReadAlike.fail hsecond
            all_goals exact hequals
    | _ => exact ReadAlike.fail hfirst

theorem parameter_steady
    (line : Nat) (lexemes : List Lexeme) :
    Steady L L Eq parameter line lexemes := by
  intro line' lexemes' hline hlexemes
  cases hlexemes using aligned_cases with
  | nil => exact ReadAlike.fail hline
  | cons token k l rest rest' hfirst hrest =>
    cases token with
    | kind kind =>
        cases hrest using aligned_cases with
        | nil => exact ReadAlike.fail hline
        | cons token k' l' rest rest' hsecond hrest =>
          cases token with
          | identifier name => exact .ok ⟨rfl, hrest⟩
          | _ => exact ReadAlike.fail hsecond
    | _ => exact ReadAlike.fail hfirst

theorem parametersTail_steady
    (line : Nat) (lexemes : List Lexeme) :
    Steady L L Eq parametersTail line lexemes := by
  induction lexemes using parametersTail.induct with
  | case1 lexemes ih =>
    intro line' lexemes' hline hlexemes
    rw [parametersTail, parametersTail]
    refine (parameter_steady line lexemes line' lexemes' hline hlexemes).bind ?_
    rintro ⟨one, rest, hlt⟩ ⟨_, rest', hlt'⟩ ⟨rfl, hrest⟩
    cases hrest using aligned_cases with
    | nil => exact ReadAlike.fail hline
    | cons token k l after after' hnext hafter =>
      by_cases hcomma : token = .mark .comma
      · subst hcomma
        have hmore := ih ⟨one, _, hlt⟩ k after rfl line' after' hline hafter
        exact hmore.mapLe fun _ _ hlist => congrArg (one :: ·) hlist
      by_cases hclosed : token = .mark .rightParen
      · subst hclosed
        exact .ok ⟨rfl, hafter⟩
      split
      · next heq => cases heq; exact (hcomma rfl).elim
      · next heq => cases heq; exact (hclosed rfl).elim
      · next heq => cases heq; exact ReadAlike.fail hnext
      · next heq => cases heq

theorem parameters_steady
    (line : Nat) (lexemes : List Lexeme) :
    Steady L L Eq parameters line lexemes := by
  intro line' lexemes' hline hlexemes
  cases hlexemes using aligned_cases with
  | nil => exact ReadAlike.fail hline
  | cons token k l rest rest' hfirst hrest =>
    by_cases hopened : token = .mark .leftParen
    · subst hopened
      by_cases hempty : ∃ closed after, rest = ⟨.mark .rightParen, closed⟩ :: after
      · obtain ⟨closed, after, rfl⟩ := hempty
        cases hrest using aligned_cases with
        | cons _ _ _ _ after' _ hafter => exact .ok ⟨rfl, hafter⟩
      · have hne : ∀ closed after, rest = ⟨.mark .rightParen, closed⟩ :: after → False :=
          fun closed after hrest => hempty ⟨closed, after, hrest⟩
        have hne' := not_cons_of_aligned hrest hne
        have hlisted := parametersTail_steady line rest line' rest' hline hrest
        rw [parameters.eq_2 _ _ _ hne, parameters.eq_2 _ _ _ hne']
        exact hlisted.map fun p q hpq => ⟨hpq.value, hpq.rest⟩
    · rw [parameters.eq_3 _ _ _ _ (fun _ _ _ => hopened) hopened,
        parameters.eq_3 _ _ _ _ (fun _ _ _ => hopened) hopened]
      exact ReadAlike.fail hfirst

theorem loopBound_steady
    (word : LoopWord) (line : Nat) (lexemes : List Lexeme) :
    Steady L L (Expr.Aligned L) (fun line => loopBound line word) line lexemes := by
  intro line' lexemes' hline hlexemes
  refine (expressions_steady.1 line lexemes line' lexemes' hline hlexemes).bind ?_
  rintro ⟨e, rest, hlt⟩ ⟨e', rest', hlt'⟩ ⟨he, hrest⟩
  cases hrest using aligned_cases with
  | nil => exact ReadAlike.fail hline
  | cons token k l after after' hnext hafter =>
    by_cases hword : token = .keyword (loopKeyword word)
    · simp only [if_pos hword]
      exact .ok ⟨he, hafter⟩
    · simp only [if_neg hword]
      exact ReadAlike.fail hnext

theorem loopCounter_steady
    (line : Nat) (lexemes : List Lexeme) :
    Steady L L Eq loopCounter line lexemes := by
  intro line' lexemes' hline hlexemes
  cases hlexemes using aligned_cases with
  | nil => exact ReadAlike.fail hline
  | cons token k l rest rest' hfirst hrest =>
    cases token with
    | identifier name => exact .ok ⟨rfl, hrest⟩
    | _ => exact ReadAlike.fail hfirst

/-- Where a body ends is decided by tokens alone. -/
theorem lengthFrom?_aligned
    {lexemes others : List Lexeme} (h : List.Forall₂ (Lexeme.Aligned L) lexemes others)
    (t : Block.Tally) :
    Block.lengthFrom? t lexemes = Block.lengthFrom? t others := by
  induction h generalizing t with
  | nil => rfl
  | cons hfirst _ ih => rw [Block.lengthFrom?, Block.lengthFrom?, hfirst.token, ih]

theorem extent_aligned
    {lexemes others : List Lexeme} (h : List.Forall₂ (Lexeme.Aligned L) lexemes others) {k l : Nat}
    (hline : L k l) :
    OutcomesRelate (ReadError.Aligned L) Eq (Block.extent k lexemes) (Block.extent l others) := by
  rw [Block.extent, Block.extent, Block.length?, Block.length?, lengthFrom?_aligned h]
  split
  · exact .ok rfl
  · exact .error ⟨rfl, hline⟩

theorem function_steady
    {line : Nat} {rest : List Lexeme}
    (hbody : ∀ (name : Parsed String rest.length)
      (params : Parsed (List Parameter) name.rest.length),
      Steady L L (List.Forall₂ (Statement.Aligned L)) (body .functionDeclaration) line
        params.rest) :
    SteadyAlone L (Statement.Aligned L) statement (⟨.kind .fn, line⟩ :: rest) := by
  intro lexemes' hlexemes
  cases hlexemes using aligned_cases with
  | cons _ _ line' _ rest' hline hrest =>
    rw [statement, statement]
    refine (declaredName_steady line rest line' rest' hline hrest).bind ?_
    rintro name ⟨_, after, hlt⟩ ⟨rfl, hafter⟩
    refine (parameters_steady line name.rest line' after hline hafter).bind ?_
    rintro params ⟨_, after', hlt'⟩ ⟨rfl, hafter'⟩
    have hcontent := hbody name params line' after' hline hafter'
    exact hcontent.mapLe fun _ _ hstatements => .function name.value params.value hstatements hline

theorem declare_steady
    {kind : Kind} {line : Nat} {rest : List Lexeme} (hkind : kind = .fn → False) :
    SteadyAlone L (Statement.Aligned L) statement (⟨.kind kind, line⟩ :: rest) := by
  intro lexemes' hlexemes
  cases hlexemes using aligned_cases with
  | cons _ _ line' _ rest' hline hrest =>
    rw [statement.eq_3 _ _ _ hkind, statement.eq_3 _ _ _ hkind]
    refine (declaredName_steady line rest line' rest' hline hrest).bind ?_
    rintro name ⟨_, after, hlt⟩ ⟨rfl, hafter⟩
    have hvalue := expressions_steady.1 line name.rest line' after hline hafter
    exact hvalue.mapLe fun _ _ hexpr => .declare kind name.value hexpr hline

/-- A guard, its body and the arms after it, which a conditional and a later arm have alike. -/
theorem guarded_alike
    {line line' : Nat} {rest rest' : List Lexeme} {m n : Nat} {f g : Arm → List Arm → β}
    {hm : ∀ (guard : Parsed Expr rest.length) (content : Parsed (List Statement) guard.rest.length),
      content.rest.length + 1 ≤ m}
    {hn : ∀ (guard : Parsed Expr rest'.length)
      (content : Parsed (List Statement) guard.rest.length), content.rest.length + 1 ≤ n}
    (hline : L line line') (hrest : List.Forall₂ (Lexeme.Aligned L) rest rest')
    (hbody : ∀ guard : Parsed Expr rest.length,
      Steady L L (List.Forall₂ (Statement.Aligned L)) (body .conditionalStatement) line guard.rest)
    (harms : ∀ (guard : Parsed Expr rest.length)
      (content : Parsed (List Statement) guard.rest.length),
      SteadyAlone L (List.Forall₂ (Arm.Aligned L)) arms content.rest)
    (hf : ∀ a b as bs, a.Aligned L b → List.Forall₂ (Arm.Aligned L) as bs → S (f a as) (g b bs)) :
    ReadAlike L S
      (do
        let guard ← comparison line rest
        let content ← body .conditionalStatement line guard.rest
        let others ← arms content.rest
        return others.mapLe (f (.mk (some guard.value) content.value line)) (hm guard content))
      (do
        let guard ← comparison line' rest'
        let content ← body .conditionalStatement line' guard.rest
        let others ← arms content.rest
        return others.mapLe (g (.mk (some guard.value) content.value line'))
          (hn guard content)) := by
  refine (expressions_steady.1 line rest line' rest' hline hrest).bind fun guard guard' hguard => ?_
  refine (hbody guard line' guard'.rest hline hguard.rest).bind fun content content' hcontent => ?_
  refine (harms guard content content'.rest hcontent.rest).mapLe fun _ _ hothers => ?_
  exact hf _ _ _ _ (.mk (.some hguard.value) hcontent.value hline) hothers

theorem loop_steady
    {line : Nat} {rest : List Lexeme}
    (hbody : ∀ (first : Parsed Expr rest.length) (last : Parsed Expr first.rest.length)
      (counter : Parsed String last.rest.length),
      Steady L L (List.Forall₂ (Statement.Aligned L)) (body .countingLoop) line counter.rest) :
    SteadyAlone L (Statement.Aligned L) statement (⟨.keyword .naduh, line⟩ :: rest) := by
  intro lexemes' hlexemes
  cases hlexemes using aligned_cases with
  | cons _ _ line' _ rest' hline hrest =>
    rw [statement, statement]
    refine (loopBound_steady .haduh line rest line' rest' hline hrest).bind
      fun first first' hfirst => ?_
    refine (loopBound_steady .da line first.rest line' first'.rest hline hfirst.rest).bind
      fun last last' hlast => ?_
    refine (loopCounter_steady line last.rest line' last'.rest hline hlast.rest).bind ?_
    rintro counter ⟨_, after, hlt⟩ ⟨rfl, hafter⟩
    have hcontent := hbody first last counter line' after hline hafter
    exact hcontent.mapLe fun _ _ hstatements =>
      .loop counter.value hfirst.value hlast.value hstatements hline

theorem body_steady
    {owner : Construct} {line opened : Nat} {rest : List Lexeme}
    (hprogram : ∀ n others, List.Forall₂ (Lexeme.Aligned L) (rest.take n) others →
      OutcomesRelate (ReadError.Aligned L) (List.Forall₂ (Statement.Aligned L))
        (program (rest.take n)) (program others)) :
    Steady L L (List.Forall₂ (Statement.Aligned L)) (body owner) line
      (⟨.mark .colon, opened⟩ :: rest) := by
  intro line' lexemes' _ hlexemes
  cases hlexemes using aligned_cases with
  | cons _ _ opened' _ rest' hopened hrest =>
    rw [body, body]
    -- The body is cut out by tokens, so both sides read on from corresponding places.
    refine (extent_aligned hrest hopened).bind ?_
    rintro n _ rfl
    refine (hprogram n (rest'.take n) (List.forall₂_take n hrest)).bind fun ss ss' hss => ?_
    exact .ok ⟨hss, List.forall₂_drop (n + 1) hrest⟩

/-- The statement readers come to the same end on aligned lexemes. -/
theorem statements_steady :
    (∀ lexemes, lexemes ≠ [] → SteadyAlone L (Statement.Aligned L) statement lexemes) ∧
      (∀ lexemes, SteadyAlone L (List.Forall₂ (Arm.Aligned L)) arms lexemes) ∧
      (∀ owner line lexemes,
        Steady L L (List.Forall₂ (Statement.Aligned L)) (body owner) line lexemes) ∧
      ∀ lexemes others, List.Forall₂ (Lexeme.Aligned L) lexemes others →
        OutcomesRelate (ReadError.Aligned L) (List.Forall₂ (Statement.Aligned L))
          (program lexemes) (program others) := by
  refine statement.mutual_induct _ _ _ _ ?nothing ?function ?declare ?conditional ?strayGuard
    ?strayFinal ?strayWhile ?loop ?returns ?expression ?guarded ?final ?noArms ?body
    ?missingWrapper ?noWrapper ?programEnd ?programStep
  case nothing => exact fun hne => (hne rfl).elim
  case function => exact fun _ _ hbody _ => function_steady hbody
  case declare => exact fun _ _ _ hkind _ => declare_steady hkind
  case conditional =>
    intro line rest hbody harms _ lexemes' hlexemes
    cases hlexemes using aligned_cases with
    | cons _ _ line' _ rest' hline hrest =>
      rw [statement, statement]
      exact guarded_alike (f := fun a as => Statement.conditional (a :: as) line)
        (g := fun a as => Statement.conditional (a :: as) line') hline hrest hbody harms
        fun _ _ _ _ ha has => .conditional (.cons ha has) hline
  case strayGuard | strayFinal | strayWhile =>
    intro line rest _ lexemes' hlexemes
    cases hlexemes using aligned_cases with
    | cons _ _ line' _ rest' hline hrest =>
      rw [statement, statement]
      exact ReadAlike.fail hline
  case loop => exact fun _ _ hbody _ => loop_steady hbody
  case returns =>
    intro line rest _ lexemes' hlexemes
    cases hlexemes using aligned_cases with
    | cons _ _ line' _ rest' hline hrest =>
      rw [statement, statement]
      have hvalue := expressions_steady.1 line rest line' rest' hline hrest
      exact hvalue.mapLe fun _ _ hexpr => .returns hexpr hline
  case expression =>
    intro token line rest h₁ h₂ h₃ h₄ h₅ h₆ h₇ h₈ _ lexemes' hlexemes
    cases hlexemes using aligned_cases with
    | cons _ _ line' _ rest' hline hrest =>
      rw [statement, statement]
      · have hvalue := expressions_steady.1 line (⟨token, line⟩ :: rest) line'
          (⟨token, line'⟩ :: rest') hline (.cons ⟨rfl, hline⟩ hrest)
        exact hvalue.mapLe fun _ _ hexpr => .expression hexpr hline
      all_goals assumption
  case guarded =>
    intro line rest hbody harms lexemes' hlexemes
    cases hlexemes using aligned_cases with
    | cons _ _ line' _ rest' hline hrest =>
      rw [arms, arms]
      exact guarded_alike (f := List.cons) (g := List.cons) hline hrest hbody harms
        fun _ _ _ _ ha has => .cons ha has
  case final =>
    intro line rest hbody lexemes' hlexemes
    cases hlexemes using aligned_cases with
    | cons _ _ line' _ rest' hline hrest =>
      rw [arms, arms]
      exact (hbody line' rest' hline hrest).mapLe fun _ _ hstatements =>
        .cons (.mk .none hstatements hline) .nil
  case noArms =>
    intro lexemes hbadlada hhynrei lexemes' hlexemes
    have hbadlada' := not_cons_of_aligned hlexemes hbadlada
    have hhynrei' := not_cons_of_aligned hlexemes hhynrei
    rw [arms.eq_3 _ hbadlada hhynrei, arms.eq_3 _ hbadlada' hhynrei']
    exact .ok ⟨.nil, hlexemes⟩
  case body => exact fun _ _ _ _ => body_steady
  case missingWrapper =>
    intro owner line token l rest hne line' lexemes' _ hlexemes
    cases hlexemes using aligned_cases with
    | cons _ _ l' _ rest' hl hrest =>
      rw [body.eq_2 _ _ _ _ _ hne, body.eq_2 _ _ _ _ _ hne]
      exact ReadAlike.fail hl
  case noWrapper =>
    intro owner line line' lexemes' hline hlexemes
    cases hlexemes
    rw [body, body]
    exact ReadAlike.fail hline
  case programEnd =>
    intro lexemes' hlexemes
    cases hlexemes
    rw [program]
    exact .ok .nil
  case programStep =>
    intro lexeme rest hone hothers lexemes' hlexemes
    cases hlexemes with
    | @cons _ lexeme' _ rest' hlexeme hrest =>
      rw [program, program]
      refine (hone (by simp) _ (.cons hlexeme hrest)).bind fun one one' hparsed => ?_
      refine (hothers one one'.rest hparsed.rest).bind fun ss ss' hss => ?_
      exact .ok (.cons hparsed.value hss)

end Reader
end ColonScript
