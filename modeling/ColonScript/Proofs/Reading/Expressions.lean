import ColonScript.Proofs.Reading.Phrase

/-!
# The expression readers follow their rules

What a reader takes off the front of a list it takes by the rules of expressions
(`expressions_take`), and whatever the rules allow is read (`Reads.isRead`).  The line that a
reader is handed plays no part in what it gives.
-/

namespace ColonScript
namespace Reader

variable {α β : Type} {n : Nat}

theorem exists_ok_of_bind_eq_ok
    {x : Except ReadError α} {f : α → Except ReadError β} {b : β} (h : x >>= f = .ok b) :
    ∃ a, x = .ok a ∧ f a = .ok b := by
  cases x with
  | error e => cases h
  | ok a => exact ⟨a, rfl, h⟩

/-- What a reader takes, it takes by the rules. -/
def Takes (phrase : α → Phrase) (lexemes : List Lexeme)
    (outcome : Except ReadError (Parsed α n)) : Prop :=
  ∀ p, outcome = .ok p →
    ∃ taken, lexemes = taken ++ p.rest ∧ Reads (phrase p.value) taken p.rest

theorem comparison_takes
    {line : Nat} {lexemes : List Lexeme} (hleft : Takes .sum lexemes (sum line lexemes))
    (hright : ∀ (left : Parsed Expr lexemes.length) (opLine : Nat) (rest : List Lexeme),
      left.rest = ⟨.mark .equalEqual, opLine⟩ :: rest → Takes .sum rest (sum opLine rest)) :
    Takes .comparison lexemes (comparison line lexemes) := by
  intro p hp
  rw [comparison] at hp
  obtain ⟨left, hl, hp⟩ := exists_ok_of_bind_eq_ok hp
  obtain ⟨a, hlexemes, ha⟩ := hleft left hl
  split at hp
  · next opLine rest hrest =>
    obtain ⟨right, hr, hp⟩ := exists_ok_of_bind_eq_ok hp
    obtain ⟨b, hb, hbreads⟩ := hright left opLine rest hrest right hr
    cases hp
    rw [hrest, hb] at ha hlexemes
    have hall : lexemes = (a ++ ⟨.mark .equalEqual, opLine⟩ :: b) ++ right.rest := by
      rw [hlexemes, List.append_assoc, List.cons_append]
    exact ⟨_, hall, .compared ha hbreads⟩
  · next hnext =>
    cases hp
    have hend := next?_ne_of_forall_cons_ne hnext
    exact ⟨a, hlexemes, .uncompared ha hend⟩

/-- An operand and what follows it, at either level of precedence and with or without an
operator `before` it. -/
theorem Takes.chain
    (before : List Lexeme) {operand whole : Expr → Phrase} (tail : Expr → Expr → Phrase)
    (rule : ∀ {l e : Expr} {a b rest : List Lexeme},
      Reads (operand l) a (b ++ rest) → Reads (tail l e) b rest →
        Reads (whole e) (before ++ (a ++ b)) rest)
    {lexemes : List Lexeme} {m : Nat} {first : Except ReadError (Parsed Expr n)}
    {others : (p : Parsed Expr n) → Except ReadError (Parsed Expr (p.rest.length + 1))}
    {hle : ∀ p : Parsed Expr n, p.rest.length + 1 ≤ m} (hfirst : Takes operand lexemes first)
    (hothers : ∀ p : Parsed Expr n, Takes (tail p.value) p.rest (others p)) :
    Takes whole (before ++ lexemes)
      (do let p ← first; let all ← others p; return all.mapLe id (hle p)) := by
  intro p hp
  obtain ⟨first, hf, hp⟩ := exists_ok_of_bind_eq_ok hp
  obtain ⟨all, hall, hp⟩ := exists_ok_of_bind_eq_ok hp
  obtain ⟨a, hlexemes, ha⟩ := hfirst first hf
  obtain ⟨b, hb, hbreads⟩ := hothers first all hall
  cases hp
  rw [hb] at ha hlexemes
  have hall : before ++ lexemes = (before ++ (a ++ b)) ++ all.rest := by
    rw [hlexemes, List.append_assoc, List.append_assoc]
  exact ⟨_, hall, rule ha hbreads⟩

theorem sum_takes
    {line : Nat} {lexemes : List Lexeme} (hfirst : Takes .product lexemes (product line lexemes))
    (htail : ∀ first : Parsed Expr lexemes.length,
      Takes (.sumTail first.value) first.rest (sumTail first.value first.rest)) :
    Takes .sum lexemes (sum line lexemes) := by
  rw [sum]
  exact Takes.chain [] .sumTail .sum hfirst htail

theorem product_takes
    {line : Nat} {lexemes : List Lexeme} (hfirst : Takes .factor lexemes (factor line lexemes))
    (htail : ∀ first : Parsed Expr lexemes.length,
      Takes (.productTail first.value) first.rest (productTail first.value first.rest)) :
    Takes .product lexemes (product line lexemes) := by
  rw [product]
  exact Takes.chain [] .productTail .product hfirst htail

theorem sumTail_takes
    {left : Expr} {token : Token} {opLine : Nat} {rest : List Lexeme} {op : BinaryOp}
    (hop : sumOp? token = some op) (hright : Takes .product rest (product opLine rest))
    (htail : ∀ right : Parsed Expr rest.length,
      Takes (.sumTail (.binary op left right.value opLine)) right.rest
        (sumTail (.binary op left right.value opLine) right.rest)) :
    Takes (.sumTail left) (⟨token, opLine⟩ :: rest) (sumTail left (⟨token, opLine⟩ :: rest)) := by
  rw [sumTail, hop]
  exact Takes.chain [⟨token, opLine⟩] (fun r => .sumTail (.binary op left r opLine))
    (.sumStep hop) hright htail

theorem productTail_takes
    {left : Expr} {token : Token} {opLine : Nat} {rest : List Lexeme} {op : BinaryOp}
    (hop : productOp? token = some op) (hright : Takes .factor rest (factor opLine rest))
    (htail : ∀ right : Parsed Expr rest.length,
      Takes (.productTail (.binary op left right.value opLine)) right.rest
        (productTail (.binary op left right.value opLine) right.rest)) :
    Takes (.productTail left) (⟨token, opLine⟩ :: rest)
      (productTail left (⟨token, opLine⟩ :: rest)) := by
  rw [productTail, hop]
  exact Takes.chain [⟨token, opLine⟩] (fun r => .productTail (.binary op left r opLine))
    (.productStep hop) hright htail

/-- A reader whose rule puts one list in front of what another reader takes. -/
theorem Takes.map
    (before : List Lexeme) {phrase : α → Phrase} {whole : β → Phrase} {f : α → β}
    (rule : ∀ {x : α} {a rest : List Lexeme},
      Reads (phrase x) a rest → Reads (whole (f x)) (before ++ a) rest)
    {lexemes : List Lexeme} {m : Nat} {outcome : Except ReadError (Parsed α n)} {hle : n ≤ m}
    (h : Takes phrase lexemes outcome) :
    Takes whole (before ++ lexemes) (do let p ← outcome; return p.mapLe f hle) := by
  intro p hp
  obtain ⟨q, hq, hp⟩ := exists_ok_of_bind_eq_ok hp
  obtain ⟨a, hlexemes, ha⟩ := h q hq
  cases hp
  have hall : before ++ lexemes = (before ++ a) ++ q.rest := by
    rw [hlexemes, List.append_assoc]
  exact ⟨_, hall, rule ha⟩

theorem group_takes
    {line l : Nat} {rest : List Lexeme} (hinner : Takes .comparison rest (comparison l rest)) :
    Takes .primary (⟨.mark .leftParen, l⟩ :: rest)
      (primary line (⟨.mark .leftParen, l⟩ :: rest)) := by
  intro p hp
  rw [primary] at hp
  obtain ⟨inner, hi, hp⟩ := exists_ok_of_bind_eq_ok hp
  obtain ⟨a, hrest, ha⟩ := hinner inner hi
  split at hp
  · next closed after hafter =>
    cases hp
    rw [hafter] at ha hrest
    have hall : rest = (a ++ [⟨.mark .rightParen, closed⟩]) ++ after := by
      rw [List.append_assoc, List.singleton_append]
      exact hrest
    exact ⟨_, congrArg (⟨.mark .leftParen, l⟩ :: ·) hall, .grouped ha⟩
  · cases hp
  · cases hp

theorem itemsTail_takes
    {enclosure : Enclosure} {line : Nat} {lexemes : List Lexeme}
    (hitem : Takes .comparison lexemes (comparison line lexemes))
    (hothers : ∀ (item : Parsed Expr lexemes.length) (commaLine : Nat) (after : List Lexeme),
      item.rest = ⟨.mark .comma, commaLine⟩ :: after →
        Takes (.itemsTail enclosure) after (itemsTail enclosure line after)) :
    Takes (.itemsTail enclosure) lexemes (itemsTail enclosure line lexemes) := by
  intro p hp
  rw [itemsTail] at hp
  obtain ⟨item, hi, hp⟩ := exists_ok_of_bind_eq_ok hp
  obtain ⟨a, hlexemes, ha⟩ := hitem item hi
  split at hp
  · next commaLine after hafter =>
    obtain ⟨others, ho, hp⟩ := exists_ok_of_bind_eq_ok hp
    obtain ⟨b, hb, hbreads⟩ := hothers item commaLine after hafter others ho
    cases hp
    rw [hafter, hb] at ha hlexemes
    have hall : lexemes = (a ++ ⟨.mark .comma, commaLine⟩ :: b) ++ others.rest := by
      rw [hlexemes, List.append_assoc, List.cons_append]
    exact ⟨_, hall, .moreItems ha hbreads⟩
  · next token l after _ hafter =>
    split at hp
    · next hclosing =>
      cases hp
      rw [hafter, hclosing] at ha hlexemes
      have hall : lexemes = (a ++ [⟨.mark enclosure.closing, l⟩]) ++ after := by
        rw [hlexemes, List.append_assoc, List.singleton_append]
      exact ⟨_, hall, .lastItem ha⟩
    · cases hp
  · cases hp

/-- Each reader takes by the rules. -/
theorem expressions_take :
    (∀ line lexemes, Takes .comparison lexemes (comparison line lexemes)) ∧
      (∀ line lexemes, Takes .sum lexemes (sum line lexemes)) ∧
      (∀ left lexemes, Takes (.sumTail left) lexemes (sumTail left lexemes)) ∧
      (∀ line lexemes, Takes .product lexemes (product line lexemes)) ∧
      (∀ left lexemes, Takes (.productTail left) lexemes (productTail left lexemes)) ∧
      (∀ line lexemes, Takes .factor lexemes (factor line lexemes)) ∧
      (∀ line lexemes, Takes .primary lexemes (primary line lexemes)) ∧
      (∀ enclosure line lexemes,
        Takes (.items enclosure) lexemes (items enclosure line lexemes)) ∧
      ∀ enclosure line lexemes,
        Takes (.itemsTail enclosure) lexemes (itemsTail enclosure line lexemes) := by
  refine comparison.mutual_induct _ _ _ _ _ _ _ _ _ ?comparison ?sum ?sumTailNil ?sumTailEnd
    ?sumTailStep ?product ?productTailNil ?productTailEnd ?productTailStep ?negated ?plain
    ?noPrimary ?number ?text ?boolean ?group ?array ?call ?name ?strayPrimary ?itemsNil ?noItems
    ?someItems ?itemsTail
  case comparison => exact fun _ _ => comparison_takes
  case sum => exact fun _ _ => sum_takes
  case sumTailNil =>
    intro left p hp
    rw [sumTail] at hp
    cases hp
    exact ⟨[], rfl, .sumEnd rfl⟩
  case sumTailEnd =>
    intro left token opLine rest hop p hp
    rw [sumTail, hop] at hp
    cases hp
    exact ⟨[], rfl, .sumEnd hop⟩
  case sumTailStep => exact fun _ _ _ _ _ => sumTail_takes
  case product => exact fun _ _ => product_takes
  case productTailNil =>
    intro left p hp
    rw [productTail] at hp
    cases hp
    exact ⟨[], rfl, .productEnd rfl⟩
  case productTailEnd =>
    intro left token opLine rest hop p hp
    rw [productTail, hop] at hp
    cases hp
    exact ⟨[], rfl, .productEnd hop⟩
  case productTailStep => exact fun _ _ _ _ _ => productTail_takes
  case negated =>
    intro line minusLine rest hoperand
    rw [factor]
    exact Takes.map [⟨.mark .minus, minusLine⟩] .negated hoperand
  case plain =>
    intro line lexemes hne hprimary p hp
    rw [factor.eq_def] at hp
    split at hp
    · next minusLine rest => exact (hne minusLine rest rfl).elim
    · obtain ⟨a, hlexemes, ha⟩ := hprimary p hp
      exact ⟨a, hlexemes, .plain ha⟩
  case noPrimary =>
    intro line p hp
    rw [primary] at hp
    cases hp
  case number =>
    intro line value l rest p hp
    rw [primary] at hp
    cases hp
    exact ⟨_, rfl, .number⟩
  case text =>
    intro line content l rest p hp
    rw [primary] at hp
    cases hp
    exact ⟨_, rfl, .text⟩
  case boolean =>
    intro line value l rest p hp
    rw [primary] at hp
    cases hp
    exact ⟨_, rfl, .boolean⟩
  case group => exact fun _ _ _ => group_takes
  case array =>
    intro line l rest hitems
    rw [primary]
    exact Takes.map [⟨.mark .leftBracket, l⟩] .array hitems
  case call =>
    intro line name l opened rest hitems
    rw [primary]
    exact Takes.map [⟨.identifier name, l⟩, ⟨.mark .leftParen, opened⟩] .call hitems
  case name =>
    intro line name l rest hne p hp
    have hend := next?_ne_of_forall_cons_ne hne
    rw [primary] at hp
    · cases hp
      exact ⟨_, rfl, .name hend⟩
    · exact hne
  case strayPrimary =>
    intro line token l rest h₁ h₂ h₃ h₄ h₅ h₆ h₇ p hp
    rw [primary] at hp
    · cases hp
    all_goals assumption
  case itemsNil =>
    intro enclosure line htail p hp
    rw [items] at hp
    obtain ⟨a, hlexemes, ha⟩ := htail p hp
    exact ⟨a, hlexemes, .someItems ha⟩
  case noItems =>
    intro enclosure line l rest p hp
    rw [items, if_pos rfl] at hp
    cases hp
    exact ⟨_, rfl, .noItems⟩
  case someItems =>
    intro enclosure line token l rest hne htail p hp
    rw [items, if_neg hne] at hp
    obtain ⟨a, hlexemes, ha⟩ := htail p hp
    exact ⟨a, hlexemes, .someItems ha⟩
  case itemsTail => exact fun _ _ _ => itemsTail_takes

/-- A reader gives `x` and leaves `rest`. -/
def Gives (outcome : Except ReadError (Parsed α n)) (x : α) (rest : List Lexeme) : Prop :=
  ∃ p, outcome = .ok p ∧ p.value = x ∧ p.rest = rest

namespace Gives

variable {x : α} {y : β} {rest other : List Lexeme} {m : Nat}

theorem ok
    (hrest : rest.length < n) :
    Gives (.ok ⟨x, rest, hrest⟩) x rest :=
  ⟨_, rfl, rfl, rfl⟩

theorem bind
    {outcome : Except ReadError (Parsed α n)} {f : Parsed α n → Except ReadError (Parsed β m)}
    (h : Gives outcome x rest)
    (hf : ∀ hrest : rest.length < n, Gives (f ⟨x, rest, hrest⟩) y other) :
    Gives (outcome >>= f) y other := by
  obtain ⟨p, rfl, rfl, rfl⟩ := h
  exact hf p.shorter

theorem map
    {outcome : Except ReadError (Parsed α n)} {f : α → β} {hle : n ≤ m} (h : Gives outcome x rest) :
    Gives (do let p ← outcome; return p.mapLe f hle) (f x) rest := by
  obtain ⟨p, rfl, rfl, rfl⟩ := h
  exact ⟨_, rfl, rfl, rfl⟩

end Gives

/-- Reading from `lexemes` gives the phrase and leaves `rest`. -/
def Phrase.IsRead (lexemes rest : List Lexeme) : Phrase → Prop
  | comparison e => ∀ line, Gives (Reader.comparison line lexemes) e rest
  | sum e => ∀ line, Gives (Reader.sum line lexemes) e rest
  | sumTail left e => Gives (Reader.sumTail left lexemes) e rest
  | product e => ∀ line, Gives (Reader.product line lexemes) e rest
  | productTail left e => Gives (Reader.productTail left lexemes) e rest
  | factor e => ∀ line, Gives (Reader.factor line lexemes) e rest
  | primary e => ∀ line, Gives (Reader.primary line lexemes) e rest
  | items enclosure es => ∀ line, Gives (Reader.items enclosure line lexemes) es rest
  | itemsTail enclosure es => ∀ line, Gives (Reader.itemsTail enclosure line lexemes) es rest

theorem gives_uncompared
    {line : Nat} {lexemes rest : List Lexeme} {e : Expr} (hleft : Gives (sum line lexemes) e rest)
    (hnext : next? rest ≠ some (.mark .equalEqual)) :
    Gives (comparison line lexemes) e rest := by
  rw [comparison]
  refine hleft.bind fun hrest => ?_
  split
  · next opLine mid hmid =>
    rw [show rest = _ from hmid] at hnext
    exact (hnext rfl).elim
  · exact .ok hrest

theorem gives_sumEnd
    {left : Expr} {rest : List Lexeme} (h : (next? rest).bind sumOp? = none) :
    Gives (sumTail left rest) left rest := by
  cases rest with
  | nil => exact ⟨_, by rw [sumTail], rfl, rfl⟩
  | cons lexeme rest =>
      rw [next?_cons, Option.bind_some] at h
      exact ⟨_, by rw [sumTail, h], rfl, rfl⟩

theorem gives_productEnd
    {left : Expr} {rest : List Lexeme} (h : (next? rest).bind productOp? = none) :
    Gives (productTail left rest) left rest := by
  cases rest with
  | nil => exact ⟨_, by rw [productTail], rfl, rfl⟩
  | cons lexeme rest =>
      rw [next?_cons, Option.bind_some] at h
      exact ⟨_, by rw [productTail, h], rfl, rfl⟩

/-- The rules are followed: what they allow is read. -/
theorem Reads.isRead
    {phrase : Phrase} {taken rest : List Lexeme} (h : Reads phrase taken rest) :
    phrase.IsRead (taken ++ rest) rest := by
  induction h with
  | @compared l r a b rest opLine _ _ ihl ihr =>
      intro line
      rw [List.append_assoc, List.cons_append, comparison]
      exact (ihl line).bind fun _ => (ihr opLine).map
  | uncompared _ hnext ih => exact fun line => gives_uncompared (ih line) hnext
  | sum _ _ ihl ihr =>
      intro line
      rw [List.append_assoc, Reader.sum]
      exact (ihl line).bind fun _ => ihr.map
  | sumEnd hnext => exact gives_sumEnd hnext
  | @sumStep token op opLine l r e a b rest hop _ _ ihl ihr =>
      rw [List.cons_append, List.append_assoc, Phrase.IsRead, sumTail, hop]
      exact (ihl opLine).bind fun _ => ihr.map
  | product _ _ ihl ihr =>
      intro line
      rw [List.append_assoc, Reader.product]
      exact (ihl line).bind fun _ => ihr.map
  | productEnd hnext => exact gives_productEnd hnext
  | @productStep token op opLine l r e a b rest hop _ _ ihl ihr =>
      rw [List.cons_append, List.append_assoc, Phrase.IsRead, productTail, hop]
      exact (ihl opLine).bind fun _ => ihr.map
  | @negated e minusLine a rest _ ih =>
      intro line
      rw [List.cons_append, factor]
      exact (ih minusLine).map
  | plain hprimary ih =>
      intro line
      obtain ⟨token, l, after, rfl, hstart⟩ := hprimary.exists_starting rfl
      rw [List.cons_append, factor]
      · exact ih line
      · intro minusLine _ hcons
        cases hcons
        cases hprimary
  | number =>
      intro line
      rw [List.singleton_append, primary]
      exact .ok _
  | text =>
      intro line
      rw [List.singleton_append, primary]
      exact .ok _
  | boolean =>
      intro line
      rw [List.singleton_append, primary]
      exact .ok _
  | @grouped e l closed a rest _ ih =>
      intro line
      rw [List.cons_append, List.append_assoc, List.singleton_append, primary]
      exact (ih l).bind fun _ => ⟨_, rfl, rfl, rfl⟩
  | @array es l a rest _ ih =>
      intro line
      rw [List.cons_append, primary]
      exact (ih l).map
  | @call name es l opened a rest _ ih =>
      intro line
      rw [List.cons_append, List.cons_append, primary]
      exact (ih l).map
  | @name name l rest hnext =>
      intro line
      rw [List.singleton_append, primary]
      · exact .ok _
      · rintro opened after rfl
        exact hnext rfl
  | noItems =>
      intro line
      rw [List.singleton_append, items, if_pos rfl]
      exact .ok _
  | @someItems enclosure es a rest htail ih =>
      intro line
      obtain ⟨token, l, after, rfl, hstart⟩ := htail.exists_starting rfl
      have hne : token ≠ .mark enclosure.closing := by
        rintro rfl
        cases enclosure <;> cases hstart
      rw [List.cons_append, items, if_neg hne]
      exact ih line
  | @lastItem enclosure e l a rest _ ih =>
      intro line
      rw [List.append_assoc, List.singleton_append, itemsTail]
      refine (ih line).bind fun _ => ?_
      cases enclosure <;> exact .ok _
  | @moreItems enclosure e es l a b rest _ _ ihl ihr =>
      intro line
      rw [List.append_assoc, List.cons_append, itemsTail]
      exact (ihl line).bind fun _ => (ihr line).map

end Reader
end ColonScript
