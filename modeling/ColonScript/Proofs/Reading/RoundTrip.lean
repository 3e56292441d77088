import ColonScript.Proofs.Reading.Lookahead
import ColonScript.Proofs.Reading.Printing

/-!
# Reading undoes writing

Lexemes that carry the tokens of a program, on whatever lines, are read as this program up to
lines (`program_of_tokens`).  The tokens of an expression can be derived as the expression by the
grammar, and a derivation is what is read unless the next token extends it.  In a program that can
be written no such token comes where one statement follows another.
-/

namespace ColonScript

open Grammar Reader

/-! ## The tokens of an expression derive it -/

namespace Grammar

variable {taken : List Lexeme} {e : Expr}

theorem Level.rank_next
    {level tighter : Level} (h : level.rank < tighter.rank) :
    level.next.rank = level.rank + 1 := by
  cases level with
  | primary =>
      cases tighter <;> simp [rank] at h
  | _ => rfl

theorem Level.rank_injective
    {a b : Level} (h : a.rank = b.rank) :
    a = b := by
  cases a <;> cases b <;> first | rfl | cases h

/-- What is derived at a level is derived at every looser one. -/
theorem Derives.looser
    {level looser : Level} (h : Derives (.expression level e) taken)
    (hle : looser.rank ≤ level.rank) :
    Derives (.expression looser e) taken := by
  by_cases heq : looser = level
  · rw [heq]
    exact h
  · have hlt : looser.rank < level.rank :=
      Nat.lt_of_le_of_ne hle fun hrank => heq (Level.rank_injective hrank)
    have hnext := Level.rank_next hlt
    exact .tighter (h.looser (by omega))
termination_by level.rank - looser.rank

end Grammar

/-- Lexemes carry these tokens, on whatever lines. -/
def Carry (lexemes : List Lexeme) (tokens : List Token) : Prop :=
  lexemes.map Lexeme.token = tokens

namespace Carry

variable {lexemes : List Lexeme} {token : Token} {tokens more : List Token}

theorem eq_nil
    (h : Carry lexemes []) :
    lexemes = [] :=
  List.map_eq_nil_iff.mp h

theorem exists_cons
    (h : Carry lexemes (token :: tokens)) :
    ∃ line rest, lexemes = ⟨token, line⟩ :: rest ∧ Carry rest tokens := by
  obtain ⟨⟨_, line⟩, rest, rfl, rfl, hrest⟩ := List.map_eq_cons_iff.mp h
  exact ⟨line, rest, rfl, hrest⟩

theorem exists_append
    (h : Carry lexemes (tokens ++ more)) :
    ∃ a b, lexemes = a ++ b ∧ Carry a tokens ∧ Carry b more :=
  List.map_eq_append_iff.mp h

theorem exists_concat
    (h : Carry lexemes (tokens ++ [token])) :
    ∃ a line, lexemes = a ++ [⟨token, line⟩] ∧ Carry a tokens := by
  obtain ⟨a, b, rfl, ha, hb⟩ := h.exists_append
  obtain ⟨line, rest, rfl, hrest⟩ := hb.exists_cons
  obtain rfl := hrest.eq_nil
  exact ⟨a, line, rfl, ha⟩

end Carry

/-- Tokens derive an expression at a level, up to lines, whatever lines they stand on. -/
def Writes (level : Level) (e : Expr) (tokens : List Token) : Prop :=
  ∀ lexemes, Carry lexemes tokens →
    ∃ e', e'.unlined = e.unlined ∧ Derives (.expression level e') lexemes

theorem Writes.parenthesized
    {level : Level} {e : Expr} {tokens : List Token} (h : Writes level e tokens)
    (required : Level) :
    Writes required e (ColonScript.parenthesized required level tokens) := by
  intro lexemes hlexemes
  unfold ColonScript.parenthesized at hlexemes
  split at hlexemes
  · obtain ⟨opened, rest, rfl, hrest⟩ := hlexemes.exists_cons
    obtain ⟨inside, closed, rfl, hinside⟩ := hrest.exists_concat
    obtain ⟨e', he', hderives⟩ := h inside hinside
    have hcomparison : Derives (.expression .comparison e') inside :=
      hderives.looser (Nat.zero_le _)
    have hgroup : Derives (.expression .primary e')
        (⟨.mark .leftParen, opened⟩ :: (inside ++ [⟨.mark .rightParen, closed⟩])) :=
      .group hcomparison
    refine ⟨e', he', hgroup.looser ?_⟩
    cases required <;> decide
  · next hrank =>
    obtain ⟨e', he', hderives⟩ := h lexemes hlexemes
    exact ⟨e', he', hderives.looser (by omega)⟩

/-- The tokens of an expression derive it at its own level. -/
theorem expressions_write :
    (∀ e : Expr, Writes e.level e e.tokens) ∧
      ∀ es : List Expr, es ≠ [] → ∀ lexemes, Carry lexemes (Expr.elementTokens es) →
        ∃ es', Expr.unlinedEach es' = Expr.unlinedEach es ∧ Derives (.elements es') lexemes := by
  refine Expr.tokens.mutual_induct _ _ ?literal ?name ?negate ?binary ?call ?array ?noElements
    ?element ?elements
  case literal =>
    intro value line lexemes hlexemes
    obtain ⟨line', rest, rfl, hrest⟩ := hlexemes.exists_cons
    obtain rfl := hrest.eq_nil
    exact ⟨.literal value line', rfl, .literal value⟩
  case name =>
    intro word line lexemes hlexemes
    obtain ⟨line', rest, rfl, hrest⟩ := hlexemes.exists_cons
    obtain rfl := hrest.eq_nil
    exact ⟨.name word line', rfl, .name⟩
  case negate =>
    intro operand line ih lexemes hlexemes
    obtain ⟨line', rest, rfl, hrest⟩ := hlexemes.exists_cons
    obtain ⟨operand', hoperand, hderives⟩ := ih.parenthesized .unary rest hrest
    refine ⟨.negate operand' line', ?_, .negate hderives⟩
    rw [Expr.unlined, Expr.unlined, hoperand]
  case binary =>
    intro op left right line ihl ihr lexemes hlexemes
    obtain ⟨a, rest, rfl, ha, hrest⟩ := hlexemes.exists_append
    obtain ⟨line', b, rfl, hb⟩ := hrest.exists_cons
    obtain ⟨left', hleft, hl⟩ := ihl.parenthesized (leftLevel op) a ha
    obtain ⟨right', hright, hr⟩ := ihr.parenthesized (rightLevel op) b hb
    refine ⟨.binary op left' right' line', ?_, .binary op hl hr⟩
    rw [Expr.unlined, Expr.unlined, hleft, hright]
  case call =>
    intro callee arguments line ih lexemes hlexemes
    obtain ⟨line', after, rfl, hafter⟩ := hlexemes.exists_cons
    obtain ⟨opened, rest, rfl, hrest⟩ := hafter.exists_cons
    obtain ⟨inside, closed, rfl, hinside⟩ := hrest.exists_concat
    by_cases hempty : arguments = []
    · subst hempty
      obtain rfl := hinside.eq_nil
      exact ⟨.call callee [] line', rfl, .emptyCall⟩
    · obtain ⟨es, hes, hderives⟩ := ih hempty inside hinside
      refine ⟨.call callee es line', ?_, .call hderives⟩
      rw [Expr.unlined, Expr.unlined, hes]
  case array =>
    intro elements line ih lexemes hlexemes
    obtain ⟨line', rest, rfl, hrest⟩ := hlexemes.exists_cons
    obtain ⟨inside, closed, rfl, hinside⟩ := hrest.exists_concat
    by_cases hempty : elements = []
    · subst hempty
      obtain rfl := hinside.eq_nil
      exact ⟨.array [] line', rfl, .emptyArray⟩
    · obtain ⟨es, hes, hderives⟩ := ih hempty inside hinside
      refine ⟨.array es line', ?_, .array hderives⟩
      rw [Expr.unlined, Expr.unlined, hes]
  case noElements => exact fun hempty => absurd rfl hempty
  case element =>
    intro e ih _ lexemes hlexemes
    obtain ⟨e', he', hderives⟩ := ih lexemes hlexemes
    refine ⟨[e'], ?_, .element (hderives.looser (Nat.zero_le _))⟩
    simp only [Expr.unlinedEach, he']
  case elements =>
    intro e es hes ihe ihes _ lexemes hlexemes
    rw [Expr.elementTokens.eq_3 _ _ hes] at hlexemes
    obtain ⟨a, rest, rfl, ha, hrest⟩ := hlexemes.exists_append
    obtain ⟨comma, b, rfl, hb⟩ := hrest.exists_cons
    obtain ⟨e', he', hfirst⟩ := ihe a ha
    obtain ⟨es', hes', hothers⟩ := ihes hes b hb
    refine ⟨e' :: es', ?_, .elements (hfirst.looser (Nat.zero_le _)) hothers⟩
    rw [Expr.unlinedEach, Expr.unlinedEach, he', hes']

/-- The tokens of an expression are read as it, as long as what comes next does not extend it. -/
theorem exists_reads_of_carry
    (e : Expr) {taken : List Lexeme} (h : Carry taken e.tokens) :
    ∃ e', e'.unlined = e.unlined ∧ ∀ rest, Apart taken rest → NoOperator rest →
      Reads (.comparison e') taken rest := by
  obtain ⟨e', he', hderives⟩ := expressions_write.1 e taken h
  exact ⟨e', he', fun rest => reads_of_derives (hderives.looser (Nat.zero_le _))⟩

theorem Expr.exists_starting
    (e : Expr) :
    ∃ token more, e.tokens = token :: more ∧ starting token = true := by
  have hcarry : Carry (e.tokens.map fun token => ⟨token, 0⟩) e.tokens := by
    simp [Carry, Function.comp_def]
  obtain ⟨e', -, hreads⟩ := exists_reads_of_carry e hcarry
  have hlast := hreads [] (.of_next?_ne (by simp)) (fun op => by simp)
  obtain ⟨token, line, after, htokens, hstart⟩ := hlast.exists_starting rfl
  rw [htokens] at hcarry
  exact ⟨token, after.map Lexeme.token, hcarry.symm, hstart⟩

/-! ## The tokens of a program are read as it -/

theorem listed_of_carry
    {ps : List Parameter} (hps : ps ≠ []) {lexemes : List Lexeme}
    (h : Carry lexemes (Parameter.listTokens ps)) :
    Listed ps lexemes := by
  fun_induction Parameter.listTokens ps generalizing lexemes with
  | case1 => exact absurd rfl hps
  | case2 p =>
      obtain ⟨l₁, a, rfl, ha⟩ := h.exists_cons
      obtain ⟨l₂, b, rfl, hb⟩ := ha.exists_cons
      obtain ⟨l₃, c, rfl, hc⟩ := hb.exists_cons
      obtain rfl := hc.eq_nil
      exact .last
  | case3 p ps hne ih =>
      obtain ⟨l₁, a, rfl, ha⟩ := h.exists_cons
      obtain ⟨l₂, b, rfl, hb⟩ := ha.exists_cons
      obtain ⟨l₃, c, rfl, hc⟩ := hb.exists_cons
      exact .more (ih hne hc)

theorem signature_of_carry
    {ps : List Parameter} {lexemes : List Lexeme}
    (h : Carry lexemes (.mark .leftParen :: Parameter.listTokens ps)) :
    Signature ps lexemes := by
  obtain ⟨opened, rest, rfl, hrest⟩ := h.exists_cons
  by_cases hps : ps = []
  · subst hps
    obtain ⟨closed, after, rfl, hafter⟩ := hrest.exists_cons
    obtain rfl := hafter.eq_nil
    exact .empty
  · exact .listed (listed_of_carry hps hrest)

/-- The token that a statement starts with extends nothing, or is a minus sign or a parenthesis. -/
theorem Statement.exists_first
    {s : Statement} (h : s.writable = true) :
    ∃ token more, s.tokens = token :: more ∧
      (token ∈ extending → token = .mark .minus ∨ token = .mark .leftParen) := by
  cases s with
  | declare | function | loop | returns =>
      exact ⟨_, _, by rw [Statement.tokens], by simp [extending]⟩
  | conditional arms line =>
      cases arms with
      | nil => cases h
      | cons arm later =>
          obtain ⟨guard, body, armLine⟩ := arm
          cases guard with
          | none => cases h
          | some guard => exact ⟨_, _, by rw [Statement.tokens], by simp [extending]⟩
  | expression value line =>
      obtain ⟨token, more, htokens, hstart⟩ := value.exists_starting
      refine ⟨token, more, by rw [Statement.tokens, htokens], fun hmem => ?_⟩
      simp only [extending, List.mem_cons, List.not_mem_nil, or_false] at hmem
      rcases hmem with rfl | rfl | rfl | rfl | rfl | rfl | rfl | rfl | rfl
      all_goals simp_all [starting]

/-- A statement ends where other lexemes begin. -/
structure Statement.Stops (s : Statement) (taken rest : List Lexeme) : Prop where
  noGuarded : next? rest ≠ some (.keyword .badlada)
  noFinal : next? rest ≠ some (.keyword .hynrei)
  apart : s.endsOpen = true → Apart taken rest
  noOperator : s.endsOpen = true → NoOperator rest

theorem mem_extending_opMark
    (op : BinaryOp) :
    Token.mark (opMark op) ∈ extending := by
  cases op <;> simp [extending, opMark]

theorem stops_of_next?
    (s : Statement) {taken rest : List Lexeme} (h : ∀ token ∈ extending, next? rest ≠ some token) :
    s.Stops taken rest :=
  ⟨h _ (by simp [extending]), h _ (by simp [extending]),
    fun _ => .of_next?_ne (h _ (by simp [extending])), fun _ op => h _ (mem_extending_opMark op)⟩

/-- A statement ends where one that it does not absorb begins. -/
theorem stops_of_not_absorbs
    {s t : Statement} (ht : t.writable = true) (habsorbs : s.absorbs t = false)
    {taken after : List Lexeme} {more : List Token} (htaken : Carry taken s.tokens)
    (hafter : Carry after (t.tokens ++ more)) (rest : List Lexeme) :
    s.Stops taken (after ++ rest) := by
  obtain ⟨first, others, htokens, hfirst⟩ := Statement.exists_first ht
  rw [htokens] at hafter
  obtain ⟨line, after, rfl, -⟩ := hafter.exists_cons
  have hminus (hopen : s.endsOpen = true) : first ≠ .mark .minus := by
    rintro rfl
    simp [Statement.absorbs, hopen, htokens] at habsorbs
  have hnext (token : Token) (hmem : token ∈ extending)
      (hnext : next? (⟨first, line⟩ :: after ++ rest) = some token) :
      first = token ∧ (token = .mark .minus ∨ token = .mark .leftParen) := by
    have heq : first = token := Option.some.inj hnext
    subst heq
    exact ⟨rfl, hfirst hmem⟩
  refine ⟨fun h => ?_, fun h => ?_, fun hopen name l hlast h => ?_, fun hopen op h => ?_⟩
  · simpa using (hnext _ (by simp [extending]) h).2
  · simpa using (hnext _ (by simp [extending]) h).2
  · obtain ⟨rfl, -⟩ := hnext _ (by simp [extending]) h
    have hname : s.tokens.getLast? = some (.identifier name) := by
      rw [← htaken, List.getLast?_map, hlast]
      rfl
    simp [Statement.absorbs, hopen, htokens, hname, Token.isIdentifier] at habsorbs
  · obtain ⟨rfl, hop | hop⟩ := hnext _ (mem_extending_opMark op) h
    · exact hminus hopen hop
    · cases op <;> cases hop

/-- A statement is read from its tokens. -/
def Statement.IsReadBack (s : Statement) : Prop :=
  s.writable = true → ∀ taken rest, Carry taken s.tokens → s.Stops taken rest →
    ∃ s', s'.unlined = s.unlined ∧ Forms (.statement s') taken rest

/-- The later arms of a conditional are read from their tokens. -/
def ArmsAreReadBack (arms : List Arm) : Prop :=
  Statement.armsWritable arms = true → ∀ taken rest, Carry taken (Statement.armTokens arms) →
    next? rest ≠ some (.keyword .badlada) → next? rest ≠ some (.keyword .hynrei) →
    ∃ arms', Statement.unlinedArms arms' = Statement.unlinedArms arms ∧
      Forms (.arms arms') taken rest

/-- Statements are read from their tokens. -/
def AreReadBack (ss : List Statement) : Prop :=
  Statement.programWritable ss = true →
    ∀ taken rest, Carry taken (Statement.programTokens ss) →
      (∀ token ∈ extending, next? rest ≠ some token) →
      ∃ ss', Statement.unlinedEach ss' = Statement.unlinedEach ss ∧
        Forms (.program ss') taken rest

theorem exists_body
    {ss : List Statement} (h : AreReadBack ss) (hss : Statement.programWritable ss = true)
    {taken : List Lexeme} (htaken : Carry taken (wrappedTokens (Statement.programTokens ss))) :
    ∃ opened inside ss', taken = ⟨.mark .colon, opened⟩ :: inside ∧
      Statement.unlinedEach ss' = Statement.unlinedEach ss ∧
      ∀ rest, Forms (.body ss') taken rest := by
  obtain ⟨opened, after, rfl, hafter⟩ := htaken.exists_cons
  obtain ⟨inside, closed, rfl, hinside⟩ := hafter.exists_concat
  obtain ⟨ss', hss', hforms⟩ := h hss inside [] hinside (by simp)
  refine ⟨opened, _, ss', rfl, hss', fun rest => ?_⟩
  exact .wrapped (hforms.endsAlike (EndsAlike.colon closed))

theorem exists_guarded
    {guard : Expr} {body : List Statement} {later : List Arm} (hbody : AreReadBack body)
    (hlater : ArmsAreReadBack later) (hwritable : Statement.programWritable body = true)
    (harms : Statement.armsWritable later = true) {taken rest : List Lexeme}
    (htaken : Carry taken (guard.tokens ++ (wrappedTokens (Statement.programTokens body) ++
      Statement.armTokens later)))
    (hguarded : next? rest ≠ some (.keyword .badlada))
    (hfinal : next? rest ≠ some (.keyword .hynrei)) :
    ∃ guard' body' later' a b c, taken = a ++ (b ++ c) ∧ guard'.unlined = guard.unlined ∧
      Statement.unlinedEach body' = Statement.unlinedEach body ∧
      Statement.unlinedArms later' = Statement.unlinedArms later ∧
      Reads (.comparison guard') a (b ++ (c ++ rest)) ∧ Forms (.body body') b (c ++ rest) ∧
      Forms (.arms later') c rest := by
  obtain ⟨a, after, rfl, ha, hafter⟩ := htaken.exists_append
  obtain ⟨b, c, rfl, hb, hc⟩ := hafter.exists_append
  obtain ⟨guard', hguard', hreads⟩ := exists_reads_of_carry guard ha
  obtain ⟨opened, inside, body', rfl, hbody', hforms⟩ := exists_body hbody hwritable hb
  obtain ⟨later', hlater', hothers⟩ := hlater harms c rest hc hguarded hfinal
  refine ⟨guard', body', later', a, _, c, rfl, hguard', hbody', hlater', ?_, hforms _, hothers⟩
  exact hreads _ (.of_next?_ne (by simp)) (noOperator_mark (fun op => by cases op <;> decide) _ _)

theorem statements_are_read_back :
    (∀ s, Statement.IsReadBack s) ∧ (∀ arms, ArmsAreReadBack arms) ∧ ∀ ss, AreReadBack ss := by
  refine Statement.tokens.mutual_induct _ _ _ ?declare ?function ?conditional ?unguarded ?loop
    ?returns ?expression ?done ?cons ?noArms ?guarded ?final
  case declare =>
    intro kind name value line hwritable taken rest htaken hstops
    obtain ⟨line', a, rfl, ha⟩ := htaken.exists_cons
    obtain ⟨l₁, b, rfl, hb⟩ := ha.exists_cons
    obtain ⟨l₂, c, rfl, hc⟩ := hb.exists_cons
    obtain ⟨value', hvalue, hreads⟩ := exists_reads_of_carry value hc
    have hkind : kind ≠ .fn := of_decide_eq_true hwritable
    refine ⟨.declare kind name value' line', ?_, .declare hkind (hreads rest ?_ ?_)⟩
    · rw [Statement.unlined, Statement.unlined, hvalue]
    · exact (hstops.apart rfl).tail.tail.tail
    · exact hstops.noOperator rfl
  case function =>
    intro name parameters body line ih hwritable taken rest htaken hstops
    obtain ⟨line', a, rfl, ha⟩ := htaken.exists_cons
    obtain ⟨l₁, b, rfl, hb⟩ := ha.exists_cons
    obtain ⟨l₂, c, rfl, hc⟩ := hb.exists_cons
    rw [← List.cons_append] at hc
    obtain ⟨signature, content, rfl, hsignature, hcontent⟩ := hc.exists_append
    obtain ⟨opened, inside, body', rfl, hbody', hforms⟩ := exists_body ih hwritable hcontent
    refine ⟨.function name parameters body' line', ?_,
      .function (signature_of_carry hsignature) (hforms rest)⟩
    rw [Statement.unlined, Statement.unlined, hbody']
  case conditional =>
    intro guard body line later line' ihb iha hwritable taken rest htaken hstops
    rw [Statement.writable, Bool.and_eq_true] at hwritable
    obtain ⟨line'', after, rfl, hafter⟩ := htaken.exists_cons
    obtain ⟨guard', body', later', a, b, c, rfl, hguard', hbody', hlater', hreads, hforms,
        hothers⟩ :=
      exists_guarded ihb iha hwritable.1 hwritable.2 hafter hstops.noGuarded hstops.noFinal
    refine ⟨.conditional (.mk (some guard') body' line'' :: later') line'', ?_,
      .conditional hreads hforms hothers⟩
    simp only [Statement.unlined, Statement.unlinedArms, Option.map_some, hguard', hbody', hlater']
  case unguarded =>
    intro arms line hguard hwritable
    rw [Statement.writable.eq_4 _ _ hguard] at hwritable
    cases hwritable
  case loop =>
    intro counter first last body line ih hwritable taken rest htaken hstops
    obtain ⟨line', after, rfl, hafter⟩ := htaken.exists_cons
    obtain ⟨a, afterFirst, rfl, ha, hafterFirst⟩ := hafter.exists_append
    obtain ⟨l₁, afterHaduh, rfl, hafterHaduh⟩ := hafterFirst.exists_cons
    obtain ⟨b, afterLast, rfl, hb, hafterLast⟩ := hafterHaduh.exists_append
    obtain ⟨l₂, afterDa, rfl, hafterDa⟩ := hafterLast.exists_cons
    obtain ⟨l₃, content, rfl, hcontent⟩ := hafterDa.exists_cons
    obtain ⟨first', hfirst', hfirst⟩ := exists_reads_of_carry first ha
    obtain ⟨last', hlast', hlast⟩ := exists_reads_of_carry last hb
    obtain ⟨opened, inside, body', rfl, hbody', hforms⟩ := exists_body ih hwritable hcontent
    refine ⟨.loop counter first' last' body' line', ?_, .loop (hfirst _ ?_ ?_) (hlast _ ?_ ?_)
      (hforms rest)⟩
    · rw [Statement.unlined, Statement.unlined, hfirst', hlast', hbody']
    · exact .of_next?_ne (by simp)
    · exact fun op => by simp
    · exact .of_next?_ne (by simp)
    · exact fun op => by simp
  case returns =>
    intro value line _ taken rest htaken hstops
    obtain ⟨line', a, rfl, ha⟩ := htaken.exists_cons
    obtain ⟨value', hvalue, hreads⟩ := exists_reads_of_carry value ha
    refine ⟨.returns value' line', ?_, .returns (hreads rest ?_ ?_)⟩
    · rw [Statement.unlined, Statement.unlined, hvalue]
    · exact (hstops.apart rfl).tail
    · exact hstops.noOperator rfl
  case expression =>
    intro value line _ taken rest htaken hstops
    obtain ⟨value', hvalue, hreads⟩ := exists_reads_of_carry value htaken
    have hcomparison := hreads rest (hstops.apart rfl) (hstops.noOperator rfl)
    obtain ⟨token, line', after, rfl, -⟩ := hcomparison.exists_starting rfl
    refine ⟨.expression value' line', ?_, .expression hcomparison⟩
    rw [Statement.unlined, Statement.unlined, hvalue]
  case done =>
    intro _ taken rest htaken _
    obtain rfl := htaken.eq_nil
    exact ⟨[], rfl, .done⟩
  case cons =>
    intro s ss ihs ihss hwritable taken rest htaken hrest
    simp only [Statement.programWritable, Bool.and_eq_true] at hwritable
    obtain ⟨⟨hs, habsorbs⟩, hss⟩ := hwritable
    obtain ⟨a, b, rfl, ha, hb⟩ := htaken.exists_append
    have hstops : s.Stops a (b ++ rest) := by
      cases ss with
      | nil =>
          obtain rfl := hb.eq_nil
          exact stops_of_next? s hrest
      | cons t ss =>
          simp only [Statement.programWritable, Bool.and_eq_true] at hss
          exact stops_of_not_absorbs hss.1.1 (by simpa using habsorbs) ha hb rest
    obtain ⟨s', hs', hfirst⟩ := ihs hs a _ ha hstops
    obtain ⟨ss', hss', hothers⟩ := ihss hss b rest hb hrest
    refine ⟨s' :: ss', ?_, .cons hfirst hothers⟩
    rw [Statement.unlinedEach, Statement.unlinedEach, hs', hss']
  case noArms =>
    intro _ taken rest htaken hguarded hfinal
    obtain rfl := htaken.eq_nil
    exact ⟨[], rfl, .noArms hguarded hfinal⟩
  case guarded =>
    intro guard body line later ihb iha hwritable taken rest htaken hguarded hfinal
    rw [Statement.armsWritable, Bool.and_eq_true] at hwritable
    obtain ⟨line', after, rfl, hafter⟩ := htaken.exists_cons
    obtain ⟨guard', body', later', a, b, c, rfl, hguard', hbody', hlater', hreads, hforms,
        hothers⟩ :=
      exists_guarded ihb iha hwritable.1 hwritable.2 hafter hguarded hfinal
    refine ⟨.mk (some guard') body' line' :: later', ?_, .guarded hreads hforms hothers⟩
    simp only [Statement.unlinedArms, Option.map_some, hguard', hbody', hlater']
  case final =>
    intro body line later ihb _ hwritable taken rest htaken _ _
    rw [Statement.armsWritable, Bool.and_eq_true, List.isEmpty_iff] at hwritable
    obtain ⟨rfl, hbody⟩ := hwritable
    obtain ⟨line', after, rfl, hafter⟩ := htaken.exists_cons
    rw [Statement.armTokens, List.append_nil] at hafter
    obtain ⟨opened, inside, body', rfl, hbody', hforms⟩ := exists_body ihb hbody hafter
    refine ⟨[.mk none body' line'], ?_, .final (hforms rest)⟩
    simp only [Statement.unlinedArms, Option.map_none, hbody']

/-- Reading undoes writing.  Lexemes that carry the tokens of a program that can be written, on
whatever lines, are read to the end as this program, up to the lines in it. -/
theorem program_of_tokens
    {ss : List Statement} (hss : Statement.programWritable ss = true) {lexemes : List Lexeme}
    (hlexemes : lexemes.map Lexeme.token = Statement.programTokens ss) :
    ∃ ss', Reader.program lexemes = .ok ss' ∧
      Statement.unlinedEach ss' = Statement.unlinedEach ss := by
  obtain ⟨ss', hunlined, hforms⟩ :=
    statements_are_read_back.2.2 ss hss lexemes [] hlexemes (by simp)
  have hread := hforms.isFormed (fun _ _ h => h) rfl
  rw [List.append_nil] at hread
  exact ⟨ss', hread, hunlined⟩

/-- A loop in a function, a conditional after it, and operands that need parentheses.  The
statement after the conditional starts with a parenthesis, which nothing before it absorbs. -/
theorem nested_program_of_tokens :
    let sum : Expr := .binary .add (.name "a" 0) (.call "g" [.name "b" 0] 0) 0
    let product : Expr := .binary .mul sum (.negate sum 0) 0
    let ss : List Statement :=
      [.function "f" [⟨.fn, "g"⟩, ⟨.num, "a"⟩]
        [.loop "b" (.name "a" 0) product
          [.declare .arr "c" (.array [sum, .literal (.text "d") 0] 0) 0] 0] 0,
        .conditional
          [.mk (some (.binary .equal product (.literal (.boolean true) 0) 0)) [] 0,
            .mk none [.returns (.binary .sub sum sum 0) 0] 0] 0,
        .expression (.binary .mod (.binary .sub sum product 0) (.name "e" 0) 0) 0]
    let lexemes : List Lexeme := (Statement.programTokens ss).map fun token => ⟨token, 7⟩
    Statement.programWritable ss = true ∧
      lexemes.map Lexeme.token = Statement.programTokens ss ∧
      ∃ ss', Reader.program lexemes = .ok ss' ∧
        Statement.unlinedEach ss' = Statement.unlinedEach ss := by
  intro sum product ss lexemes
  have hss : Statement.programWritable ss = true := by cbv
  have hlexemes : lexemes.map Lexeme.token = Statement.programTokens ss := by
    simp [lexemes, Function.comp_def]
  exact ⟨hss, hlexemes, program_of_tokens hss hlexemes⟩

end ColonScript
