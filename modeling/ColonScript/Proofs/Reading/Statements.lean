import ColonScript.Proofs.Reading.Expressions
import ColonScript.Proofs.Reading.Extent

/-!
# The statement readers follow their rules

What the statement readers take they take by the rules of statements (`statements_take`), and
whatever the rules allow is read (`Forms.isFormed`).  The reader of bodies finds their ends by
counting and the rules do not, so this is also where the count is seen to be right.
-/

namespace ColonScript
namespace Reader

/-! ## Headers -/

theorem declaredName_takes
    {line : Nat} {lexemes : List Lexeme} {p : Parsed String lexemes.length}
    (h : declaredName line lexemes = .ok p) :
    ∃ l₁ l₂, lexemes = ⟨.identifier p.value, l₁⟩ :: ⟨.mark .equals, l₂⟩ :: p.rest := by
  unfold declaredName at h
  split at h
  · cases h
    exact ⟨_, _, rfl⟩
  all_goals cases h

theorem parameter_takes
    {line : Nat} {lexemes : List Lexeme} {p : Parsed Parameter lexemes.length}
    (h : parameter line lexemes = .ok p) :
    ∃ l₁ l₂, lexemes = ⟨.kind p.value.kind, l₁⟩ :: ⟨.identifier p.value.name, l₂⟩ :: p.rest := by
  unfold parameter at h
  split at h
  · cases h
    exact ⟨_, _, rfl⟩
  all_goals cases h

theorem parametersTail_takes
    {line : Nat} {lexemes : List Lexeme} {p : Parsed (List Parameter) lexemes.length}
    (h : parametersTail line lexemes = .ok p) :
    ∃ taken, lexemes = taken ++ p.rest ∧ Listed p.value taken := by
  induction lexemes using parametersTail.induct with
  | case1 lexemes ih =>
      rw [parametersTail] at h
      obtain ⟨one, hone, h⟩ := exists_ok_of_bind_eq_ok h
      obtain ⟨l₁, l₂, hlexemes⟩ := parameter_takes hone
      split at h
      · next commaLine after hafter =>
        obtain ⟨others, hothers, h⟩ := exists_ok_of_bind_eq_ok h
        obtain ⟨b, hb, hlisted⟩ := ih one commaLine after hafter hothers
        cases h
        rw [hafter, hb] at hlexemes
        exact ⟨_, hlexemes, .more hlisted⟩
      · next closed after hafter =>
        cases h
        rw [hafter] at hlexemes
        exact ⟨_, hlexemes, .last⟩
      · cases h
      · cases h

theorem parameters_takes
    {line : Nat} {lexemes : List Lexeme} {p : Parsed (List Parameter) lexemes.length}
    (h : parameters line lexemes = .ok p) :
    ∃ taken, lexemes = taken ++ p.rest ∧ Signature p.value taken := by
  unfold parameters at h
  split at h
  · cases h
    exact ⟨_, rfl, .empty⟩
  · next opened rest _ =>
    cases htail : parametersTail line rest with
    | error e =>
        rw [htail] at h
        cases h
    | ok q =>
        obtain ⟨a, hrest, hlisted⟩ := parametersTail_takes htail
        rw [htail] at h
        cases h
        exact ⟨_, congrArg (⟨.mark .leftParen, opened⟩ :: ·) hrest, .listed hlisted⟩
  all_goals cases h

theorem loopBound_takes
    {line : Nat} {word : LoopWord} {lexemes : List Lexeme} {p : Parsed Expr lexemes.length}
    (h : loopBound line word lexemes = .ok p) :
    ∃ taken l, lexemes = taken ++ ⟨.keyword (loopKeyword word), l⟩ :: p.rest ∧
      Reads (.comparison p.value) taken (⟨.keyword (loopKeyword word), l⟩ :: p.rest) := by
  rw [loopBound] at h
  obtain ⟨bound, hbound, h⟩ := exists_ok_of_bind_eq_ok h
  obtain ⟨a, hlexemes, ha⟩ := expressions_take.1 line lexemes bound hbound
  split at h
  · next token l after hafter =>
    split at h
    · next hword =>
      cases h
      rw [hafter, hword] at ha hlexemes
      exact ⟨a, l, hlexemes, ha⟩
    · cases h
  · cases h

theorem loopCounter_takes
    {line : Nat} {lexemes : List Lexeme} {p : Parsed String lexemes.length}
    (h : loopCounter line lexemes = .ok p) :
    ∃ l, lexemes = ⟨.identifier p.value, l⟩ :: p.rest := by
  unfold loopCounter at h
  split at h
  · cases h
    exact ⟨_, rfl⟩
  all_goals cases h

/-! ## Statements -/

variable {α : Type} {n : Nat}

/-- What a statement reader takes, it takes by the rules. -/
def Builds (clause : α → Clause) (lexemes : List Lexeme)
    (outcome : Except ReadError (Parsed α n)) : Prop :=
  ∀ p, outcome = .ok p →
    ∃ taken, lexemes = taken ++ p.rest ∧ Forms (clause p.value) taken p.rest

theorem function_builds
    {line : Nat} {rest : List Lexeme}
    (hbody : ∀ (name : Parsed String rest.length)
      (params : Parsed (List Parameter) name.rest.length),
      Builds .body params.rest (body .functionDeclaration line params.rest)) :
    Builds .statement (⟨.kind .fn, line⟩ :: rest) (statement (⟨.kind .fn, line⟩ :: rest)) := by
  intro p hp
  rw [statement] at hp
  obtain ⟨name, hname, hp⟩ := exists_ok_of_bind_eq_ok hp
  obtain ⟨params, hparams, hp⟩ := exists_ok_of_bind_eq_ok hp
  obtain ⟨content, hcontent, hp⟩ := exists_ok_of_bind_eq_ok hp
  obtain ⟨l₁, l₂, hrest⟩ := declaredName_takes hname
  obtain ⟨a, ha, hsig⟩ := parameters_takes hparams
  obtain ⟨b, hb, hforms⟩ := hbody name params content hcontent
  cases hp
  rw [hb, ← List.append_assoc] at ha
  rw [ha] at hrest
  exact ⟨_, congrArg (⟨.kind .fn, line⟩ :: ·) hrest, .function hsig hforms⟩

theorem declare_builds
    {kind : Kind} {line : Nat} {rest : List Lexeme} (hkind : kind ≠ .fn) :
    Builds .statement (⟨.kind kind, line⟩ :: rest)
      (statement (⟨.kind kind, line⟩ :: rest)) := by
  intro p hp
  rw [statement] at hp
  · obtain ⟨name, hname, hp⟩ := exists_ok_of_bind_eq_ok hp
    obtain ⟨value, hvalue, hp⟩ := exists_ok_of_bind_eq_ok hp
    obtain ⟨l₁, l₂, hrest⟩ := declaredName_takes hname
    obtain ⟨a, ha, hreads⟩ := expressions_take.1 line name.rest value hvalue
    cases hp
    rw [ha] at hrest
    exact ⟨_, congrArg (⟨.kind kind, line⟩ :: ·) hrest, .declare hkind hreads⟩
  · exact hkind

/-- The guard, the body and the later arms that follow `lada` or `badlada`. -/
theorem guarded_takes
    {line : Nat} {rest : List Lexeme} {guard : Parsed Expr rest.length}
    {content : Parsed (List Statement) guard.rest.length}
    {others : Parsed (List Arm) (content.rest.length + 1)}
    (hguard : comparison line rest = .ok guard)
    (hbody : Builds .body guard.rest (body .conditionalStatement line guard.rest))
    (hcontent : body .conditionalStatement line guard.rest = .ok content)
    (harms : Builds .arms content.rest (arms content.rest))
    (hothers : arms content.rest = .ok others) :
    ∃ a b c, rest = a ++ (b ++ (c ++ others.rest)) ∧
      Reads (.comparison guard.value) a (b ++ (c ++ others.rest)) ∧
      Forms (.body content.value) b (c ++ others.rest) ∧
      Forms (.arms others.value) c others.rest := by
  obtain ⟨a, ha, hreads⟩ := expressions_take.1 line rest guard hguard
  obtain ⟨b, hb, hforms⟩ := hbody content hcontent
  obtain ⟨c, hc, hlater⟩ := harms others hothers
  rw [hc] at hb hforms
  rw [hb] at ha hreads
  exact ⟨a, b, c, ha, hreads, hforms, hlater⟩

theorem conditional_builds
    {line : Nat} {rest : List Lexeme}
    (hbody : ∀ guard : Parsed Expr rest.length,
      Builds .body guard.rest (body .conditionalStatement line guard.rest))
    (harms : ∀ (guard : Parsed Expr rest.length)
      (content : Parsed (List Statement) guard.rest.length),
      Builds .arms content.rest (arms content.rest)) :
    Builds .statement (⟨.keyword .lada, line⟩ :: rest)
      (statement (⟨.keyword .lada, line⟩ :: rest)) := by
  intro p hp
  rw [statement] at hp
  obtain ⟨guard, hguard, hp⟩ := exists_ok_of_bind_eq_ok hp
  obtain ⟨content, hcontent, hp⟩ := exists_ok_of_bind_eq_ok hp
  obtain ⟨others, hothers, hp⟩ := exists_ok_of_bind_eq_ok hp
  obtain ⟨a, b, c, hrest, hreads, hforms, hlater⟩ :=
    guarded_takes hguard (hbody guard) hcontent (harms guard content) hothers
  cases hp
  have hall : rest = (a ++ (b ++ c)) ++ others.rest := by
    rw [List.append_assoc, List.append_assoc]
    exact hrest
  exact ⟨_, congrArg (⟨.keyword .lada, line⟩ :: ·) hall, .conditional hreads hforms hlater⟩

theorem guarded_builds
    {line : Nat} {rest : List Lexeme}
    (hbody : ∀ guard : Parsed Expr rest.length,
      Builds .body guard.rest (body .conditionalStatement line guard.rest))
    (harms : ∀ (guard : Parsed Expr rest.length)
      (content : Parsed (List Statement) guard.rest.length),
      Builds .arms content.rest (arms content.rest)) :
    Builds .arms (⟨.keyword .badlada, line⟩ :: rest)
      (arms (⟨.keyword .badlada, line⟩ :: rest)) := by
  intro p hp
  rw [arms] at hp
  obtain ⟨guard, hguard, hp⟩ := exists_ok_of_bind_eq_ok hp
  obtain ⟨content, hcontent, hp⟩ := exists_ok_of_bind_eq_ok hp
  obtain ⟨others, hothers, hp⟩ := exists_ok_of_bind_eq_ok hp
  obtain ⟨a, b, c, hrest, hreads, hforms, hlater⟩ :=
    guarded_takes hguard (hbody guard) hcontent (harms guard content) hothers
  cases hp
  have hall : rest = (a ++ (b ++ c)) ++ others.rest := by
    rw [List.append_assoc, List.append_assoc]
    exact hrest
  exact ⟨_, congrArg (⟨.keyword .badlada, line⟩ :: ·) hall, .guarded hreads hforms hlater⟩

theorem loop_builds
    {line : Nat} {rest : List Lexeme}
    (hbody : ∀ (first : Parsed Expr rest.length) (last : Parsed Expr first.rest.length)
      (counter : Parsed String last.rest.length),
      Builds .body counter.rest (body .countingLoop line counter.rest)) :
    Builds .statement (⟨.keyword .naduh, line⟩ :: rest)
      (statement (⟨.keyword .naduh, line⟩ :: rest)) := by
  intro p hp
  rw [statement] at hp
  obtain ⟨first, hfirst, hp⟩ := exists_ok_of_bind_eq_ok hp
  obtain ⟨last, hlast, hp⟩ := exists_ok_of_bind_eq_ok hp
  obtain ⟨counter, hcounter, hp⟩ := exists_ok_of_bind_eq_ok hp
  obtain ⟨content, hcontent, hp⟩ := exists_ok_of_bind_eq_ok hp
  obtain ⟨a, l₁, hrest, hreads₁⟩ := loopBound_takes hfirst
  obtain ⟨b, l₂, hb, hreads₂⟩ := loopBound_takes hlast
  obtain ⟨l₃, hl₃⟩ := loopCounter_takes hcounter
  obtain ⟨c, hc, hforms⟩ := hbody first last counter content hcontent
  cases hp
  rw [hc] at hl₃
  rw [hl₃] at hb hreads₂
  rw [hb] at hrest hreads₁
  exact ⟨_, by simp [hrest, loopKeyword], .loop hreads₁ hreads₂ hforms⟩

theorem returns_builds
    {line : Nat} {rest : List Lexeme} :
    Builds .statement (⟨.mark .arrow, line⟩ :: rest)
      (statement (⟨.mark .arrow, line⟩ :: rest)) := by
  intro p hp
  rw [statement] at hp
  obtain ⟨value, hvalue, hp⟩ := exists_ok_of_bind_eq_ok hp
  obtain ⟨a, ha, hreads⟩ := expressions_take.1 line rest value hvalue
  cases hp
  exact ⟨_, congrArg (⟨.mark .arrow, line⟩ :: ·) ha, .returns hreads⟩

/-- An expression takes the token it starts with, whose line is the line of the statement. -/
theorem expression_takes
    {token : Token} {line : Nat} {rest : List Lexeme}
    {value : Parsed Expr (List.length (⟨token, line⟩ :: rest))}
    (h : comparison line (⟨token, line⟩ :: rest) = .ok value) :
    ∃ taken, ⟨token, line⟩ :: rest = taken ++ value.rest ∧
      Forms (.statement (.expression value.value line)) taken value.rest := by
  obtain ⟨a, ha, hreads⟩ := expressions_take.1 line (⟨token, line⟩ :: rest) value h
  obtain ⟨first, l, after, rfl, -⟩ := hreads.exists_starting rfl
  obtain ⟨hfirst, -⟩ := List.cons.inj ha
  cases hfirst
  exact ⟨_, ha, .expression hreads⟩

theorem body_builds
    {owner : Construct} {line opened : Nat} {rest : List Lexeme}
    (hprogram : ∀ n ss, program (rest.take n) = .ok ss → Forms (.program ss) (rest.take n) []) :
    Builds .body (⟨.mark .colon, opened⟩ :: rest)
      (body owner line (⟨.mark .colon, opened⟩ :: rest)) := by
  intro p hp
  rw [body] at hp
  obtain ⟨n, hn, hp⟩ := exists_ok_of_bind_eq_ok hp
  obtain ⟨content, hcontent, hp⟩ := exists_ok_of_bind_eq_ok hp
  have hforms := hprogram n content hcontent
  unfold Block.extent at hn
  split at hn
  · next k hk =>
    cases hn
    obtain ⟨closed, hrest⟩ := Block.split_of_lengthFrom? hk
    cases hp
    refine ⟨⟨.mark .colon, opened⟩ :: (rest.take n ++ [⟨.mark .colon, closed⟩]), ?_,
      .wrapped (hforms.endsAlike (EndsAlike.colon closed))⟩
    simpa using hrest
  · cases hn

/-- Each reader of statements takes by the rules, and a program takes all there is. -/
theorem statements_take :
    (∀ lexemes, Builds .statement lexemes (statement lexemes)) ∧
      (∀ lexemes, Builds .arms lexemes (arms lexemes)) ∧
      (∀ owner line lexemes, Builds .body lexemes (body owner line lexemes)) ∧
      ∀ lexemes ss, program lexemes = .ok ss → Forms (.program ss) lexemes [] := by
  refine statement.mutual_induct _ _ _ _ ?nothing ?function ?declare ?conditional ?strayGuard
    ?strayFinal ?strayWhile ?loop ?returns ?expression ?guarded ?final ?noArms ?body
    ?missingWrapper ?noWrapper ?programEnd ?programStep
  case nothing =>
    intro p hp
    rw [statement] at hp
    cases hp
  case function => exact fun _ _ => function_builds
  case declare => exact fun _ _ _ => declare_builds
  case conditional => exact fun _ _ => conditional_builds
  case strayGuard =>
    intro line rest p hp
    rw [statement] at hp
    cases hp
  case strayFinal =>
    intro line rest p hp
    rw [statement] at hp
    cases hp
  case strayWhile =>
    intro line rest p hp
    rw [statement] at hp
    cases hp
  case loop => exact fun _ _ => loop_builds
  case returns => exact fun _ _ => returns_builds
  case expression =>
    intro token line rest h₁ h₂ h₃ h₄ h₅ h₆ h₇ h₈ p hp
    rw [statement] at hp
    · obtain ⟨value, hvalue, hp⟩ := exists_ok_of_bind_eq_ok hp
      obtain ⟨a, ha, hforms⟩ := expression_takes hvalue
      cases hp
      exact ⟨a, ha, hforms⟩
    all_goals assumption
  case guarded => exact fun _ _ => guarded_builds
  case final =>
    intro line rest hbody p hp
    rw [arms] at hp
    obtain ⟨content, hcontent, hp⟩ := exists_ok_of_bind_eq_ok hp
    obtain ⟨a, ha, hforms⟩ := hbody content hcontent
    cases hp
    exact ⟨_, congrArg (⟨.keyword .hynrei, line⟩ :: ·) ha, .final hforms⟩
  case noArms =>
    intro lexemes hbadlada hhynrei p hp
    have hnoGuard := next?_ne_of_forall_cons_ne hbadlada
    have hnoFinal := next?_ne_of_forall_cons_ne hhynrei
    rw [arms] at hp
    · cases hp
      exact ⟨[], rfl, .noArms hnoGuard hnoFinal⟩
    all_goals assumption
  case body => exact fun _ _ _ _ => body_builds
  case missingWrapper =>
    intro owner line token l rest hne p hp
    rw [body] at hp
    · cases hp
    · exact hne
  case noWrapper =>
    intro owner line p hp
    rw [body] at hp
    cases hp
  case programEnd =>
    intro ss hss
    rw [program] at hss
    cases hss
    exact .done
  case programStep =>
    intro lexeme rest hone hothers ss hss
    rw [program] at hss
    obtain ⟨one, hone', hss⟩ := exists_ok_of_bind_eq_ok hss
    obtain ⟨others, hothers', hss⟩ := exists_ok_of_bind_eq_ok hss
    obtain ⟨a, ha, hforms⟩ := hone one hone'
    cases hss
    have hrest := hothers one others hothers'
    rw [← List.append_nil one.rest] at hforms
    have hprogram : Forms (.program (one.value :: others)) (a ++ one.rest) [] :=
      .cons hforms hrest
    rw [← ha] at hprogram
    exact hprogram

/-! ## What the rules allow is read -/

theorem gives_listed
    {ps : List Parameter} {a : List Lexeme} (h : Listed ps a) (line : Nat) (rest : List Lexeme) :
    Gives (parametersTail line (a ++ rest)) ps rest := by
  induction h with
  | last =>
      simp only [List.cons_append, List.nil_append]
      rw [parametersTail]
      exact .ok _
  | more _ ih =>
      simp only [List.cons_append]
      rw [parametersTail]
      exact ih.map

theorem gives_signature
    {ps : List Parameter} {a : List Lexeme} (h : Signature ps a) (line : Nat) (rest : List Lexeme) :
    Gives (parameters line (a ++ rest)) ps rest := by
  cases h with
  | empty => exact .ok _
  | listed hlisted =>
      obtain ⟨p, hp, hvalue, hrest⟩ := gives_listed hlisted line rest
      rw [List.cons_append, parameters, hp]
      · exact ⟨_, rfl, hvalue, hrest⟩
      · intro closed after hclosed
        cases hlisted <;> cases hclosed

theorem gives_loopBound
    {e : Expr} {a rest : List Lexeme} {word : LoopWord} {l : Nat}
    (h : Reads (.comparison e) a (⟨.keyword (loopKeyword word), l⟩ :: rest)) (line : Nat) :
    Gives (loopBound line word (a ++ ⟨.keyword (loopKeyword word), l⟩ :: rest)) e rest := by
  rw [loopBound]
  refine (h.isRead line).bind fun _ => ?_
  cases word <;> exact .ok _

/-- Reading from `lexemes` gives the clause and leaves `rest`. -/
def Clause.IsFormed (lexemes rest : List Lexeme) : Clause → Prop
  | statement s => Gives (Reader.statement lexemes) s rest
  | arms as => Gives (Reader.arms lexemes) as rest
  | body ss => ∀ owner line, Gives (Reader.body owner line lexemes) ss rest
  | program ss => rest = [] → Reader.program lexemes = .ok ss

theorem gives_body
    {ss : List Statement} {a b rest : List Lexeme} {opened closed : Nat}
    (hforms : Forms (.program ss) a b) (hprogram : program a = .ok ss) (owner : Construct)
    (line : Nat) :
    Gives (body owner line (⟨.mark .colon, opened⟩ :: (a ++ ⟨.mark .colon, closed⟩ :: rest)))
      ss rest := by
  have hextent : Block.extent opened (a ++ ⟨.mark .colon, closed⟩ :: rest) = .ok a.length := by
    rw [Block.extent, Block.length?_of_program hforms]
  have htake : (a ++ ⟨.mark .colon, closed⟩ :: rest).take a.length = a := by simp
  have hdrop : (a ++ ⟨.mark .colon, closed⟩ :: rest).drop (a.length + 1) = rest := by simp
  refine ⟨⟨ss, rest, by simp only [List.length_cons, List.length_append]; omega⟩, ?_, rfl, rfl⟩
  rw [body, hextent]
  change (program (List.take a.length (a ++ ⟨.mark .colon, closed⟩ :: rest)) >>= _) = _
  rw [htake, hprogram]
  simp only [hdrop]
  rfl

theorem gives_noArms
    {rest : List Lexeme} (hbadlada : next? rest ≠ some (.keyword .badlada))
    (hhynrei : next? rest ≠ some (.keyword .hynrei)) :
    Gives (arms rest) [] rest := by
  rw [arms]
  · exact .ok _
  · rintro line after rfl
    exact hbadlada rfl
  · rintro line after rfl
    exact hhynrei rfl

theorem gives_expression
    {e : Expr} {token : Token} {line : Nat} {a rest : List Lexeme}
    (h : Reads (.comparison e) (⟨token, line⟩ :: a) rest) :
    Gives (statement (⟨token, line⟩ :: (a ++ rest))) (.expression e line) rest := by
  obtain ⟨first, l, after, hfirst, hstart⟩ := h.exists_starting rfl
  cases hfirst
  rw [statement]
  · exact (h.isRead line).map
  all_goals
    intros
    subst_vars
    cases hstart

/-- A statement at the front is read first; how the rest is read decides the outcome. -/
theorem program_of_gives
    {s : Statement} {lexemes rest : List Lexeme} (hs : Gives (statement lexemes) s rest) :
    program lexemes = (program rest).map (s :: ·) := by
  obtain ⟨p, hp, rfl, rfl⟩ := hs
  cases lexemes with
  | nil =>
      rw [statement] at hp
      cases hp
  | cons lexeme after =>
      rw [program, hp]
      change (program p.rest >>= _) = _
      cases program p.rest <;> rfl

/-- Whatever the rules of statements allow is read, also in front of anything that ends it
alike. -/
theorem Forms.isFormed
    {clause : Clause} {taken rest other : List Lexeme} (h : Forms clause taken rest)
    (halike : EndsAlike rest other) :
    clause.IsFormed (taken ++ other) other := by
  induction h generalizing other with
  | function hsig _ ih =>
      rw [Clause.IsFormed, List.cons_append, List.cons_append, List.cons_append,
        List.append_assoc, Reader.statement]
      refine Gives.bind (.ok _) fun _ => ?_
      exact (gives_signature hsig _ _).bind fun _ => (ih halike _ _).map
  | declare hkind hvalue =>
      rw [Clause.IsFormed, List.cons_append, List.cons_append, List.cons_append, Reader.statement]
      · refine Gives.bind (.ok _) fun _ => ?_
        exact ((hvalue.endsAlike halike).isRead _).map
      · exact hkind
  | conditional hguard _ _ ihb iha =>
      have hguard := hguard.endsAlike ((halike.append _).append _)
      rw [Clause.IsFormed, List.cons_append, List.append_assoc, List.append_assoc,
        Reader.statement]
      exact (hguard.isRead _).bind fun _ => (ihb (halike.append _) _ _).bind fun _ =>
        (iha halike).map
  | loop hfirst hlast _ ih =>
      rw [Clause.IsFormed, List.cons_append, List.append_assoc, List.cons_append,
        List.append_assoc, List.cons_append, List.cons_append, Reader.statement]
      refine (gives_loopBound (hfirst.endsAlike (.cons _)) _).bind fun _ => ?_
      refine (gives_loopBound (hlast.endsAlike (.cons _)) _).bind fun _ => ?_
      exact Gives.bind (.ok _) fun _ => (ih halike _ _).map
  | returns hvalue =>
      rw [Clause.IsFormed, List.cons_append, Reader.statement]
      exact ((hvalue.endsAlike halike).isRead _).map
  | expression hvalue => exact gives_expression (hvalue.endsAlike halike)
  | noArms hbadlada hhynrei =>
      exact gives_noArms (halike.next?_ne (by simp [extending]) hbadlada)
        (halike.next?_ne (by simp [extending]) hhynrei)
  | guarded hguard _ _ ihb iha =>
      have hguard := hguard.endsAlike ((halike.append _).append _)
      rw [Clause.IsFormed, List.cons_append, List.append_assoc, List.append_assoc, Reader.arms]
      exact (hguard.isRead _).bind fun _ => (ihb (halike.append _) _ _).bind fun _ =>
        (iha halike).map
  | final _ ih =>
      rw [Clause.IsFormed, List.cons_append, Reader.arms]
      exact (ih halike _ _).map
  | wrapped hforms ih =>
      intro owner line
      rw [List.cons_append, List.append_assoc, List.singleton_append]
      -- The reader sees the body cut off at its end, where the rules see the wrapper.
      have hprogram := ih EndsAlike.nil rfl
      rw [List.append_nil] at hprogram
      exact gives_body hforms hprogram owner line
  | done =>
      rintro rfl
      rw [List.nil_append, Reader.program]
  | cons _ _ ihs ihp =>
      rintro rfl
      have hs := ihs (halike.append _)
      rw [← List.append_assoc] at hs
      rw [program_of_gives hs, ihp halike rfl]
      rfl

end Reader
end ColonScript
