import ColonScript.Proofs.Reading.Statements

/-!
# Reading bodies in a single pass

The reader of bodies first cuts a body out by counting and then reads what it cut out.  The
readers of this module do without the cut: after the opening wrapper they read statement after
statement, and the body is over when a wrapper stands where a statement would start.  Both ways
of reading accept the same bodies (`body_iff_singlePass`).
-/

namespace ColonScript
namespace SinglePass

open Reader (declaredName parameters comparison loopBound loopCounter)

mutual

/-- Reads one statement. -/
def statement (lexemes : List Lexeme) : Reading Statement lexemes :=
  match lexemes with
  | [] => .error ⟨.endOfInput, 1⟩
  | ⟨.kind .fn, line⟩ :: rest => do
      let name ← declaredName line rest
      let params ← parameters line name.rest
      let content ← body .functionDeclaration line params.rest
      return content.mapLe (fun b => .function name.value params.value b line) (by
        have := name.shorter
        have := params.shorter
        simp only [List.length_cons]
        omega)
  | ⟨.kind kind, line⟩ :: rest => do
      let name ← declaredName line rest
      let value ← comparison line name.rest
      return value.mapLe (fun e => .declare kind name.value e line) (by
        have := name.shorter
        simp only [List.length_cons]
        omega)
  | ⟨.keyword .lada, line⟩ :: rest => do
      let guard ← comparison line rest
      let content ← body .conditionalStatement line guard.rest
      let others ← arms content.rest
      return others.mapLe
        (fun as => .conditional (.mk (some guard.value) content.value line :: as) line) (by
          have := guard.shorter
          have := content.shorter
          simp only [List.length_cons]
          omega)
  | ⟨.keyword .naduh, line⟩ :: rest => do
      let first ← loopBound line .haduh rest
      let last ← loopBound line .da first.rest
      let counter ← loopCounter line last.rest
      let content ← body .countingLoop line counter.rest
      return content.mapLe
        (fun b => .loop counter.value first.value last.value b line) (by
          have := first.shorter
          have := last.shorter
          have := counter.shorter
          simp only [List.length_cons]
          omega)
  | ⟨.mark .arrow, line⟩ :: rest => do
      let value ← comparison line rest
      return value.mapLe (fun e => .returns e line) (by simp)
  | ⟨token, line⟩ :: rest => do
      let value ← comparison line (⟨token, line⟩ :: rest)
      return value.mapLe (fun e => .expression e line) (Nat.le_refl _)
termination_by (lexemes.length, 0)
decreasing_by
  · have := name.shorter
    have := params.shorter
    exact Prod.Lex.left _ _ (by simp only [List.length_cons]; omega)
  · have := guard.shorter
    exact Prod.Lex.left _ _ (by simp only [List.length_cons]; omega)
  · have := guard.shorter
    have := content.shorter
    exact Prod.Lex.left _ _ (by simp only [List.length_cons]; omega)
  · have := first.shorter
    have := last.shorter
    have := counter.shorter
    exact Prod.Lex.left _ _ (by simp only [List.length_cons]; omega)

/-- Reads the later arms of a conditional. -/
def arms (lexemes : List Lexeme) : Except ReadError (Parsed (List Arm) (lexemes.length + 1)) :=
  match lexemes with
  | ⟨.keyword .badlada, line⟩ :: rest => do
      let guard ← comparison line rest
      let content ← body .conditionalStatement line guard.rest
      let others ← arms content.rest
      return others.mapLe (.mk (some guard.value) content.value line :: ·) (by
        have := guard.shorter
        have := content.shorter
        simp only [List.length_cons]
        omega)
  | ⟨.keyword .hynrei, line⟩ :: rest => do
      let content ← body .conditionalStatement line rest
      return content.mapLe (fun b => [.mk none b line]) (by simp only [List.length_cons]; omega)
  | lexemes => .ok ⟨[], lexemes, by simp⟩
termination_by (lexemes.length, 0)
decreasing_by
  · have := guard.shorter
    exact Prod.Lex.left _ _ (by simp only [List.length_cons]; omega)
  · have := guard.shorter
    have := content.shorter
    exact Prod.Lex.left _ _ (by simp only [List.length_cons]; omega)
  · exact Prod.Lex.left _ _ (by simp)

/-- Reads an opening wrapper and the statements after it, up to the closing wrapper. -/
def body (owner : Construct) (line : Nat) (lexemes : List Lexeme) :
    Reading (List Statement) lexemes :=
  match lexemes with
  | ⟨.mark .colon, opened⟩ :: rest => do
      let content ← statements opened rest
      return content.mapLe id (by simp)
  | ⟨token, l⟩ :: _ => .error ⟨.missingWrapper owner (some token), l⟩
  | [] => .error ⟨.missingWrapper owner none, line⟩
termination_by (lexemes.length, 0)
decreasing_by
  exact Prod.Lex.left _ _ (by simp)

/-- Reads statements until a wrapper stands in the place of the next one, and takes it. -/
def statements (opened : Nat) (lexemes : List Lexeme) : Reading (List Statement) lexemes :=
  match lexemes with
  | [] => .error ⟨.unterminatedBlock, opened⟩
  | ⟨.mark .colon, _⟩ :: rest => .ok ⟨[], rest, by simp⟩
  | lexeme :: rest => do
      let one ← statement (lexeme :: rest)
      let others ← statements opened one.rest
      return others.mapLe (one.value :: ·) (Nat.le_of_lt one.shorter)
termination_by (lexemes.length, 1)
decreasing_by
  · exact Prod.Lex.right _ (by omega)
  · exact Prod.Lex.left _ _ one.shorter

end

open Reader

variable {α β : Type} {m n : Nat}

/-- Two outcomes of reading give the same and leave the same, if they give anything. -/
def Agree (x y : Except ReadError (Parsed α n)) : Prop :=
  ∀ value rest, Gives x value rest ↔ Gives y value rest

namespace Agree

theorem refl
    (x : Except ReadError (Parsed α n)) :
    Agree x x :=
  fun _ _ => Iff.rfl

theorem eq_ok
    {x y : Except ReadError (Parsed α n)} (h : Agree x y) {p : Parsed α n} (hx : x = .ok p) :
    y = .ok p := by
  obtain ⟨q, hy, hvalue, hrest⟩ := (h p.value p.rest).mp ⟨p, hx, rfl, rfl⟩
  obtain ⟨value, rest, hlt⟩ := p
  obtain ⟨value', rest', hlt'⟩ := q
  subst hvalue hrest
  exact hy

theorem symm
    {x y : Except ReadError (Parsed α n)} (h : Agree x y) :
    Agree y x :=
  fun value rest => (h value rest).symm

theorem bind
    {x y : Except ReadError (Parsed α n)} {f g : Parsed α n → Except ReadError (Parsed β m)}
    (hx : Agree x y) (hf : ∀ p, Agree (f p) (g p)) :
    Agree (x >>= f) (y >>= g) := by
  have key : ∀ {x y : Except ReadError (Parsed α n)}
      {f g : Parsed α n → Except ReadError (Parsed β m)}, Agree x y → (∀ p, Agree (f p) (g p)) →
      ∀ value rest, Gives (x >>= f) value rest → Gives (y >>= g) value rest := by
    intro x y f g hx hf value rest h
    obtain ⟨q, hq, hgives⟩ := h
    obtain ⟨p, hp, hq⟩ := exists_ok_of_bind_eq_ok hq
    rw [hx.eq_ok hp]
    exact (hf p value rest).mp ⟨q, hq, hgives⟩
  intro value rest
  exact ⟨key hx hf value rest, key hx.symm (fun p => (hf p).symm) value rest⟩

end Agree

/-- What `Reader.body` gives after an opening wrapper. -/
theorem gives_body_iff
    {owner : Construct} {line opened : Nat} {lexemes rest : List Lexeme} {ss : List Statement} :
    Gives (Reader.body owner line (⟨.mark .colon, opened⟩ :: lexemes)) ss rest ↔
      ∃ taken closed, lexemes = taken ++ ⟨.mark .colon, closed⟩ :: rest ∧
        Forms (.program ss) taken (⟨.mark .colon, closed⟩ :: rest) := by
  constructor
  · rintro ⟨p, hp, rfl, rfl⟩
    obtain ⟨a, ha, hforms⟩ := statements_take.2.2.1 owner line _ p hp
    cases hforms with
    | @wrapped _ _ closed b _ hprogram =>
        rw [List.cons_append, List.append_assoc] at ha
        exact ⟨b, closed, (List.cons.inj ha).2, hprogram⟩
  · rintro ⟨taken, closed, rfl, hprogram⟩
    have hbody : Forms (.body ss)
        (⟨.mark .colon, opened⟩ :: (taken ++ [⟨.mark .colon, closed⟩])) rest := .wrapped hprogram
    have hgives := hbody.isFormed (fun _ _ => id) owner line
    rw [List.cons_append, List.append_assoc] at hgives
    exact hgives

/-- Reading statements up to a wrapper follows the rules of programs. -/
def ReadsProgram (opened : Nat) (lexemes : List Lexeme) : Prop :=
  ∀ ss rest, Gives (statements opened lexemes) ss rest ↔
    ∃ taken closed, lexemes = taken ++ ⟨.mark .colon, closed⟩ :: rest ∧
      Forms (.program ss) taken (⟨.mark .colon, closed⟩ :: rest)

theorem readsProgram_end
    (opened closed : Nat) (rest : List Lexeme) :
    ReadsProgram opened (⟨.mark .colon, closed⟩ :: rest) := by
  intro ss after
  constructor
  · rintro ⟨p, hp, rfl, rfl⟩
    rw [statements] at hp
    cases hp
    exact ⟨[], closed, rfl, .done⟩
  · rintro ⟨taken, line, hlexemes, hprogram⟩
    rw [statements]
    cases hprogram with
    | done =>
        cases hlexemes
        exact .ok _
    | cons hs _ =>
        obtain ⟨token, l, a, rfl, hcolon⟩ := hs.exists_cons_of_statement
        cases hlexemes
        exact (hcolon rfl).elim

theorem readsProgram_step
    {opened : Nat} {lexeme : Lexeme} {rest : List Lexeme}
    (hcolon : ∀ line, lexeme = ⟨.mark .colon, line⟩ → False)
    (hone : Agree (statement (lexeme :: rest)) (Reader.statement (lexeme :: rest)))
    (hothers : ∀ one : Parsed Statement (lexeme :: rest).length, ReadsProgram opened one.rest) :
    ReadsProgram opened (lexeme :: rest) := by
  intro ss after
  rw [statements]
  · constructor
    · rintro ⟨p, hp, rfl, rfl⟩
      obtain ⟨one, hs, hp⟩ := exists_ok_of_bind_eq_ok hp
      obtain ⟨others, hss, hp⟩ := exists_ok_of_bind_eq_ok hp
      obtain ⟨a, ha, hforms⟩ := statements_take.1 _ one (hone.eq_ok hs)
      obtain ⟨b, closed, hb, hprogram⟩ := (hothers one _ _).mp ⟨others, hss, rfl, rfl⟩
      cases hp
      rw [hb] at ha hforms
      rw [← List.append_assoc] at ha
      exact ⟨a ++ b, closed, ha, .cons hforms hprogram⟩
    · rintro ⟨taken, closed, hlexemes, hprogram⟩
      cases hprogram with
      | done =>
          cases hlexemes
          exact (hcolon closed rfl).elim
      | @cons s ss a b _ hs hss =>
          have hgives := hs.isFormed (fun _ _ => id)
          rw [List.append_assoc] at hlexemes
          rw [Clause.IsFormed, ← hlexemes] at hgives
          have hfirst := (hone _ _).mpr hgives
          refine hfirst.bind fun hlt => ?_
          have hrest := (hothers ⟨s, _, hlt⟩ _ _).mpr ⟨b, closed, rfl, hss⟩
          exact hrest.map
  · exact hcolon

/-- What starts no expression is a statement for neither reader. -/
theorem agree_stray
    {token : Token} {line : Nat} {rest : List Lexeme} {e : ReadError}
    {f : Parsed Expr (List.length (⟨token, line⟩ :: rest)) → Except ReadError (Parsed α n)}
    (hstart : starting token = false) :
    Agree (comparison line (⟨token, line⟩ :: rest) >>= f) (.error e) := by
  intro value after
  constructor
  · rintro ⟨p, hp, -⟩
    obtain ⟨q, hq, -⟩ := exists_ok_of_bind_eq_ok hp
    obtain ⟨a, ha, hreads⟩ := expressions_take.1 line _ q hq
    obtain ⟨first, l, b, rfl, hfirst⟩ := hreads.exists_starting rfl
    obtain ⟨hcons, -⟩ := List.cons.inj ha
    cases hcons
    rw [hstart] at hfirst
    cases hfirst
  · rintro ⟨p, hp, -⟩
    cases hp

theorem agree_expression
    {token : Token} {line : Nat} {rest : List Lexeme} (hfn : token = .kind .fn → False)
    (hkind : ∀ kind, token = .kind kind → False) (hlada : token = .keyword .lada → False)
    (hnaduh : token = .keyword .naduh → False) (harrow : token = .mark .arrow → False) :
    Agree (statement (⟨token, line⟩ :: rest)) (Reader.statement (⟨token, line⟩ :: rest)) := by
  rw [statement]
  · by_cases hbadlada : token = .keyword .badlada
    · subst hbadlada
      rw [Reader.statement]
      exact agree_stray rfl
    by_cases hhynrei : token = .keyword .hynrei
    · subst hhynrei
      rw [Reader.statement]
      exact agree_stray rfl
    by_cases hwhile : token = .keyword .whileLoop
    · subst hwhile
      rw [Reader.statement]
      exact agree_stray rfl
    rw [Reader.statement]
    · exact .refl _
    all_goals assumption
  all_goals assumption

/-- The two ways of reading agree on statements, on arms and on bodies. -/
theorem agree :
    (∀ lexemes, Agree (statement lexemes) (Reader.statement lexemes)) ∧
      (∀ lexemes, Agree (arms lexemes) (Reader.arms lexemes)) ∧
      (∀ owner line lexemes,
        Agree (body owner line lexemes) (Reader.body owner line lexemes)) ∧
      ∀ opened lexemes, ReadsProgram opened lexemes := by
  refine statement.mutual_induct _ _ _ _ ?nothing ?function ?declare ?conditional ?loop ?returns
    ?expression ?guarded ?final ?noArms ?body ?missingWrapper ?noWrapper ?unterminated ?closed
    ?step
  case nothing =>
    rw [statement, Reader.statement]
    exact .refl _
  case function =>
    intro line rest hbody
    rw [statement, Reader.statement]
    refine .bind (.refl _) fun name => ?_
    refine .bind (.refl _) fun params => ?_
    exact .bind (hbody name params) fun _ => .refl _
  case declare =>
    intro kind line rest hkind
    rw [statement, Reader.statement]
    · exact .refl _
    all_goals exact hkind
  case conditional =>
    intro line rest hbody harms
    rw [statement, Reader.statement]
    refine .bind (.refl _) fun guard => ?_
    refine .bind (hbody guard) fun content => ?_
    exact .bind (harms guard content) fun _ => .refl _
  case loop =>
    intro line rest hbody
    rw [statement, Reader.statement]
    refine .bind (.refl _) fun first => ?_
    refine .bind (.refl _) fun last => ?_
    refine .bind (.refl _) fun counter => ?_
    exact .bind (hbody first last counter) fun _ => .refl _
  case returns =>
    intro line rest
    rw [statement, Reader.statement]
    exact .refl _
  case expression => exact fun _ _ _ => agree_expression
  case guarded =>
    intro line rest hbody harms
    rw [arms, Reader.arms]
    refine .bind (.refl _) fun guard => ?_
    refine .bind (hbody guard) fun content => ?_
    exact .bind (harms guard content) fun _ => .refl _
  case final =>
    intro line rest hbody
    rw [arms, Reader.arms]
    exact .bind hbody fun _ => .refl _
  case noArms =>
    intro lexemes hbadlada hhynrei
    rw [arms, Reader.arms]
    · exact .refl _
    all_goals assumption
  case body =>
    intro owner line opened rest hprogram ss after
    rw [gives_body_iff, ← hprogram, body]
    constructor
    · rintro ⟨p, hp, rfl, rfl⟩
      obtain ⟨content, hcontent, hp⟩ := exists_ok_of_bind_eq_ok hp
      cases hp
      exact ⟨content, hcontent, rfl, rfl⟩
    · exact fun h => h.map
  case missingWrapper =>
    intro owner line token l rest hcolon
    rw [body, Reader.body]
    · exact .refl _
    all_goals exact hcolon
  case noWrapper =>
    intro owner line
    rw [body, Reader.body]
    exact .refl _
  case unterminated =>
    intro opened ss rest
    rw [statements]
    constructor
    · rintro ⟨p, hp, -⟩
      cases hp
    · rintro ⟨taken, closed, hlexemes, -⟩
      simp at hlexemes
  case closed => exact readsProgram_end
  case step => exact fun _ _ _ => readsProgram_step

/-- A body that is cut out by counting is the body that is read in a single pass: for every list
of lexemes both readers give the same statements and leave the same rest, or neither gives
anything. -/
theorem body_iff_singlePass
    (owner : Construct) (line : Nat) (lexemes : List Lexeme) (ss : List Statement)
    (rest : List Lexeme) :
    Gives (Reader.body owner line lexemes) ss rest ↔ Gives (body owner line lexemes) ss rest :=
  (agree.2.2.1 owner line lexemes ss rest).symm

end SinglePass
end ColonScript
