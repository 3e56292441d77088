import ColonScript.Proofs.Lexing.Seam
import ColonScript.Proofs.Lines.Layout
import ColonScript.Proofs.Reading.Concatenation
import ColonScript.Proofs.Running.Changes

/-!
# Source texts run together or one after the other

A session may run two source texts one after the other, or both at once with a line end between
them.  The texts are cut, read and run as before; what the second text does may differ in lines,
since its lines are counted on from those of the first.  The value of the whole is the last value
given, or that of the first return, where the second text is not run at all.
-/

namespace ColonScript

/-- How a block ends whose first part ran to its end with the value `before`. -/
def Ending.after (before : Option Value) : Ending → Ending
  | ran v => .ran (v.or before)
  | returned v => .returned v

theorem Ending.Aligned.after
    {L : Nat → Nat → Prop} {a b : Ending} (h : a.Aligned L b) {v w : Option Value}
    (hv : Option.Rel (Value.Aligned L) v w) :
    (a.after v).Aligned L (b.after w) := by
  cases h with
  | ran hvalue => exact .ran (rel_or hvalue hv)
  | returned hvalue => exact .returned hvalue

namespace Run

variable {i : Invocation}

/-- Goes on after statements that ran to their end; a return is the end. -/
def onward (next : Option Value → Run Ending) : Ending → Run Ending
  | .ran v => next v
  | .returned v => pure (.returned v)

theorem block_cons
    (s : Statement) (rest : List Statement) (last : Option Value) :
    block i (s :: rest) last = statement i s >>= onward fun v => block i rest (v.or last) := by
  rw [block]
  refine bind_congr fun ending => ?_
  cases ending <;> rfl

/-- Statements that follow others are run if those ran to their end. -/
theorem block_append
    (as bs : List Statement) (last : Option Value) :
    block i (as ++ bs) last = block i as last >>= onward fun v => block i bs v := by
  induction as generalizing last with
  | nil =>
      rw [List.nil_append, block, pure_bind]
      rfl
  | cons s as ih =>
      rw [List.cons_append, block_cons, block_cons, bind_assoc]
      refine bind_congr fun ending => ?_
      cases ending with
      | ran v => exact ih (v.or last)
      | returned v => rfl

/-- The value before a block matters only for how the block ends. -/
theorem block_eq_after
    (ss : List Statement) (last : Option Value) :
    block i ss last = block i ss none >>= fun ending => pure (ending.after last) := by
  induction ss generalizing last with
  | nil =>
      rw [block, block, pure_bind]
      rfl
  | cons s ss ih =>
      rw [block_cons, block_cons, bind_assoc]
      refine bind_congr fun ending => ?_
      cases ending with
      | returned v => rfl
      | ran v =>
          change block i ss (v.or last) = block i ss (v.or none) >>= _
          rw [ih (v.or last), ih (v.or none), bind_assoc]
          refine bind_congr fun ending => ?_
          rw [pure_bind]
          cases ending with
          | returned w => rfl
          | ran w => simp only [Ending.after, Option.or_none, Option.or_assoc]

end Run

/-- Aligned lexemes start with the same token. -/
theorem Reader.next?_eq_of_aligned
    {L : Nat → Nat → Prop} {as bs : List Lexeme} (h : List.Forall₂ (Lexeme.Aligned L) as bs) :
    next? as = next? bs := by
  cases h with
  | nil => rfl
  | cons hfirst _ => exact congrArg some hfirst.token

namespace Machine

/-- A source text that stands after another one on a new line is read alike: the whole is read as
the statements of the first and then those of the second, which may differ in lines. -/
theorem exists_readProgram_newline
    {a b : String} {as bs : List Statement} {lexemes : List Lexeme} (ha : readProgram a = .ok as)
    (hb : readProgram b = .ok bs) (hlex : lex b = .ok lexemes)
    (hminus : Reader.next? lexemes ≠ some (.mark .minus))
    (hparen : Reader.next? lexemes ≠ some (.mark .leftParen)) :
    ∃ bs', List.Forall₂ (Statement.Aligned AnyLine) bs' bs ∧
      readProgram (a ++ "\n" ++ b) = .ok (as ++ bs') := by
  obtain ⟨first, hfirst, has⟩ := Reader.exists_ok_of_bind_eq_ok ha
  rw [readProgram, hlex] at hb
  have hbs : Reader.program lexemes = .ok bs := hb
  have hwhole := lex_newline hfirst b
  -- The second text is cut on later lines, into the tokens that it has when it stands alone.
  have hlater := Lexer.lexFrom_aligned (L := AnyLine) (k := 1 + a.toList.count '\n' + 1) (l := 1)
    (fun _ => trivial) b.toList
  generalize Lexer.lexFrom (1 + a.toList.count '\n' + 1) b.toList = later at hwhole hlater
  rw [show Lexer.lexFrom 1 b.toList = .ok lexemes from hlex] at hlater
  cases hlater with
  | @ok others _ hothers =>
      have hread := Reader.statements_steady.2.2.2 others lexemes hothers
      rw [hbs] at hread
      generalize hbs' : Reader.program others = outcome at hread
      cases hread with
      | @ok bs' _ hstatements =>
          refine ⟨bs', hstatements, ?_⟩
          rw [readProgram, hwhole]
          have hnext := Reader.next?_eq_of_aligned hothers
          rw [← hnext] at hminus hparen
          have hboth := Reader.program_append has
            (Reader.next?_ne_of_program hbs' hminus hparen)
          rw [hbs'] at hboth
          exact hboth

/-- The machines of a session between its source texts.  The host may exchange the receiver of
output and provide further natives that do not look at lines. -/
inductive InSession : Machine → Prop
  | start (sink : Sink) : InSession { initial with sink := sink }
  | ran {m : Machine} (source : String) : InSession m → InSession (m.run source).2
  | redirected {m : Machine} (sink : Sink) : InSession m → InSession { m with sink := sink }
  | provided {m : Machine} (native : NativeFunction) : native.routine ≠ .say → InSession m →
      InSession (m.provide native)

/-- A source text comes to the same end as itself in machines that are the same up to lines. -/
theorem Aligned.perform_self
    {m m' : Machine} (h : m.Aligned AnyLine m') (source : String) :
    SameEnd AnyLine (Ending.Aligned AnyLine) (m.perform source) (m'.perform source) :=
  h.perform (Lexer.lexFrom_aligned (fun _ => trivial) source.toList)

/-- The machines of a session hold nothing that tells lines apart. -/
theorem InSession.aligned
    {m : Machine} (h : m.InSession) :
    m.Aligned AnyLine m := by
  induction h with
  | start sink => exact ⟨aligned_initial.scopes, rfl, rfl, rfl⟩
  | ran source _ ih => exact (ih.perform_self source).machine
  | redirected sink _ ih => exact ⟨ih.scopes, rfl, rfl, rfl⟩
  | provided native hne _ ih => exact ih.provide fun hsay => (hne hsay).elim

theorem perform_eq_ok_iff
    {source : String} {ss : List Statement} (h : readProgram source = .ok ss) {m m₁ : Machine}
    {ending : Ending} :
    m.perform source = (.ok ending, m₁) ↔ runBlock ss m = .ok ending m₁ := by
  rw [perform, h, attempt]
  cases runBlock ss m <;> simp

theorem perform_eq_error_iff
    {source : String} {ss : List Statement} (h : readProgram source = .ok ss) {m m₁ : Machine}
    {e : RunError} :
    m.perform source = (.error (.run e), m₁) ↔ runBlock ss m = .error e m₁ := by
  rw [perform, h, attempt]
  cases runBlock ss m <;> simp

theorem run_of_perform
    {source : String} {m m₁ : Machine} {outcome : Except Failure Ending}
    (h : m.perform source = (outcome, m₁)) :
    m.run source = (outcome.map Ending.value, m₁) := by
  rw [run, h]

theorem perform_of_run_error
    {source : String} {m m₁ : Machine} {e : Failure} (h : m.run source = (.error e, m₁)) :
    m.perform source = (.error e, m₁) := by
  cases hperform : m.perform source with
  | mk outcome m₂ =>
      rw [run_of_perform hperform] at h
      cases outcome with
      | ok ending => cases h
      | error e' =>
          cases h
          rfl

/-- Statements that follow others are not run after a failure. -/
theorem runBlock_append_of_error
    {as : List Statement} {m m₁ : Machine} {e : RunError} (h : runBlock as m = .error e m₁)
    (bs : List Statement) :
    runBlock (as ++ bs) m = .error e m₁ := by
  rw [runBlock, Run.block_append]
  exact Run.bind_of_error h _

/-- Statements that follow others are not run after a return. -/
theorem runBlock_append_of_returned
    {as : List Statement} {m m₁ : Machine} {v : Option Value}
    (h : runBlock as m = .ok (.returned v) m₁) (bs : List Statement) :
    runBlock (as ++ bs) m = .ok (.returned v) m₁ := by
  rw [runBlock, Run.block_append]
  exact Run.bind_of_ok h _

/-- Statements that follow others which ran to their end run as if they stood alone. -/
theorem runBlock_append_of_ran
    {as : List Statement} {m m₁ : Machine} {v : Option Value} (h : runBlock as m = .ok (.ran v) m₁)
    (bs : List Statement) :
    runBlock (as ++ bs) m = (runBlock bs >>= fun ending => pure (ending.after v)) m₁ := by
  -- The calls of the first part have ended, so in the second as many may nest.
  have hroom : m₁.room = m.room :=
    ((Run.permitted_statements m.room).2.1 as none).room_of_ok rfl h
  have hfirst := Run.bind_of_ok h (Run.onward fun v => Run.block (Run.invoke m.room) bs v)
  rw [runBlock, Run.block_append]
  refine hfirst.trans ?_
  rw [Run.onward, Run.block_eq_after, ← hroom]
  rfl

/-- A source text that is read as statements after others which ran to their end comes to the same
end as a text that is read as those statements alone, up to lines. -/
theorem sameEnd_of_ran
    {whole b : String} {as bs bs' : List Statement} (hwhole : readProgram whole = .ok (as ++ bs'))
    (hb : readProgram b = .ok bs) (hstatements : List.Forall₂ (Statement.Aligned AnyLine) bs' bs)
    {m m₁ : Machine} (hm₁ : m₁.Aligned AnyLine m₁) {v : Option Value}
    (hv : Option.Rel (Value.Aligned AnyLine) v v) (hfirst : runBlock as m = .ok (.ran v) m₁) :
    SameEnd AnyLine (Option.Rel (Value.Aligned AnyLine)) (m.run whole)
      ((m₁.perform b).1.map fun ending => (ending.after v).value, (m₁.perform b).2) := by
  have hrun := runBlock_append_of_ran hfirst bs'
  have hsecond := aligned_runBlock hstatements m₁ m₁ hm₁
  generalize hleft : runBlock bs' m₁ = r at hsecond
  generalize hright : runBlock bs m₁ = r' at hsecond
  cases hsecond with
  | ok hending hmachine =>
      rw [Run.bind_of_ok hleft] at hrun
      rw [run_of_perform ((perform_eq_ok_iff hwhole).mpr hrun), (perform_eq_ok_iff hb).mpr hright]
      exact ⟨.ok (hending.after hv).value, hmachine⟩
  | error he hmachine =>
      rw [Run.bind_of_error hleft] at hrun
      rw [run_of_perform ((perform_eq_error_iff hwhole).mpr hrun),
        (perform_eq_error_iff hb).mpr hright]
      exact ⟨.error (.run he), hmachine⟩

/-- Running two source texts at once, with a line end between them, agrees with running one after
the other, in every machine of a session.  If the first fails while it runs or ends at a return,
running both is running the first.  Otherwise the whole ends as the second does when it is run
next, up to lines, except that the value of the first is kept if the second ran to its end
without one. -/
theorem batch_agrees_with_increments
    {m : Machine} (hm : m.InSession) {a b : String} {as bs : List Statement}
    {lexemes : List Lexeme} (ha : readProgram a = .ok as) (hb : readProgram b = .ok bs)
    (hlex : lex b = .ok lexemes) (hminus : Reader.next? lexemes ≠ some (.mark .minus))
    (hparen : Reader.next? lexemes ≠ some (.mark .leftParen)) :
    (∀ e m₁, m.run a = (.error (.run e), m₁) → m.run (a ++ "\n" ++ b) = m.run a) ∧
    (∀ v m₁, m.perform a = (.ok (.returned v), m₁) → m.run (a ++ "\n" ++ b) = m.run a) ∧
    ∀ v m₁, m.perform a = (.ok (.ran v), m₁) →
      SameEnd AnyLine (Option.Rel (Value.Aligned AnyLine)) (m.run (a ++ "\n" ++ b))
        ((m₁.perform b).1.map fun ending => (ending.after v).value, (m₁.perform b).2) := by
  obtain ⟨bs', hstatements, hwhole⟩ := exists_readProgram_newline ha hb hlex hminus hparen
  refine ⟨fun e m₁ hrun => ?_, fun v m₁ hfirst => ?_, fun v m₁ hfirst => ?_⟩
  · have hfirst := perform_of_run_error hrun
    have hboth := runBlock_append_of_error ((perform_eq_error_iff ha).mp hfirst) bs'
    rw [run_of_perform hfirst, run_of_perform ((perform_eq_error_iff hwhole).mpr hboth)]
  · have hboth := runBlock_append_of_returned ((perform_eq_ok_iff ha).mp hfirst) bs'
    rw [run_of_perform hfirst, run_of_perform ((perform_eq_ok_iff hwhole).mpr hboth)]
  · -- The value that is kept comes from the first text, so it is aligned with itself.
    have hself := hm.aligned.perform_self a
    rw [hfirst] at hself
    cases hself.outcome with
    | ok hending =>
        have hran := (perform_eq_ok_iff ha).mp hfirst
        exact sameEnd_of_ran hwhole hb hstatements hself.machine hending.value hran

/-- A truth value, and then a function on the next line that gives no value. -/
theorem declaration_keeps_value :
    readProgram "true" = .ok [.expression (.literal (.boolean true) 1) 1] ∧
      readProgram "fn f = () : :" = .ok [.function "f" [] [] 1] ∧
      initial.perform "true" = (.ok (.ran (some (.boolean true))), initial) ∧
      SameEnd AnyLine (Option.Rel (Value.Aligned AnyLine)) (initial.run "true\nfn f = () : :")
        (.ok (some (.boolean true)), initial.define ⟨"f", [], [], 1⟩) := by
  have hword : lex "true" = .ok [⟨.boolean true, 1⟩] := by
    with_unfolding_all rfl
  have hlex : lex "fn f = () : :" = .ok [⟨.kind .fn, 1⟩, ⟨.identifier "f", 1⟩, ⟨.mark .equals, 1⟩,
      ⟨.mark .leftParen, 1⟩, ⟨.mark .rightParen, 1⟩, ⟨.mark .colon, 1⟩, ⟨.mark .colon, 1⟩] := by
    with_unfolding_all rfl
  have ha : readProgram "true" = .ok [.expression (.literal (.boolean true) 1) 1] := by
    rw [readProgram, hword]
    cbv
  have hb : readProgram "fn f = () : :" = .ok [.function "f" [] [] 1] := by
    rw [readProgram, hlex]
    cbv
  have hfirst : initial.perform "true" = (.ok (.ran (some (.boolean true))), initial) := by
    rw [perform, ha]
    rfl
  have hsecond : initial.perform "fn f = () : :" =
      (.ok (.ran none), initial.define ⟨"f", [], [], 1⟩) := by
    rw [perform, hb]
    rfl
  have hboth := (batch_agrees_with_increments (.start initial.sink) ha hb hlex (by decide)
    (by decide)).2.2 _ _ hfirst
  rw [hsecond] at hboth
  exact ⟨ha, hb, hfirst, hboth⟩

end Machine
end ColonScript
