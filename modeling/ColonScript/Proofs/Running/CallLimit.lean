import ColonScript.Proofs.Running.Reaching

/-!
# Where the limit on nested calls is met

A run fails at the limit only where it has come to a call that is accepted while as many calls as
allowed are active: no step other than a call can fail in this way, and a call that may still be
made fails so only if its body does.  Since failures are not held up, the converse holds too
(`Machine.fails_iff_meetsLimit`).
-/

namespace ColonScript

/-! ## Steps that the limit does not concern -/

namespace Run

variable {α β : Type}

/-- A run that never fails for the number of calls that are active. -/
def Unlimited (act : Run α) : Prop :=
  ∀ m line, ¬act.Fails m ⟨.recursionLimit, line⟩

theorem unlimited_pure
    (a : α) :
    (pure a : Run α).Unlimited := by
  rintro m line ⟨n, hn⟩
  cases hn

theorem unlimited_fail
    (line : Nat) {cause : RunCause} (h : cause ≠ .recursionLimit) :
    (fail line cause : Run α).Unlimited := by
  rintro m line' ⟨n, hn⟩
  cases hn
  exact h rfl

theorem unlimited_lift
    {r : Except RunError α} (h : ∀ line, r ≠ .error ⟨.recursionLimit, line⟩) :
    (lift r).Unlimited := by
  rintro m line ⟨n, hn⟩
  cases r with
  | ok a => cases hn
  | error e =>
      cases hn
      exact h line rfl

section
variable {m : Machine} {line : Nat}

/-- If what follows a step does not fail at the limit, the step does. -/
theorem Fails.limit_of_bind
    {x : Run α} {f : α → Run β} (h : (x >>= f).Fails m ⟨.recursionLimit, line⟩)
    (hf : ∀ a, (f a).Unlimited) :
    x.Fails m ⟨.recursionLimit, line⟩ := by
  obtain hx | ⟨a, m', _, hfa⟩ := h.of_bind
  · exact hx
  · exact absurd hfa (hf a m' line)

theorem Fails.limit_of_require
    {x : Run (Option Value)} {line' : Nat}
    (h : (Run.require line' x).Fails m ⟨.recursionLimit, line⟩) :
    x.Fails m ⟨.recursionLimit, line⟩ := by
  refine h.limit_of_bind fun v => ?_
  cases v with
  | none => exact unlimited_fail line' (by simp)
  | some v => exact unlimited_pure v

end

theorem Unlimited.bind
    {x : Run α} {f : α → Run β} (hx : x.Unlimited) (hf : ∀ a, (f a).Unlimited) :
    (x >>= f).Unlimited :=
  fun m line h => hx m line (h.limit_of_bind hf)

theorem unlimited_modify
    (g : Machine → Machine) :
    (modify g : Run PUnit).Unlimited := by
  rintro m line ⟨n, hn⟩
  cases hn

theorem unlimited_print
    (line : Nat) (text : String) :
    (print line text).Unlimited := by
  rintro m line' ⟨n, hn⟩
  rw [print_apply] at hn
  split at hn <;> cases hn

theorem unlimited_push
    (line : Nat) (arguments : List Argument) :
    (Native.push line arguments).Unlimited := by
  match arguments with
  | [] | [_] | _ :: _ :: _ :: _ => exact unlimited_fail line (by simp)
  | [⟨_, none⟩, item] => exact unlimited_fail line (by simp)
  | [⟨v, some name⟩, item] =>
      rintro m line' ⟨n, hn⟩
      rw [Native.push_named] at hn
      split at hn <;> cases hn

theorem unlimited_negate
    (v : Value) (line : Nat) :
    (lift (v.negate line)).Unlimited := by
  apply unlimited_lift
  cases v <;> simp [Value.negate]

theorem unlimited_asBool
    (v : Value) (line : Nat) :
    (lift (v.asBool line)).Unlimited := by
  apply unlimited_lift
  cases v <;> simp [Value.asBool]

theorem onNumbers_ne_limit
    (op : BinaryOp) (line : Nat) (l r : Float) (line' : Nat) :
    op.onNumbers line l r ≠ .error ⟨.recursionLimit, line'⟩ := by
  cases op with
  | div | mod =>
      rw [BinaryOp.onNumbers]
      split <;> simp
  | _ => simp [BinaryOp.onNumbers]

theorem unlimited_apply
    (op : BinaryOp) (line : Nat) (left right : Value) :
    (lift (op.apply line left right)).Unlimited := by
  apply unlimited_lift
  intro line' h
  unfold BinaryOp.apply BinaryOp.arithmetic at h
  split at h
  · cases h
  · split at h
    · next l r =>
      cases hn : op.onNumbers line l r with
      | ok n =>
          rw [hn] at h
          cases h
      | error e =>
          rw [hn] at h
          cases h
          exact onNumbers_ne_limit op line l r line' hn
    · cases h

theorem unlimited_asInteger
    (v : Value) (line : Nat) :
    (lift (v.asInteger line)).Unlimited := by
  apply unlimited_lift
  intro line'
  cases v with
  | number x =>
      change Value.integerOf line x ≠ _
      unfold Value.integerOf
      split
      · simp
      · next e _ => cases e <;> simp [Value.integerCause]
  | _ =>
      intro h
      cases h

theorem unlimited_index
    (line : Nat) (arguments : List Argument) :
    (Native.index line arguments).Unlimited := by
  match arguments with
  | [] | [_] | _ :: _ :: _ :: _ => exact unlimited_fail line (by simp)
  | [array, position] =>
      have helements : (lift (array.value.asElements line)).Unlimited := by
        apply unlimited_lift
        cases array.value <;> simp [Value.asElements]
      have hat (elements : List Value) (i : Int) :
          (lift (Native.elementAt line elements i)).Unlimited := by
        apply unlimited_lift
        intro line'
        unfold Native.elementAt
        split <;> simp
      refine helements.bind fun elements => ?_
      refine (unlimited_asInteger position.value line).bind fun i => ?_
      exact (hat elements i).bind fun v => unlimited_pure (some v)

theorem unlimited_routine
    (r : Routine) (line : Nat) (arguments : List Argument) :
    (r.run line arguments).Unlimited := by
  cases r with
  | shon | say => exact (unlimited_print line _).bind fun _ => unlimited_pure _
  | push => exact unlimited_push line arguments
  | index => exact unlimited_index line arguments
  | bindings => exact unlimited_pure _
  | peek => exact fun m l h => unlimited_pure _ m l h
  | pushTo =>
      cases arguments with
      | nil => exact unlimited_push line []
      | cons target others => exact unlimited_push line _

end Run

/-! ## Where the limit is met -/

namespace Machine

/-- Running `t` comes to a call on a line that is accepted while no more calls may nest. -/
def MeetsLimit (room : Nat) (t : Task) (m : Machine) (line : Nat) : Prop :=
  ∃ callee arguments f records n n',
    Reaches room t m 0 (.expr (.call callee arguments line)) n ∧
      Accepts 0 callee arguments line n f records n'

theorem MeetsLimit.of_starts
    {room : Nat} {t t' : Task} {m m' : Machine} {line : Nat} (h : MeetsLimit room t' m' line)
    (hstarts : Starts room t m t' m') :
    MeetsLimit room t m line := by
  obtain ⟨callee, arguments, f, records, n, n', hreaches, haccepts⟩ := h
  exact ⟨callee, arguments, f, records, n, n', .inside hstarts hreaches, haccepts⟩

end Machine

/-- Whenever `t` fails at the limit, it has come to a call that meets the limit. -/
def Task.Traced (room : Nat) (t : Task) : Prop :=
  ∀ m line, t.Fails room m ⟨.recursionLimit, line⟩ → m.MeetsLimit room t line

namespace Machine

/-- A call that is accepted and fails at the limit is refused itself, or comes to a call in its body
that is. -/
theorem Accepts.meetsLimit
    {room : Nat} {callee : String} {arguments : List Expr} {line line' : Nat} {m m' : Machine}
    {f : UserFunction} {records : List Record}
    (h : Accepts room callee arguments line m f records m')
    (hbodies : ∀ r < room, ∀ ss last, (Task.block ss last).Traced r)
    (hfails : (Run.invoke room f records line).Fails m' ⟨.recursionLimit, line'⟩) :
    MeetsLimit room (.expr (.call callee arguments line)) m line' := by
  cases room with
  | zero =>
      obtain ⟨n, hn⟩ := hfails
      cases hn
      exact ⟨callee, arguments, f, records, m, m', .here, h⟩
  | succ room =>
      rw [Run.invoke_succ] at hfails
      have hbody := Run.fails_between.mp (hfails.limit_of_bind fun _ => Run.unlimited_pure _)
      obtain ⟨callee', arguments', g, records', n, n', hreaches, haccepts⟩ :=
        hbodies room (Nat.lt_succ_self room) f.body none _ line' hbody
      exact ⟨callee', arguments', g, records', n, n', .called h hreaches, haccepts⟩

end Machine

namespace Run

open Machine

variable {room : Nat}

theorem traced_call
    {callee : String} {arguments : List Expr} {line : Nat}
    (hbodies : ∀ r < room, ∀ ss last, (Task.block ss last).Traced r)
    (hnative : (Task.nativeArguments arguments).Traced room)
    (huser : ∀ f : UserFunction,
      (Task.userArguments f.name line f.parameters arguments).Traced room) :
    (Task.expr (.call callee arguments line)).Traced room := by
  intro m line' h
  rw [Task.Fails, fails_expr_call] at h
  unfold callValue at h
  split at h
  · next identity f hcallee =>
    unfold callNative at h
    split at h
    · next hcount =>
      have harguments := h.limit_of_bind fun values => unlimited_routine f.routine line values
      exact (hnative m line' harguments).of_starts (.natives hcallee hcount)
    · exact absurd h (unlimited_fail line (by simp) m line')
  · next identity f hcallee =>
    unfold callUser at h
    split at h
    · next hcount =>
      obtain harguments | ⟨records, m', hrecords, hcall⟩ := h.of_bind
      · exact (huser f m line' harguments).of_starts (.arguments hcallee hcount)
      · have haccepts : Accepts room callee arguments line m f records m' :=
          ⟨⟨identity, hcallee⟩, hcount, hrecords⟩
        exact haccepts.meetsLimit hbodies hcall
    · exact absurd h (unlimited_fail line (by simp) m line')
  · exact absurd h (unlimited_fail line (by simp) m line')
  · exact absurd h (unlimited_fail line (by simp) m line')

/-- Expressions fail at the limit only where a call meets it, if the bodies of calls do. -/
theorem traced_expressions
    (hbodies : ∀ r < room, ∀ ss last, (Task.block ss last).Traced r) :
    (∀ e, (Task.expr e).Traced room) ∧ (∀ es, (Task.values es).Traced room) ∧
      (∀ function line ps es, (Task.userArguments function line ps es).Traced room) ∧
      ∀ es, (Task.nativeArguments es).Traced room := by
  refine expr.mutual_induct _ _ _ _ ?literal ?name ?negate ?binary ?call ?array ?noValues ?values
    ?argument ?noArguments ?noNatives ?native
  case literal =>
    intro constant line m line' h
    rw [Task.Fails, expr] at h
    exact absurd h (unlimited_pure _ m line')
  case name =>
    intro name line m line' h
    rw [Task.Fails, expr_name] at h
    have hvalue : (nameValue name line (m.valueOf? name)).Unlimited := by
      cases m.valueOf? name with
      | none => exact unlimited_fail line (by simp)
      | some v => exact unlimited_pure _
    exact absurd h (hvalue m line')
  case negate =>
    intro operand line hoperand m line' h
    rw [Task.Fails, expr] at h
    have hfails := h.limit_of_bind fun v =>
      (unlimited_negate v line).bind fun w => unlimited_pure (some w)
    exact (hoperand m line' hfails.limit_of_require).of_starts .operand
  case binary =>
    intro op left right line hleft hright m line' h
    rw [Task.Fails, expr] at h
    obtain hfails | ⟨l, m', hl, h⟩ := h.of_bind
    · exact (hleft m line' hfails.limit_of_require).of_starts .left
    · have hfails := h.limit_of_bind fun r =>
        (unlimited_apply op line l r).bind fun w => unlimited_pure (some w)
      have hmeets := hright m' line' hfails.limit_of_require
      exact hmeets.of_starts (.right (exists_ok_of_require hl))
  case call =>
    intro callee arguments line hnative huser
    exact traced_call hbodies hnative huser
  case array =>
    intro elements line helements m line' h
    rw [Task.Fails, expr] at h
    have hfails := h.limit_of_bind fun _ => unlimited_pure _
    exact (helements m line' hfails).of_starts .elements
  case noValues =>
    intro m line' h
    rw [Task.Fails, values] at h
    exact absurd h (unlimited_pure _ m line')
  case values =>
    intro e es he hes m line' h
    rw [Task.Fails, values] at h
    obtain hfails | ⟨v, m', hv, h⟩ := h.of_bind
    · exact (he m line' hfails.limit_of_require).of_starts .firstValue
    · have hfails := h.limit_of_bind fun _ => unlimited_pure _
      exact (hes m' line' hfails).of_starts (.otherValues (exists_ok_of_require hv))
  case argument =>
    intro function line p ps e es he hes m line' h
    rw [Task.Fails, userArguments] at h
    obtain hfails | ⟨v, m', hv, h⟩ := h.of_bind
    · exact (he m line' hfails.limit_of_require).of_starts .firstArgument
    · split at h
      · next htakes =>
        have hfails := h.limit_of_bind fun _ => unlimited_pure _
        have hmeets := hes m' line' hfails
        exact hmeets.of_starts (.otherArguments (exists_ok_of_require hv) htakes)
      · exact absurd h (unlimited_fail line (by simp) m' line')
  case noArguments =>
    intro es function line ps hends m line' h
    rw [Task.Fails, userArguments.eq_2 _ _ _ _ _ hends] at h
    exact absurd h (unlimited_pure _ m line')
  case noNatives =>
    intro m line' h
    rw [Task.Fails, nativeArguments] at h
    exact absurd h (unlimited_pure _ m line')
  case native =>
    intro e es he hes m line' h
    rw [Task.Fails, nativeArguments] at h
    obtain hfails | ⟨v, m', hv, h⟩ := h.of_bind
    · exact (he m line' hfails.limit_of_require).of_starts .firstNative
    · have hfails := h.limit_of_bind fun _ => unlimited_pure _
      exact (hes m' line' hfails).of_starts (.otherNatives (exists_ok_of_require hv))

theorem limit_of_bound
    {inv : Invocation} {which : LoopBound} {line line' : Nat} {e : Expr} {m : Machine}
    (h : (bound inv which line e).Fails m ⟨.recursionLimit, line'⟩) :
    (expr inv e).Fails m ⟨.recursionLimit, line'⟩ := by
  refine (h.limit_of_bind fun v => ?_).limit_of_require
  split
  · exact unlimited_pure _
  · exact unlimited_fail line (by simp)

theorem traced_iterations
    {body : List Statement} (hbody : (Task.block body none).Traced room) (counter : String)
    (line : Nat) (step : Int) (count : Nat) (start : Int) :
    (Task.iterations counter line body step count start).Traced room := by
  induction count generalizing start with
  | zero => exact fun m line' h => absurd h (unlimited_pure () m line')
  | succ count ih =>
      intro m line' h
      rw [Task.Fails, forEach] at h
      obtain hfails | ⟨_, m', hok, h⟩ := h.of_bind
      · unfold iteration at hfails
        split at hfails
        · exact absurd hfails (unlimited_fail line (by simp) m line')
        · next n hn =>
          have hblock := fails_between.mp (hfails.limit_of_bind fun _ => unlimited_pure ())
          exact (hbody _ line' hblock).of_starts (.iteration hn)
      · exact (ih (start + step) m' line' h).of_starts (.otherIterations hok)

theorem traced_arm
    (hexpr : ∀ e, (Task.expr e).Traced room) {condition : Option Expr} {body : List Statement}
    {line : Nat} {rest : List Arm} (hbody : (Task.block body none).Traced room)
    (hrest : (Task.arms rest).Traced room) :
    (Task.arms (.mk condition body line :: rest)).Traced room := by
  intro m line' h
  rw [Task.Fails, arms] at h
  obtain hguard | ⟨taken, m', hguard, h⟩ := h.of_bind
  · cases condition with
    | none => exact absurd hguard (unlimited_pure true m line')
    | some e =>
        have hfails := hguard.limit_of_bind fun v => unlimited_asBool v line
        exact (hexpr e m line' hfails.limit_of_require).of_starts .guard
  · cases taken with
    | false => exact (hrest m' line' h).of_starts (.otherArms hguard)
    | true =>
        have hfails := h.limit_of_bind fun ending => by
          cases ending <;> exact unlimited_pure _
        exact (hbody m' line' hfails).of_starts (.taken hguard)

/-- Statements fail at the limit only where a call meets it, if the bodies of calls do. -/
theorem traced_statements
    (hbodies : ∀ r < room, ∀ ss last, (Task.block ss last).Traced r) :
    (∀ s, (Task.statement s).Traced room) ∧ (∀ ss last, (Task.block ss last).Traced room) ∧
      ∀ chain, (Task.arms chain).Traced room := by
  have hexpr := (traced_expressions hbodies).1
  refine statement.mutual_induct _ _ _ ?declare ?function ?conditional ?loop ?returns ?expression
    ?blockEnd ?blockStep ?noArms ?arm
  case declare =>
    intro kind name initializer line m line' h
    rw [Task.Fails, statement] at h
    have hfails := h.limit_of_bind fun v => by
      split
      · exact (unlimited_modify _).bind fun _ => unlimited_pure _
      · exact unlimited_fail line (by simp)
    exact (hexpr initializer m line' hfails.limit_of_require).of_starts .initializer
  case function =>
    intro name parameters body line m line' h
    rw [Task.Fails, statement] at h
    exact absurd h ((unlimited_modify _).bind (fun _ => unlimited_pure _) m line')
  case conditional =>
    intro chain line hchain m line' h
    rw [Task.Fails, statement] at h
    exact (hchain m line' h).of_starts .chain
  case loop =>
    intro counter first last body line hbody m line' h
    rw [Task.Fails, statement] at h
    obtain hfails | ⟨start, m₁, hstart, h⟩ := h.of_bind
    · exact (hexpr first m line' (limit_of_bound hfails)).of_starts .firstBound
    obtain hfails | ⟨stop, m₂, hstop, h⟩ := h.of_bind
    · exact (hexpr last m₁ line' (limit_of_bound hfails)).of_starts (.lastBound hstart)
    have hfails := h.limit_of_bind fun _ => unlimited_pure _
    have hmeets := traced_iterations hbody counter line _ _ start m₂ line' hfails
    exact hmeets.of_starts (.iterations hstart hstop)
  case returns =>
    intro e line m line' h
    rw [Task.Fails, statement] at h
    exact (hexpr e m line' (h.limit_of_bind fun _ => unlimited_pure _)).of_starts .returned
  case expression =>
    intro e line m line' h
    rw [Task.Fails, statement] at h
    exact (hexpr e m line' (h.limit_of_bind fun _ => unlimited_pure _)).of_starts .expression
  case blockEnd =>
    intro last m line' h
    rw [Task.Fails, block] at h
    exact absurd h (unlimited_pure _ m line')
  case blockStep =>
    intro s rest last hs hrest m line' h
    rw [Task.Fails, block] at h
    obtain hfails | ⟨ending, m', hok, h⟩ := h.of_bind
    · exact (hs m line' hfails).of_starts .firstStatement
    · cases ending with
      | ran v => exact (hrest v m' line' h).of_starts (.otherStatements hok)
      | returned v => exact absurd h (unlimited_pure _ m' line')
  case noArms =>
    intro m line' h
    rw [Task.Fails, arms] at h
    exact absurd h (unlimited_pure _ m line')
  case arm =>
    intro condition body line rest hbody hrest
    exact traced_arm hexpr hbody hrest

theorem traced_block
    (room : Nat) (ss : List Statement) (last : Option Value) :
    (Task.block ss last).Traced room := by
  -- The bodies of calls are not part of the calls, so the number of calls that may nest carries the
  -- induction from them to whatever contains the calls.
  induction room using Nat.strongRecOn generalizing ss last with
  | _ room ih => exact (traced_statements ih).2.1 ss last

end Run

namespace Task

/-- Whatever is run fails at the limit only where a call meets it. -/
theorem traced
    (room : Nat) (t : Task) :
    t.Traced room := by
  have hbodies (r : Nat) (_ : r < room) := Run.traced_block r
  obtain ⟨hexpr, hvalues, hargs, hnatives⟩ := Run.traced_expressions hbodies
  obtain ⟨hstatement, hblock, harms⟩ := Run.traced_statements hbodies
  cases t with
  | expr e => exact hexpr e
  | values es => exact hvalues es
  | nativeArguments es => exact hnatives es
  | userArguments function line ps es => exact hargs function line ps es
  | statement s => exact hstatement s
  | arms chain => exact harms chain
  | iterations counter line body step count start =>
      exact Run.traced_iterations (hblock body none) counter line step count start
  | block ss last => exact hblock ss last

end Task

namespace Machine

/-- A run fails at the limit exactly where it comes to a call that is accepted while no more calls
may nest. -/
theorem fails_iff_meetsLimit
    {room : Nat} {t : Task} {m : Machine} {line : Nat} :
    t.Fails room m ⟨.recursionLimit, line⟩ ↔ m.MeetsLimit room t line := by
  constructor
  · exact t.traced room m line
  · rintro ⟨callee, arguments, f, records, n, n', hreaches, haccepts⟩
    exact hreaches.fails ⟨n', haccepts.expr_call⟩

end Machine
end ColonScript
