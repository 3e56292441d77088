import ColonScript.Run

/-!
# Going over a program once

Facts about runs are proved by going over everything a program can contain.  This module does so
once and for all.  A relation between runs is compatible if it holds of the single steps that
runs are made of and is kept when steps are put together; then it holds of the runs of every
expression and of every statement, as soon as it holds of calls.
-/

namespace ColonScript

/-- A record that a call may bind: its value is of its kind, or it is an array parameter. -/
def Record.Fits (r : Record) : Prop :=
  r.kind = .arr ∨ r.value.kind = r.kind

namespace Run

/-- A relation between runs that holds of every step and is kept by putting steps together.
What follows a step need only be related for values that the step can give. -/
structure Compatible (P : ∀ {α : Type}, Run α → Run α → Prop) : Prop where
  pure : ∀ {α : Type} (a : α), P (pure a) (pure a)
  fail : ∀ {α : Type} (line : Nat) (cause : RunCause),
    P (Run.fail line cause : Run α) (Run.fail line cause)
  bind : ∀ {α β : Type} {x y : Run α} {f g : α → Run β}, P x y →
    (∀ a m m', x m = .ok a m' → P (f a) (g a)) → P (x >>= f) (y >>= g)
  find : ∀ {α : Type} (name : String) {f g : Option Record → Run α}, (∀ r, P (f r) (g r)) →
    P (get >>= fun m => f (m.scopes.find? name)) (get >>= fun m => g (m.scopes.find? name))
  declare : ∀ r : Record, r.value.kind = r.kind →
    P (modify (Machine.mapScopes (·.declare r))) (modify (Machine.mapScopes (·.declare r)))
  define : ∀ f : UserFunction, P (modify (Machine.define f)) (modify (Machine.define f))
  print : ∀ (line : Nat) (text : String), P (Run.print line text) (Run.print line text)
  push : ∀ (line : Nat) (arguments : List Argument),
    P (Native.push line arguments) (Native.push line arguments)
  iterate : ∀ (counter : String) (n : Float) {x y : Run Ending}, P x y →
    P (between (.enterIteration ⟨.num, counter, .number n⟩) .leaveIteration x)
      (between (.enterIteration ⟨.num, counter, .number n⟩) .leaveIteration y)

/-- Two ways to call give related runs for all arguments that a call may bind. -/
def CallsRelate (P : ∀ {α : Type}, Run α → Run α → Prop) (i j : Invocation) : Prop :=
  ∀ f arguments line, (∀ r ∈ arguments, r.Fits) → P (i f arguments line) (j f arguments line)

variable {α β : Type}

theorem bind_of_ok
    {x : Run α} {m m' : Machine} {a : α} (h : x m = .ok a m') (f : α → Run β) :
    (x >>= f) m = f a m' := by
  change EStateM.bind x f m = _
  rw [EStateM.bind, h]

theorem bind_of_error
    {x : Run α} {m m' : Machine} {e : RunError} (h : x m = .error e m') (f : α → Run β) :
    (x >>= f) m = .error e m' := by
  change EStateM.bind x f m = _
  rw [EStateM.bind, h]

theorem exists_ok_of_bind_eq_ok
    {x : Run α} {f : α → Run β} {m m'' : Machine} {b : β} (h : (x >>= f) m = .ok b m'') :
    ∃ a m', x m = .ok a m' ∧ f a m' = .ok b m'' := by
  cases hx : x m with
  | ok a m' =>
      rw [bind_of_ok hx] at h
      exact ⟨a, m', rfl, h⟩
  | error e m' =>
      rw [bind_of_error hx] at h
      cases h

/-- A call ends with the value that its body ends with. -/
theorem invoke_succ
    (room : Nat) (f : UserFunction) (arguments : List Record) (line : Nat) :
    invoke (room + 1) f arguments line =
      between (.enterCall arguments) .leaveCall (block (invoke room) f.body none) >>=
        fun ending => Pure.pure ending.value := by
  rw [invoke, relay_eq, ← map_eq_pure_bind]
  funext m
  simp only [between, Functor.map, EStateM.map]
  cases block (invoke room) f.body none (m.enterCall arguments) <;> rfl

/-- The records that arguments are bound as fit. -/
theorem userArguments_fit
    {i : Invocation} {function : String} {line : Nat} {ps : List Parameter} {es : List Expr}
    {m m' : Machine} {records : List Record}
    (h : userArguments i function line ps es m = .ok records m') :
    ∀ r ∈ records, r.Fits := by
  induction ps generalizing es m records with
  | nil =>
      rw [userArguments.eq_2 _ _ _ _ _ (by simp)] at h
      cases h
      simp
  | cons p ps ih =>
      cases es with
      | nil =>
          rw [userArguments.eq_2 _ _ _ _ _ (by simp)] at h
          cases h
          simp
      | cons e es =>
          rw [userArguments] at h
          obtain ⟨v, m₁, _, h⟩ := exists_ok_of_bind_eq_ok h
          by_cases htakes : p.takes v = true
          · rw [if_pos htakes] at h
            obtain ⟨others, m₂, hothers, h⟩ := exists_ok_of_bind_eq_ok h
            cases h
            intro r hr
            rcases List.mem_cons.mp hr with rfl | hr
            · simpa [Record.Fits, Parameter.takes] using htakes
            · exact ih hothers r hr
          · rw [if_neg htakes] at h
            cases h

namespace Compatible

variable {P : ∀ {α : Type}, Run α → Run α → Prop} (hP : Compatible P)
include hP

theorem lift
    {α : Type} (r : Except RunError α) :
    P (Run.lift r) (Run.lift r) := by
  cases r with
  | ok a => exact hP.pure a
  | error e => exact hP.fail e.line e.cause

theorem require
    (line : Nat) {x y : Run (Option Value)} (h : P x y) :
    P (Run.require line x) (Run.require line y) := by
  refine hP.bind h fun v _ _ _ => ?_
  cases v with
  | none => exact hP.fail line _
  | some v => exact hP.pure v

/-- A step that gives a value which is then changed. -/
theorem andThen
    {α β : Type} {x y : Run α} (h : P x y) (f : α → β) :
    P (x >>= fun a => Pure.pure (f a)) (y >>= fun a => Pure.pure (f a)) :=
  hP.bind h fun a _ _ _ => hP.pure (f a)

theorem index
    (line : Nat) (arguments : List Argument) :
    P (Native.index line arguments) (Native.index line arguments) := by
  match arguments with
  | [] | [_] | _ :: _ :: _ :: _ => exact hP.fail line _
  | [array, position] =>
      refine hP.bind (hP.lift (array.value.asElements line)) fun elements _ _ _ => ?_
      refine hP.bind (hP.lift (position.value.asInteger line)) fun i _ _ _ => ?_
      exact hP.andThen (hP.lift (Native.elementAt line elements i)) some

theorem routine
    (r : Routine) (line : Nat) (arguments : List Argument) :
    P (r.run line arguments) (r.run line arguments) := by
  cases r with
  | shon => exact hP.andThen (hP.print line _) fun _ => none
  | push => exact hP.push line arguments
  | index => exact hP.index line arguments
  | bindings => exact hP.pure _
  | peek => exact hP.find _ fun r => hP.pure _
  | pushTo =>
      cases arguments with
      | nil => exact hP.push line []
      | cons target others => exact hP.push line _
  | say => exact hP.andThen (hP.print line _) fun _ => some _

theorem lookup
    {α : Type} (name : String) {f g : Option Value → Run α} (h : ∀ v, P (f v) (g v)) :
    P (get >>= fun m => f (m.valueOf? name)) (get >>= fun m => g (m.valueOf? name)) :=
  hP.find name fun r => h (r.map Record.value)

variable {i j : Invocation}

theorem callNative
    {arguments : List Expr} (harguments : P (nativeArguments i arguments)
      (nativeArguments j arguments))
    (f : NativeFunction) (line : Nat) :
    P (Run.callNative i f arguments line) (Run.callNative j f arguments line) := by
  unfold Run.callNative
  split
  · exact hP.bind harguments fun vs _ _ _ => hP.routine f.routine line vs
  · exact hP.fail line _

theorem callUser
    (hcalls : CallsRelate P i j) {f : UserFunction} {arguments : List Expr} {line : Nat}
    (harguments : P (userArguments i f.name line f.parameters arguments)
      (userArguments j f.name line f.parameters arguments)) :
    P (Run.callUser i f arguments line) (Run.callUser j f arguments line) := by
  unfold Run.callUser
  split
  · refine hP.bind harguments fun records m m' hrecords => ?_
    exact hcalls f records line (userArguments_fit hrecords)
  · exact hP.fail line _

theorem call
    (hcalls : CallsRelate P i j) {callee : String} {arguments : List Expr} {line : Nat}
    (hnative : P (nativeArguments i arguments) (nativeArguments j arguments))
    (huser : ∀ f : UserFunction, P (userArguments i f.name line f.parameters arguments)
      (userArguments j f.name line f.parameters arguments)) :
    P (expr i (.call callee arguments line)) (expr j (.call callee arguments line)) := by
  rw [expr_call, expr_call]
  refine hP.lookup callee fun found => ?_
  unfold callValue
  split
  · next f => exact hP.callNative hnative f line
  · next f => exact hP.callUser hcalls (huser f)
  · exact hP.fail line _
  · exact hP.fail line _

/-- Runs of expressions are related as soon as calls are. -/
theorem expressions
    (hcalls : CallsRelate P i j) :
    (∀ e, P (expr i e) (expr j e)) ∧ (∀ es, P (values i es) (values j es)) ∧
      (∀ function line ps es, P (userArguments i function line ps es)
        (userArguments j function line ps es)) ∧
      ∀ es, P (nativeArguments i es) (nativeArguments j es) := by
  refine expr.mutual_induct _ _ _ _ ?literal ?name ?negate ?binary ?call ?array ?noValues ?values
    ?argument ?noArguments ?noNatives ?native
  case literal =>
    intro constant line
    rw [expr, expr]
    exact hP.pure _
  case name =>
    intro name line
    rw [expr_name, expr_name]
    refine hP.lookup name fun v => ?_
    cases v with
    | none => exact hP.fail line _
    | some v => exact hP.pure _
  case negate =>
    intro operand line hoperand
    rw [expr, expr]
    refine hP.bind (hP.require operand.line hoperand) fun v _ _ _ => ?_
    exact hP.andThen (hP.lift (v.negate line)) some
  case binary =>
    intro op left right line hleft hright
    rw [expr, expr]
    refine hP.bind (hP.require left.line hleft) fun l _ _ _ => ?_
    refine hP.bind (hP.require right.line hright) fun r _ _ _ => ?_
    exact hP.andThen (hP.lift (op.apply line l r)) some
  case call =>
    intro callee arguments line hnative huser
    exact hP.call hcalls hnative huser
  case array =>
    intro elements line helements
    rw [expr, expr]
    exact hP.andThen helements fun vs => some (Value.array vs)
  case noValues =>
    rw [values, values]
    exact hP.pure _
  case values =>
    intro e es he hes
    rw [values, values]
    refine hP.bind (hP.require e.line he) fun v _ _ _ => ?_
    exact hP.andThen hes (v :: ·)
  case argument =>
    intro function line p ps e es he hes
    rw [userArguments, userArguments]
    refine hP.bind (hP.require e.line he) fun v _ _ _ => ?_
    split
    · exact hP.andThen hes (⟨p.kind, p.name, v⟩ :: ·)
    · exact hP.fail line _
  case noArguments =>
    intro es function line ps hends
    rw [userArguments.eq_2 _ _ _ _ _ hends, userArguments.eq_2 _ _ _ _ _ hends]
    exact hP.pure _
  case noNatives =>
    rw [nativeArguments, nativeArguments]
    exact hP.pure _
  case native =>
    intro e es he hes
    rw [nativeArguments, nativeArguments]
    refine hP.bind (hP.require e.line he) fun v _ _ _ => ?_
    exact hP.andThen hes (⟨v, e.bareName?⟩ :: ·)

theorem bound
    {e : Expr} (he : P (expr i e) (expr j e)) (which : LoopBound) (line : Nat) :
    P (Run.bound i which line e) (Run.bound j which line e) := by
  refine hP.bind (hP.require e.line he) fun v _ _ _ => ?_
  cases v.asInteger line with
  | ok n => exact hP.pure n
  | error _ => exact hP.fail line _

theorem guard
    (hexpr : ∀ e, P (expr i e) (expr j e)) (line : Nat) (condition : Option Expr) :
    P (Run.guard i line condition) (Run.guard j line condition) := by
  cases condition with
  | none => exact hP.pure true
  | some e =>
      refine hP.bind (hP.require e.line (hexpr e)) fun v _ _ _ => ?_
      exact hP.lift (v.asBool line)

theorem iteration
    {x y : Run Ending} (h : P x y) (counter : String) (line : Nat) (n : Int) :
    P (Run.iteration counter line x n) (Run.iteration counter line y n) := by
  unfold Run.iteration
  split
  · exact hP.fail line _
  · next number _ => exact hP.andThen (hP.iterate counter number h) fun _ => ()

theorem forEach
    {f g : Int → Run Unit} (h : ∀ n, P (f n) (g n)) (step : Int) (count : Nat) (start : Int) :
    P (Run.forEach step f count start) (Run.forEach step g count start) := by
  induction count generalizing start with
  | zero => exact hP.pure ()
  | succ count ih => exact hP.bind (h start) fun _ _ _ _ => ih (start + step)

/-- Runs of statements are related as soon as calls are. -/
theorem statements
    (hcalls : CallsRelate P i j) :
    (∀ s, P (statement i s) (statement j s)) ∧
      (∀ ss last, P (block i ss last) (block j ss last)) ∧
      ∀ chain, P (arms i chain) (arms j chain) := by
  have hexpr := (hP.expressions hcalls).1
  refine statement.mutual_induct _ _ _ ?declare ?function ?conditional ?loop ?returns ?expression
    ?blockEnd ?blockStep ?noArms ?arm
  case declare =>
    intro kind name initializer line
    rw [statement, statement]
    refine hP.bind (hP.require initializer.line (hexpr initializer)) fun v _ _ _ => ?_
    by_cases hkind : v.kind = kind
    · rw [if_pos hkind]
      exact hP.andThen (hP.declare ⟨kind, name, v⟩ hkind) fun _ => Ending.ran none
    · rw [if_neg hkind]
      exact hP.fail line _
  case function =>
    intro name parameters body line
    rw [statement, statement]
    exact hP.andThen (hP.define ⟨name, parameters, body, line⟩) fun _ => Ending.ran none
  case conditional =>
    intro chain line hchain
    rw [statement, statement]
    exact hchain
  case loop =>
    intro counter first last body line hbody
    rw [statement, statement]
    refine hP.bind (hP.bound (hexpr first) .first line) fun start _ _ _ => ?_
    refine hP.bind (hP.bound (hexpr last) .last line) fun stop _ _ _ => ?_
    have hiterations := hP.forEach (hP.iteration hbody counter line)
      (if start ≤ stop then 1 else -1) ((stop - start).natAbs + 1) start
    exact hP.andThen hiterations fun _ => Ending.ran none
  case returns =>
    intro e line
    rw [statement, statement]
    exact hP.andThen (hexpr e) Ending.returned
  case expression =>
    intro e line
    rw [statement, statement]
    exact hP.andThen (hexpr e) Ending.ran
  case blockEnd =>
    intro last
    rw [block, block]
    exact hP.pure _
  case blockStep =>
    intro s rest last hs hrest
    rw [block, block]
    refine hP.bind hs fun ending _ _ _ => ?_
    cases ending with
    | ran v => exact hrest v
    | returned v => exact hP.pure _
  case noArms =>
    rw [arms, arms]
    exact hP.pure _
  case arm =>
    intro condition body line rest hbody hrest
    rw [arms, arms]
    refine hP.bind (hP.guard hexpr line condition) fun taken _ _ _ => ?_
    cases taken with
    | false => exact hrest
    | true =>
        refine hP.bind hbody fun ending _ _ _ => ?_
        cases ending with
        | ran v => exact hP.pure _
        | returned v => exact hP.pure _

end Compatible
end Run
end ColonScript
