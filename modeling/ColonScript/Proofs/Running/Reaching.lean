import ColonScript.Proofs.Running.Changes

/-!
# What a run comes to run

While something is run, other things are: the operands of an expression, the arguments and the body
of a call, the statements of a block.  `Machine.Starts` lists what is run directly as part of
something else, and in which machine; `Machine.Reaches` follows this down through calls, each of
which leaves room for one call less (`Machine.Reaches.depth_add_room`).  A failure is never held up
on the way: if anything that is reached fails, everything around it fails with the same error
(`Machine.Reaches.fails`).
-/

namespace ColonScript

namespace Run

variable {α β : Type}

/-- A run that starts in `m` ends in a failure. -/
def Fails (act : Run α) (m : Machine) (e : RunError) : Prop :=
  ∃ m', act m = .error e m'

section
variable {m m' : Machine} {e : RunError}

theorem Fails.bind
    {x : Run α} (h : x.Fails m e) (f : α → Run β) :
    (x >>= f).Fails m e := by
  obtain ⟨n, hn⟩ := h
  exact ⟨n, bind_of_error hn f⟩

theorem Fails.afterOk
    {x : Run α} {a : α} (hx : x m = .ok a m') {f : α → Run β} (h : (f a).Fails m' e) :
    (x >>= f).Fails m e := by
  obtain ⟨n, hn⟩ := h
  exact ⟨n, (bind_of_ok hx f).trans hn⟩

/-- What is put together from two parts fails where one of them does. -/
theorem Fails.of_bind
    {x : Run α} {f : α → Run β} (h : (x >>= f).Fails m e) :
    x.Fails m e ∨ ∃ a m', x m = .ok a m' ∧ (f a).Fails m' e := by
  obtain ⟨n, hn⟩ := h
  cases hx : x m with
  | ok a m' =>
      rw [bind_of_ok hx] at hn
      exact .inr ⟨a, m', rfl, n, hn⟩
  | error e' m' =>
      rw [bind_of_error hx] at hn
      cases hn
      exact .inl ⟨n, hx⟩

theorem require_of_ok
    {x : Run (Option Value)} {v : Value} (h : x m = .ok (some v) m') (line : Nat) :
    require line x m = .ok v m' :=
  bind_of_ok h _

theorem exists_ok_of_require
    {x : Run (Option Value)} {v : Value} {line : Nat} (h : require line x m = .ok v m') :
    x m = .ok (some v) m' := by
  obtain ⟨found, n, hx, hfound⟩ := exists_ok_of_bind_eq_ok h
  cases found with
  | none => cases hfound
  | some w =>
      cases hfound
      exact hx

theorem Fails.require
    {x : Run (Option Value)} (h : x.Fails m e) (line : Nat) :
    (Run.require line x).Fails m e :=
  h.bind _

/-- A call goes on with what its callee means. -/
theorem fails_expr_call
    {inv : Invocation} {callee : String} {arguments : List Expr} {line : Nat} :
    (expr inv (.call callee arguments line)).Fails m e ↔
      (callValue inv callee arguments line (m.valueOf? callee)).Fails m e := by
  rw [expr_call]
  exact Iff.rfl

theorem fails_between
    {enter leave : Machine → Machine} {x : Run α} :
    (between enter leave x).Fails m e ↔ x.Fails (enter m) e := by
  constructor
  · rintro ⟨n, hn⟩
    unfold between at hn
    split at hn
    · cases hn
    · next e' m' hx =>
      cases hn
      exact ⟨m', hx⟩
  · rintro ⟨n, hn⟩
    exact ⟨leave n, by rw [between, hn]⟩

end

end Run

/-- What can be run. -/
inductive Task where
  | expr (e : Expr)
  | values (es : List Expr)
  | nativeArguments (es : List Expr)
  | userArguments (function : String) (line : Nat) (ps : List Parameter) (es : List Expr)
  | statement (s : Statement)
  | arms (chain : List Arm)
  | iterations (counter : String) (line : Nat) (body : List Statement) (step : Int) (count : Nat)
      (start : Int)
  | block (ss : List Statement) (last : Option Value)

/-- Running something in a machine ends in a failure, when so many calls may still nest. -/
def Task.Fails (room : Nat) (m : Machine) (e : RunError) : Task → Prop
  | expr ex => (Run.expr (Run.invoke room) ex).Fails m e
  | values es => (Run.values (Run.invoke room) es).Fails m e
  | nativeArguments es => (Run.nativeArguments (Run.invoke room) es).Fails m e
  | userArguments function line ps es =>
      (Run.userArguments (Run.invoke room) function line ps es).Fails m e
  | statement s => (Run.statement (Run.invoke room) s).Fails m e
  | arms chain => (Run.arms (Run.invoke room) chain).Fails m e
  | iterations counter line body step count start =>
      (Run.forEach step (Run.iteration counter line (Run.block (Run.invoke room) body none)) count
        start).Fails m e
  | block ss last => (Run.block (Run.invoke room) ss last).Fails m e

namespace Machine

/-- `Starts room t m t' m'` says that `t`, while it is run in `m`, has `t'` run in `m'` as a direct
part of it, when `room` calls may still nest.  The bodies of calls are left aside. -/
inductive Starts (room : Nat) : Task → Machine → Task → Machine → Prop
  | operand {e : Expr} {line : Nat} {m : Machine} :
      Starts room (.expr (.negate e line)) m (.expr e) m
  | left {op : BinaryOp} {l r : Expr} {line : Nat} {m : Machine} :
      Starts room (.expr (.binary op l r line)) m (.expr l) m
  | right {op : BinaryOp} {l r : Expr} {line : Nat} {v : Value} {m m' : Machine} :
      Run.expr (Run.invoke room) l m = .ok (some v) m' →
      Starts room (.expr (.binary op l r line)) m (.expr r) m'
  | elements {es : List Expr} {line : Nat} {m : Machine} :
      Starts room (.expr (.array es line)) m (.values es) m
  | natives {callee : String} {es : List Expr} {line identity : Nat} {f : NativeFunction}
      {m : Machine} :
      m.valueOf? callee = some (.function identity (.native f)) →
      f.arity.accepts es.length = true →
      Starts room (.expr (.call callee es line)) m (.nativeArguments es) m
  | arguments {callee : String} {es : List Expr} {line identity : Nat} {f : UserFunction}
      {m : Machine} :
      m.valueOf? callee = some (.function identity (.user f)) → es.length = f.parameters.length →
      Starts room (.expr (.call callee es line)) m
        (.userArguments f.name line f.parameters es) m
  | firstValue {e : Expr} {es : List Expr} {m : Machine} :
      Starts room (.values (e :: es)) m (.expr e) m
  | otherValues {e : Expr} {es : List Expr} {v : Value} {m m' : Machine} :
      Run.expr (Run.invoke room) e m = .ok (some v) m' →
      Starts room (.values (e :: es)) m (.values es) m'
  | firstNative {e : Expr} {es : List Expr} {m : Machine} :
      Starts room (.nativeArguments (e :: es)) m (.expr e) m
  | otherNatives {e : Expr} {es : List Expr} {v : Value} {m m' : Machine} :
      Run.expr (Run.invoke room) e m = .ok (some v) m' →
      Starts room (.nativeArguments (e :: es)) m (.nativeArguments es) m'
  | firstArgument {function : String} {line : Nat} {p : Parameter} {ps : List Parameter} {e : Expr}
      {es : List Expr} {m : Machine} :
      Starts room (.userArguments function line (p :: ps) (e :: es)) m (.expr e) m
  | otherArguments {function : String} {line : Nat} {p : Parameter} {ps : List Parameter}
      {e : Expr} {es : List Expr} {v : Value} {m m' : Machine} :
      Run.expr (Run.invoke room) e m = .ok (some v) m' → p.takes v = true →
      Starts room (.userArguments function line (p :: ps) (e :: es)) m
        (.userArguments function line ps es) m'
  | initializer {kind : Kind} {name : String} {e : Expr} {line : Nat} {m : Machine} :
      Starts room (.statement (.declare kind name e line)) m (.expr e) m
  | chain {chain : List Arm} {line : Nat} {m : Machine} :
      Starts room (.statement (.conditional chain line)) m (.arms chain) m
  | firstBound {counter : String} {first last : Expr} {body : List Statement} {line : Nat}
      {m : Machine} :
      Starts room (.statement (.loop counter first last body line)) m (.expr first) m
  | lastBound {counter : String} {first last : Expr} {body : List Statement} {line : Nat}
      {start : Int} {m m' : Machine} :
      Run.bound (Run.invoke room) .first line first m = .ok start m' →
      Starts room (.statement (.loop counter first last body line)) m (.expr last) m'
  | iterations {counter : String} {first last : Expr} {body : List Statement} {line : Nat}
      {start stop : Int} {m m₁ m₂ : Machine} :
      Run.bound (Run.invoke room) .first line first m = .ok start m₁ →
      Run.bound (Run.invoke room) .last line last m₁ = .ok stop m₂ →
      Starts room (.statement (.loop counter first last body line)) m
        (.iterations counter line body (if start ≤ stop then 1 else -1)
          ((stop - start).natAbs + 1) start) m₂
  | returned {e : Expr} {line : Nat} {m : Machine} :
      Starts room (.statement (.returns e line)) m (.expr e) m
  | expression {e : Expr} {line : Nat} {m : Machine} :
      Starts room (.statement (.expression e line)) m (.expr e) m
  | guard {e : Expr} {body : List Statement} {line : Nat} {rest : List Arm} {m : Machine} :
      Starts room (.arms (.mk (some e) body line :: rest)) m (.expr e) m
  | taken {condition : Option Expr} {body : List Statement} {line : Nat} {rest : List Arm}
      {m m' : Machine} :
      Run.guard (Run.invoke room) line condition m = .ok true m' →
      Starts room (.arms (.mk condition body line :: rest)) m (.block body none) m'
  | otherArms {condition : Option Expr} {body : List Statement} {line : Nat} {rest : List Arm}
      {m m' : Machine} :
      Run.guard (Run.invoke room) line condition m = .ok false m' →
      Starts room (.arms (.mk condition body line :: rest)) m (.arms rest) m'
  | iteration {counter : String} {line : Nat} {body : List Statement} {step : Int} {count : Nat}
      {start : Int} {n : Float} {m : Machine} :
      Number.ofInteger? start = some n →
      Starts room (.iterations counter line body step (count + 1) start) m (.block body none)
        (m.enterIteration ⟨.num, counter, .number n⟩)
  | otherIterations {counter : String} {line : Nat} {body : List Statement} {step : Int}
      {count : Nat} {start : Int} {m m' : Machine} :
      Run.iteration counter line (Run.block (Run.invoke room) body none) start m = .ok () m' →
      Starts room (.iterations counter line body step (count + 1) start) m
        (.iterations counter line body step count (start + step)) m'
  | firstStatement {s : Statement} {rest : List Statement} {last : Option Value} {m : Machine} :
      Starts room (.block (s :: rest) last) m (.statement s) m
  | otherStatements {s : Statement} {rest : List Statement} {last v : Option Value}
      {m m' : Machine} :
      Run.statement (Run.invoke room) s m = .ok (.ran v) m' →
      Starts room (.block (s :: rest) last) m (.block rest (v.or last)) m'

/-- A call is accepted: its callee is a user function that takes as many arguments, and these were
run to values that its parameters take. -/
structure Accepts (room : Nat) (callee : String) (arguments : List Expr) (line : Nat) (m : Machine)
    (f : UserFunction) (records : List Record) (m' : Machine) : Prop where
  resolves : ∃ identity, m.valueOf? callee = some (.function identity (.user f))
  count : arguments.length = f.parameters.length
  taken : Run.userArguments (Run.invoke room) f.name line f.parameters arguments m =
    .ok records m'

/-- `Reaches room t m room' t' m'` says that `t`, while it is run in `m`, has `t'` run in `m'`, at
whatever depth.  `room` and `room'` are the numbers of calls that may still nest: each call in which
`t'` is run takes one. -/
inductive Reaches : (room : Nat) → Task → Machine → (room' : Nat) → Task → Machine → Prop
  | here {room : Nat} {t : Task} {m : Machine} : Reaches room t m room t m
  | inside {room room' : Nat} {t t₁ t' : Task} {m m₁ m' : Machine} :
      Starts room t m t₁ m₁ → Reaches room t₁ m₁ room' t' m' → Reaches room t m room' t' m'
  | called {room room' : Nat} {callee : String} {arguments : List Expr} {line : Nat}
      {f : UserFunction} {records : List Record} {t' : Task} {m m₁ m' : Machine} :
      Accepts (room + 1) callee arguments line m f records m₁ →
      Reaches room (.block f.body none) (m₁.enterCall records) room' t' m' →
      Reaches (room + 1) (.expr (.call callee arguments line)) m room' t' m'

/-- An accepted call hands its arguments over. -/
theorem Accepts.expr_call
    {room : Nat} {callee : String} {arguments : List Expr} {line : Nat} {m m' : Machine}
    {f : UserFunction} {records : List Record}
    (h : Accepts room callee arguments line m f records m') :
    Run.expr (Run.invoke room) (.call callee arguments line) m =
      Run.invoke room f records line m' := by
  obtain ⟨identity, hcallee⟩ := h.resolves
  rw [Run.expr_call]
  change Run.callValue (Run.invoke room) callee arguments line (m.valueOf? callee) m = _
  rw [hcallee, Run.callValue, Run.callUser, if_pos h.count]
  exact Run.bind_of_ok h.taken _

/-- The failure of a direct part is the failure of the whole. -/
theorem Starts.fails
    {room : Nat} {t t' : Task} {m m' : Machine} (h : Starts room t m t' m') {e : RunError}
    (hfails : t'.Fails room m' e) :
    t.Fails room m e := by
  cases h with
  | operand =>
      rw [Task.Fails, Run.expr]
      exact (hfails.require _).bind _
  | left =>
      rw [Task.Fails, Run.expr]
      exact (hfails.require _).bind _
  | right hleft =>
      rw [Task.Fails, Run.expr]
      exact .afterOk (Run.require_of_ok hleft _) ((hfails.require _).bind _)
  | elements =>
      rw [Task.Fails, Run.expr]
      exact hfails.bind _
  | natives hcallee hcount =>
      rw [Task.Fails, Run.fails_expr_call, hcallee, Run.callValue, Run.callNative, if_pos hcount]
      exact hfails.bind _
  | arguments hcallee hcount =>
      rw [Task.Fails, Run.fails_expr_call, hcallee, Run.callValue, Run.callUser, if_pos hcount]
      exact hfails.bind _
  | firstValue =>
      rw [Task.Fails, Run.values]
      exact (hfails.require _).bind _
  | otherValues hfirst =>
      rw [Task.Fails, Run.values]
      exact .afterOk (Run.require_of_ok hfirst _) (hfails.bind _)
  | firstNative =>
      rw [Task.Fails, Run.nativeArguments]
      exact (hfails.require _).bind _
  | otherNatives hfirst =>
      rw [Task.Fails, Run.nativeArguments]
      exact .afterOk (Run.require_of_ok hfirst _) (hfails.bind _)
  | firstArgument =>
      rw [Task.Fails, Run.userArguments]
      exact (hfails.require _).bind _
  | otherArguments hfirst htakes =>
      rw [Task.Fails, Run.userArguments]
      refine .afterOk (Run.require_of_ok hfirst _) ?_
      rw [if_pos htakes]
      exact hfails.bind _
  | initializer =>
      rw [Task.Fails, Run.statement]
      exact (hfails.require _).bind _
  | chain =>
      rw [Task.Fails, Run.statement]
      exact hfails
  | firstBound =>
      rw [Task.Fails, Run.statement]
      exact ((hfails.require _).bind _).bind _
  | lastBound hfirst =>
      rw [Task.Fails, Run.statement]
      exact .afterOk hfirst (((hfails.require _).bind _).bind _)
  | iterations hfirst hlast =>
      rw [Task.Fails, Run.statement]
      exact .afterOk hfirst (.afterOk hlast (hfails.bind _))
  | returned =>
      rw [Task.Fails, Run.statement]
      exact hfails.bind _
  | expression =>
      rw [Task.Fails, Run.statement]
      exact hfails.bind _
  | guard =>
      rw [Task.Fails, Run.arms]
      exact ((hfails.require _).bind _).bind _
  | taken hguard =>
      rw [Task.Fails, Run.arms]
      exact .afterOk hguard (hfails.bind _)
  | otherArms hguard =>
      rw [Task.Fails, Run.arms]
      exact .afterOk hguard hfails
  | iteration hn =>
      rw [Task.Fails, Run.forEach, Run.iteration, hn]
      exact ((Run.fails_between.mpr hfails).bind _).bind _
  | otherIterations hfirst =>
      rw [Task.Fails, Run.forEach]
      exact .afterOk hfirst hfails
  | firstStatement =>
      rw [Task.Fails, Run.block]
      exact hfails.bind _
  | otherStatements hfirst =>
      rw [Task.Fails, Run.block]
      exact .afterOk hfirst hfails

/-- A failure is not held up: if something fails that is reached at whatever depth, then what
reached it fails with the same error. -/
theorem Reaches.fails
    {room room' : Nat} {t t' : Task} {m m' : Machine} (h : Reaches room t m room' t' m')
    {e : RunError} (hfails : t'.Fails room' m' e) :
    t.Fails room m e := by
  induction h with
  | here => exact hfails
  | inside hstarts _ ih => exact hstarts.fails (ih hfails)
  | called haccepts _ ih =>
      obtain ⟨n, hn⟩ := (Run.fails_between.mpr (ih hfails)).bind fun ending => pure ending.value
      refine ⟨n, haccepts.expr_call.trans ?_⟩
      rw [Run.invoke_succ]
      exact hn

/-! ## The depth of what is reached -/

open Run in
/-- What is run as a direct part is run after changes of the list, or in an iteration that was just
started. -/
theorem Starts.changes
    {room : Nat} {t t' : Task} {m m' : Machine} (h : Starts room t m t' m') (hm : m.room = room) :
    m.Changes m' ∨ ∃ counter n, m' = m.enterIteration ⟨.num, counter, .number n⟩ := by
  have hbound (which : LoopBound) (line : Nat) (e : Expr) :
      (bound (invoke room) which line e).Permitted room :=
    (compatible_permitted room).bound (j := invoke room) (permitted_expr room e) which line
  have hguard (line : Nat) (condition : Option Expr) :
      (Run.guard (invoke room) line condition).Permitted room :=
    (compatible_permitted room).guard (j := invoke room) (permitted_expr room) line condition
  cases h with
  | right hok | otherValues hok | otherNatives hok | otherArguments hok _ =>
      exact .inl ((permitted_expr room _).changes_of_ok hm hok)
  | lastBound hfirst => exact .inl ((hbound _ _ _).changes_of_ok hm hfirst)
  | iterations hfirst hlast =>
      have hm₁ := (hbound _ _ _).room_of_ok hm hfirst
      have hchanges := (hbound _ _ _).changes_of_ok hm hfirst
      exact .inl (hchanges.next ((hbound _ _ _).changes_of_ok hm₁ hlast))
  | taken hok | otherArms hok => exact .inl ((hguard _ _).changes_of_ok hm hok)
  | iteration _ => exact .inr ⟨_, _, rfl⟩
  | @otherIterations counter line body _ _ start _ _ hok =>
      have hbody := (permitted_statements room).2.1 body none
      have hiteration := (compatible_permitted room).iteration (y := block (invoke room) body none)
        hbody counter line start
      exact .inl (Permitted.changes_of_ok hiteration hm hok)
  | otherStatements hok => exact .inl (((permitted_statements room).1 _).changes_of_ok hm hok)
  | _ => exact .inl (.none m)

theorem Starts.depth_eq
    {room : Nat} {t t' : Task} {m m' : Machine} (h : Starts room t m t' m') (hm : m.room = room) :
    m'.depth = m.depth := by
  obtain hchanges | ⟨counter, n, rfl⟩ := h.changes hm
  · exact hchanges.depth_eq
  · rfl

/-- Every call in which something is run takes one of the calls that may nest. -/
theorem Reaches.depth_add_room
    {room room' : Nat} {t t' : Task} {m m' : Machine} (h : Reaches room t m room' t' m')
    (hm : m.depth + room = callLimit) :
    m'.depth + room' = callLimit := by
  induction h with
  | here => exact hm
  | inside hstarts _ ih =>
      have hroom := Nat.sub_eq_of_eq_add' hm.symm
      rw [hstarts.depth_eq hroom] at ih
      exact ih hm
  | @called room _ _ _ _ _ records _ m m₁ _ haccepts _ ih =>
      have hroom : m.room = room + 1 := Nat.sub_eq_of_eq_add' hm.symm
      have hdepth := (Run.permitted_userArguments (room + 1) _ _ _ _).depth_of_ok hroom
        haccepts.taken
      apply ih
      change m₁.depth + 1 + room = callLimit
      omega

end Machine
end ColonScript
