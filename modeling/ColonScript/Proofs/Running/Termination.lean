import ColonScript.Proofs.Running.Changes
import ColonScript.Proofs.Running.Metered

/-!
# Every program ends

No program needs unlimited fuel.  For every machine and every program there is an amount from
which on running on fuel has the outcome of the runs defined by recursion on the form of
programs: the same value or failure, the same scopes and the same output.  What decreases is
first the number of calls that may still nest, then the form of what is run, and in a loop the
distance to the last integer.  Since every run ends as many calls as it started, the first number
is the same after each part of a run.
-/

namespace ColonScript
namespace Metered

variable {α β : Type}

/-! ## Settling -/

/-- From some amount of fuel on, a metered run has the outcome of a run. -/
def Settles (x : Nat → Metered α) (act : Run α) (m : Machine) : Prop :=
  ∃ enough, ∀ fuel, enough ≤ fuel → x fuel m = some (act m)

/-- A metered run settles in every machine in which so many calls may still nest, on a run that
makes only permitted changes. -/
structure Settled (room : Nat) (x : Nat → Metered α) (act : Run α) : Prop where
  permitted : act.Permitted room
  settles : ∀ m : Machine, m.room = room → Settles x act m

variable {room : Nat}

theorem Settled.lift
    {act : Run α} (h : act.Permitted room) :
    Settled room (fun _ => (act : Metered α)) act :=
  ⟨h, fun _ _ => ⟨0, fun _ _ => rfl⟩⟩

theorem Settled.pure
    (a : α) :
    Settled room (fun _ => (Pure.pure a : Metered α)) (Pure.pure a) :=
  ⟨fun m _ => .none m, fun _ _ => ⟨0, fun _ _ => rfl⟩⟩

theorem Settled.fail
    (line : Nat) (cause : RunCause) :
    Settled room (fun _ => ((Run.fail line cause : Run α) : Metered α)) (Run.fail line cause) :=
  .lift fun m _ => .none m

/-- One step spends one unit of fuel. -/
theorem Settled.step
    {x y : Nat → Metered α} {act : Run α} (h : Settled room y act)
    (hstep : ∀ fuel, x (fuel + 1) = y fuel) :
    Settled room x act := by
  refine ⟨h.permitted, fun m hm => ?_⟩
  obtain ⟨enough, henough⟩ := h.settles m hm
  refine ⟨enough + 1, fun fuel hfuel => ?_⟩
  obtain ⟨fuel, rfl⟩ : ∃ k, fuel = k + 1 := ⟨fuel - 1, by omega⟩
  rw [hstep]
  exact henough fuel (by omega)

theorem bind_of_ok
    {x : Metered α} {m m' : Machine} {a : α} (h : x m = some (.ok a m')) (f : α → Metered β) :
    (x >>= f) m = f a m' := by
  simp only [Bind.bind, h]

theorem bind_of_error
    {x : Metered α} {m m' : Machine} {e : RunError} (h : x m = some (.error e m'))
    (f : α → Metered β) :
    (x >>= f) m = some (.error e m') := by
  simp only [Bind.bind, h]

/-- Two steps need what is enough for both. -/
theorem Settled.bind
    {x : Nat → Metered α} {act : Run α} {f : α → Nat → Metered β} {g : α → Run β}
    (hx : Settled room x act)
    (hf : ∀ a m m', act m = .ok a m' → Settled room (f a) (g a)) :
    Settled room (fun fuel => x fuel >>= fun a => f a fuel) (act >>= g) := by
  refine ⟨hx.permitted.bind fun a m m' h => (hf a m m' h).permitted, fun m hm => ?_⟩
  obtain ⟨enough, henough⟩ := hx.settles m hm
  cases hact : act m with
  | error e m' =>
      rw [hact] at henough
      refine ⟨enough, fun fuel hfuel => ?_⟩
      rw [Run.bind_of_error hact]
      exact bind_of_error (henough fuel hfuel) _
  | ok a m' =>
      rw [hact] at henough
      have hchanges := hx.permitted m hm
      rw [Run.after_of_ok hact] at hchanges
      have hroom : m'.room = room := hchanges.room_eq.trans hm
      obtain ⟨enough', henough'⟩ := (hf a m m' hact).settles m' hroom
      refine ⟨max enough enough', fun fuel hfuel => ?_⟩
      rw [Run.bind_of_ok hact, ← henough' fuel (by omega)]
      exact bind_of_ok (henough fuel (by omega)) _

theorem Settled.require
    {x : Nat → Metered (Option Value)} {act : Run (Option Value)} (h : Settled room x act)
    (line : Nat) :
    Settled room (fun fuel => Metered.require line (x fuel)) (Run.require line act) := by
  refine Settled.bind (f := fun v _ => _) h fun v _ _ _ => ?_
  cases v with
  | none => exact .fail line _
  | some v => exact .pure v

theorem Settled.lookup
    (name : String) {f : Option Value → Nat → Metered α} {g : Option Value → Run α}
    (h : ∀ v, Settled room (f v) (g v)) :
    Settled room (fun fuel => get >>= fun m => f (m.valueOf? name) fuel)
      (get >>= fun m => g (m.valueOf? name)) :=
  ⟨fun m hm => (h (m.valueOf? name)).permitted m hm,
    fun m hm => (h (m.valueOf? name)).settles m hm⟩

theorem Settled.ofExcept
    (r : Except RunError α) :
    Settled room (fun _ => (Run.lift r : Metered α)) (Run.lift r) :=
  .lift ((Run.compatible_permitted room).lift r)

theorem between_of_some
    {enter leave : Machine → Machine} {x : Metered α} {act : Run α} {m : Machine}
    (h : x (enter m) = some (act (enter m))) :
    between enter leave x m = some (Run.between enter leave act m) := by
  simp only [between, h]
  rfl

/-- An iteration needs what its body needs. -/
theorem Settled.iterate
    {x : Nat → Metered Ending} {act : Run Ending} (h : Settled room x act)
    (counter : String) (n : Float) :
    Settled room
      (fun fuel =>
        between (.enterIteration ⟨.num, counter, .number n⟩) .leaveIteration (x fuel))
      (Run.between (.enterIteration ⟨.num, counter, .number n⟩) .leaveIteration act) := by
  refine ⟨(Run.compatible_permitted room).iterate counter n (y := act) h.permitted,
    fun m hm => ?_⟩
  obtain ⟨enough, henough⟩ := h.settles (m.enterIteration ⟨.num, counter, .number n⟩) hm
  exact ⟨enough, fun fuel hfuel => between_of_some (henough fuel hfuel)⟩

/-! ## Expressions -/

theorem settled_callNative
    {arguments : List Expr}
    (harguments : Settled room (fun fuel => nativeArguments fuel arguments)
      (Run.nativeArguments (Run.invoke room) arguments))
    (f : NativeFunction) (line : Nat) :
    Settled room (fun fuel => callNative fuel f arguments line)
      (Run.callNative (Run.invoke room) f arguments line) := by
  unfold Run.callNative
  by_cases harity : f.arity.accepts arguments.length = true
  · rw [if_pos harity]
    refine .step (.bind harguments fun vs _ _ _ => .lift ?_) fun _ => by
      rw [callNative, if_pos harity]
    exact (Run.compatible_permitted room).routine f.routine line vs
  · rw [if_neg harity]
    exact .step (.fail line _) fun _ => by rw [callNative, if_neg harity]

/-- All calls settle that are made when so many may still nest. -/
def CallsSettle (room : Nat) : Prop :=
  ∀ f arguments line, (∀ r ∈ arguments, r.Fits) →
    Settled room (fun fuel => invoke fuel f arguments line) (Run.invoke room f arguments line)

theorem settled_callUser
    (hcalls : CallsSettle room) {f : UserFunction} {arguments : List Expr} {line : Nat}
    (harguments : Settled room (fun fuel => userArguments fuel f.name line f.parameters arguments)
      (Run.userArguments (Run.invoke room) f.name line f.parameters arguments)) :
    Settled room (fun fuel => callUser fuel f arguments line)
      (Run.callUser (Run.invoke room) f arguments line) := by
  unfold Run.callUser
  by_cases hlength : arguments.length = f.parameters.length
  · rw [if_pos hlength]
    refine .step (.bind harguments fun records _ _ hrecords => ?_) fun _ => by
      rw [callUser, if_pos hlength]
    exact hcalls f records line (Run.userArguments_fit hrecords)
  · rw [if_neg hlength]
    exact .step (.fail line _) fun _ => by rw [callUser, if_neg hlength]

theorem settled_callValue
    (hcalls : CallsSettle room) (callee : String) {arguments : List Expr} {line : Nat}
    (hnative : Settled room (fun fuel => nativeArguments fuel arguments)
      (Run.nativeArguments (Run.invoke room) arguments))
    (huser : ∀ f : UserFunction,
      Settled room (fun fuel => userArguments fuel f.name line f.parameters arguments)
        (Run.userArguments (Run.invoke room) f.name line f.parameters arguments))
    (found : Option Value) :
    Settled room (fun fuel => callValue fuel callee arguments line found)
      (Run.callValue (Run.invoke room) callee arguments line found) := by
  match found with
  | some (.function _ (.native f)) =>
      exact .step (settled_callNative hnative f line) fun _ => by rw [callValue]
  | some (.function _ (.user f)) =>
      exact .step (settled_callUser hcalls (huser f)) fun _ => by rw [callValue]
  | some (.number _) | some (.text _) | some (.boolean _) | some (.array _) =>
      exact .step (.fail line _) fun _ => by simp only [callValue]
  | none => exact .step (.fail line _) fun _ => by rw [callValue]

/-- Expressions settle as soon as calls do. -/
theorem settled_expressions
    (hcalls : CallsSettle room) :
    (∀ e, Settled room (fun fuel => expr fuel e) (Run.expr (Run.invoke room) e)) ∧
      (∀ es, Settled room (fun fuel => values fuel es) (Run.values (Run.invoke room) es)) ∧
      (∀ function line ps es, Settled room (fun fuel => userArguments fuel function line ps es)
        (Run.userArguments (Run.invoke room) function line ps es)) ∧
      ∀ es, Settled room (fun fuel => nativeArguments fuel es)
        (Run.nativeArguments (Run.invoke room) es) := by
  refine Run.expr.mutual_induct _ _ _ _ ?literal ?name ?negate ?binary ?call ?array ?noValues
    ?values ?argument ?noArguments ?noNatives ?native
  case literal =>
    intro constant line
    rw [Run.expr]
    exact .step (.pure _) fun _ => by rw [expr]
  case name =>
    intro name line
    rw [Run.expr_name]
    refine .step (.lookup name fun v => .lift ?_) fun _ => by rw [expr]
    cases v <;> exact fun m _ => .none m
  case negate =>
    intro operand line hoperand
    rw [Run.expr]
    refine .step (.bind (hoperand.require _) fun v _ _ _ => ?_) fun _ => by rw [expr]
    exact .bind (.ofExcept _) fun _ _ _ _ => .pure _
  case binary =>
    intro op left right line hleft hright
    rw [Run.expr]
    refine .step (.bind (hleft.require _) fun l _ _ _ => ?_) fun _ => by rw [expr]
    refine .bind (hright.require _) fun r _ _ _ => ?_
    exact .bind (.ofExcept _) fun _ _ _ _ => .pure _
  case call =>
    intro callee arguments line hnative huser
    rw [Run.expr_call]
    refine .step (.lookup callee (f := fun found fuel => callValue fuel callee arguments line found)
      fun found => ?_) fun _ => by rw [expr]
    exact settled_callValue hcalls callee hnative huser found
  case array =>
    intro elements line helements
    rw [Run.expr]
    exact .step (.bind helements fun _ _ _ _ => .pure _) fun _ => by rw [expr]
  case noValues =>
    rw [Run.values]
    exact .step (.pure _) fun _ => by rw [values]
  case values =>
    intro e es he hes
    rw [Run.values]
    refine .step (.bind (he.require _) fun v _ _ _ => ?_) fun _ => by rw [values]
    exact .bind hes fun _ _ _ _ => .pure _
  case argument =>
    intro function line p ps e es he hes
    rw [Run.userArguments]
    refine .step (.bind (he.require _) fun v _ _ _ => ?_) fun _ => by rw [userArguments]
    by_cases htakes : p.takes v = true
    · simp only [if_pos htakes]
      exact .bind hes fun _ _ _ _ => .pure _
    · simp only [if_neg htakes]
      exact .fail line _
  case noArguments =>
    intro es function line ps hends
    rw [Run.userArguments.eq_2 _ _ _ _ _ hends]
    exact .step (.pure _) fun _ => by rw [userArguments.eq_3 _ _ _ _ _ hends]
  case noNatives =>
    rw [Run.nativeArguments]
    exact .step (.pure _) fun _ => by rw [nativeArguments]
  case native =>
    intro e es he hes
    rw [Run.nativeArguments]
    refine .step (.bind (he.require _) fun v _ _ _ => ?_) fun _ => by rw [nativeArguments]
    exact .bind hes fun _ _ _ _ => .pure _

/-! ## Statements -/

section Statements

variable (hexpr : ∀ e, Settled room (fun fuel => expr fuel e) (Run.expr (Run.invoke room) e))
include hexpr

theorem settled_bound
    (which : LoopBound) (line : Nat) (e : Expr) :
    Settled room (fun fuel => bound fuel which line e)
      (Run.bound (Run.invoke room) which line e) := by
  refine .step (.bind ((hexpr e).require _) fun v _ _ _ => ?_) fun _ => by rw [bound]
  cases v.asInteger line with
  | ok i => exact .pure i
  | error _ => exact .fail line _

theorem settled_guard
    (line : Nat) (condition : Option Expr) :
    Settled room (fun fuel => guard fuel line condition)
      (Run.guard (Run.invoke room) line condition) := by
  cases condition with
  | none => exact .step (.pure true) fun _ => by rw [guard]
  | some e =>
      refine .step (.bind ((hexpr e).require _) fun v _ _ _ => ?_) fun _ => by rw [guard]
      exact .ofExcept _

end Statements

theorem settled_iteration
    {body : List Statement}
    (hbody : Settled room (fun fuel => block fuel body none)
      (Run.block (Run.invoke room) body none))
    (counter : String) (line : Nat) {stop i : Int} {x : Nat → Metered Unit} {rest : Run Unit}
    (hrest : Settled room x rest)
    (hx : ∀ fuel, (if i = stop then pure () else
      iterations fuel counter line body stop (if i < stop then i + 1 else i - 1)) = x fuel) :
    Settled room (fun fuel => iterations fuel counter line body stop i)
      (Run.iteration counter line (Run.block (Run.invoke room) body none) i >>=
        fun _ => rest) := by
  rw [Run.iteration]
  cases hn : Number.ofInteger? i with
  | none => exact .step (.fail line _) fun _ => by simp only [iterations, hn]
  | some n =>
      simp only [bind_assoc, pure_bind]
      refine .step (.bind (hbody.iterate counter n) fun _ _ _ _ => hrest) fun _ => ?_
      simp only [iterations, hn, hx]

/-- A loop that goes from one integer to the next ends after as many iterations as there are
integers up to the last one. -/
theorem settled_iterations
    {body : List Statement}
    (hbody : Settled room (fun fuel => block fuel body none)
      (Run.block (Run.invoke room) body none))
    (counter : String) (line : Nat) {step : Int} (hstep : step = 1 ∨ step = -1)
    (count : Nat) {stop i : Int} (hstop : stop = i + step * count) :
    Settled room (fun fuel => iterations fuel counter line body stop i)
      (Run.forEach step
        (Run.iteration counter line (Run.block (Run.invoke room) body none)) (count + 1) i) := by
  -- Induction on the number of iterations after this one, which is the distance to `stop`.
  induction count generalizing i with
  | zero =>
      have hlast : i = stop := by omega
      exact settled_iteration hbody counter line (.pure ()) fun _ => if_pos hlast
  | succ count ih =>
      have hmore : i ≠ stop := by
        rcases hstep with rfl | rfl <;> omega
      have hnext : (if i < stop then i + 1 else i - 1) = i + step := by
        rcases hstep with rfl | rfl <;> split <;> omega
      have hrest : stop = i + step + step * count := by
        rcases hstep with rfl | rfl <;> omega
      refine settled_iteration hbody counter line (ih hrest) fun _ => ?_
      rw [if_neg hmore, hnext]

/-- Statements settle as soon as calls do. -/
theorem settled_statements
    (hcalls : CallsSettle room) :
    (∀ s, Settled room (fun fuel => statement fuel s) (Run.statement (Run.invoke room) s)) ∧
      (∀ ss last, Settled room (fun fuel => block fuel ss last)
        (Run.block (Run.invoke room) ss last)) ∧
      ∀ chain, Settled room (fun fuel => arms fuel chain)
        (Run.arms (Run.invoke room) chain) := by
  have hexpr := (settled_expressions hcalls).1
  refine Run.statement.mutual_induct _ _ _ ?declare ?function ?conditional ?loop ?returns
    ?expression ?blockEnd ?blockStep ?noArms ?arm
  case declare =>
    intro kind name initializer line
    rw [Run.statement]
    refine .step (.bind ((hexpr initializer).require _) fun v _ _ _ => ?_) fun _ => by
      rw [statement]
    by_cases hkind : v.kind = kind
    · simp only [if_pos hkind]
      refine .bind (.lift ?_) fun _ _ _ _ => .pure _
      exact (Run.compatible_permitted room).declare _ hkind
    · simp only [if_neg hkind]
      exact .fail line _
  case function =>
    intro name parameters body line
    rw [Run.statement]
    refine .step (.bind (.lift ?_) fun _ _ _ _ => .pure _) fun _ => by rw [statement]; rfl
    exact (Run.compatible_permitted room).define _
  case conditional =>
    intro chain line hchain
    rw [Run.statement]
    exact .step hchain fun _ => by rw [statement]
  case loop =>
    intro counter first last body line hbody
    rw [Run.statement]
    refine .step (.bind (settled_bound hexpr _ line first) fun start _ _ _ => ?_) fun _ => by
      rw [statement]
    refine .bind (settled_bound hexpr _ line last) fun stop _ _ _ => ?_
    refine .bind ?_ fun _ _ _ _ => .pure _
    apply settled_iterations hbody counter line
    · split
      · exact .inl rfl
      · exact .inr rfl
    · split <;> omega
  case returns =>
    intro e line
    rw [Run.statement]
    exact .step (.bind (hexpr e) fun _ _ _ _ => .pure _) fun _ => by rw [statement]
  case expression =>
    intro e line
    rw [Run.statement]
    exact .step (.bind (hexpr e) fun _ _ _ _ => .pure _) fun _ => by rw [statement]
  case blockEnd =>
    intro last
    rw [Run.block]
    exact .step (.pure _) fun _ => by rw [block]
  case blockStep =>
    intro s rest last hs hrest
    rw [Run.block]
    refine .step (.bind hs fun ending _ _ _ => ?_) fun _ => by rw [block]
    cases ending with
    | ran v => exact hrest v
    | returned v => exact .pure _
  case noArms =>
    rw [Run.arms]
    exact .step (.pure _) fun _ => by rw [arms]
  case arm =>
    intro condition body line rest hbody hrest
    rw [Run.arms]
    refine .step (.bind (settled_guard hexpr line condition) fun taken _ _ _ => ?_) fun _ => by
      rw [arms]
    cases taken with
    | false => exact hrest
    | true =>
        refine .bind hbody fun ending _ _ _ => ?_
        cases ending with
        | ran v => exact .pure _
        | returned v => exact .pure _

/-! ## Calls -/

/-- A call needs what its body needs with one call less to nest. -/
theorem Settled.call
    {x : Nat → Metered α} {act : Run α} (h : Settled room x act) {arguments : List Record}
    (hfit : ∀ r ∈ arguments, r.Fits) :
    Settled (room + 1) (fun fuel => between (.enterCall arguments) .leaveCall (x fuel))
      (Run.between (.enterCall arguments) .leaveCall act) := by
  refine ⟨h.permitted.call hfit, fun m hm => ?_⟩
  obtain ⟨enough, henough⟩ := h.settles _ (Machine.room_enterCall hm arguments)
  exact ⟨enough, fun fuel hfuel => between_of_some (henough fuel hfuel)⟩

theorem invoke_of_full
    {m : Machine} (hm : callLimit ≤ m.depth) (fuel : Nat) (f : UserFunction)
    (arguments : List Record) (line : Nat) :
    invoke (fuel + 1) f arguments line m = some (Run.fail line .recursionLimit m) := by
  rw [invoke]
  change (if callLimit ≤ m.depth then _ else _ : Metered _) m = _
  rw [if_pos hm]
  rfl

theorem invoke_of_lt
    {m : Machine} (hm : m.depth < callLimit) (fuel : Nat) (f : UserFunction)
    (arguments : List Record) (line : Nat) :
    invoke (fuel + 1) f arguments line m =
      (between (.enterCall arguments) .leaveCall (block fuel f.body none) >>=
        fun ending => pure ending.value : Metered _) m := by
  rw [invoke]
  change (if callLimit ≤ m.depth then _ else _ : Metered _) m = _
  rw [if_neg (Nat.not_le_of_lt hm)]

/-- Calls settle: by induction on the number of calls that may still nest. -/
theorem callsSettle
    (room : Nat) :
    CallsSettle room := by
  induction room with
  | zero =>
      intro f arguments line hfit
      refine ⟨Run.permitted_invoke 0 f arguments line hfit, fun m hm => ⟨1, fun fuel hfuel => ?_⟩⟩
      obtain ⟨fuel, rfl⟩ : ∃ k, fuel = k + 1 := ⟨fuel - 1, by omega⟩
      rw [Machine.room] at hm
      exact invoke_of_full (by omega) fuel f arguments line
  | succ room ih =>
      intro f arguments line hfit
      have hblock := (settled_statements ih).2.1 f.body none
      have hcall := Settled.bind (hblock.call hfit) fun ending _ _ _ => .pure ending.value
      rw [Run.invoke_succ]
      refine ⟨hcall.permitted, fun m hm => ?_⟩
      obtain ⟨enough, henough⟩ := hcall.settles m hm
      refine ⟨enough + 1, fun fuel hfuel => ?_⟩
      obtain ⟨fuel, rfl⟩ : ∃ k, fuel = k + 1 := ⟨fuel - 1, by omega⟩
      have hdepth := Machine.depth_lt_of_room_eq_succ hm
      exact (invoke_of_lt hdepth fuel f arguments line).trans (henough fuel (by omega))

theorem run_of_settles
    {source : String} {m : Machine}
    (h : ∀ ss, Settles (fun fuel => block fuel ss none) (Machine.runBlock ss) m) :
    ∃ enough, ∀ fuel, enough ≤ fuel → run fuel source m = some (m.run source) := by
  unfold run Machine.run Machine.perform Machine.attempt
  cases readProgram source with
  | error e => exact ⟨0, fun _ _ => rfl⟩
  | ok ss =>
      obtain ⟨enough, henough⟩ := h ss
      refine ⟨enough, fun fuel hfuel => ?_⟩
      simp only [henough fuel hfuel]
      cases Machine.runBlock ss m <;> rfl

/-- Every program ends.  From some amount of fuel on, every expression, statement and block
has an outcome in every machine, and it is the one that the runs without fuel have.  So has every
source text. -/
theorem exists_enough_fuel
    (m : Machine) :
    (∀ e, ∃ enough, ∀ fuel, enough ≤ fuel → expr fuel e m = some (Machine.runExpr e m)) ∧
      (∀ s, ∃ enough, ∀ fuel, enough ≤ fuel →
        statement fuel s m = some (Machine.runStatement s m)) ∧
      (∀ ss, ∃ enough, ∀ fuel, enough ≤ fuel →
        block fuel ss none m = some (Machine.runBlock ss m)) ∧
      ∀ source, ∃ enough, ∀ fuel, enough ≤ fuel → run fuel source m = some (m.run source) := by
  have hcalls := callsSettle m.room
  obtain ⟨hstatement, hblock, _⟩ := settled_statements hcalls
  refine ⟨fun e => ?_, fun s => ?_, fun ss => ?_, fun source => ?_⟩
  · exact ((settled_expressions hcalls).1 e).settles m rfl
  · exact (hstatement s).settles m rfl
  · exact (hblock ss none).settles m rfl
  · exact run_of_settles fun ss => (hblock ss none).settles m rfl

end Metered
end ColonScript
