import ColonScript.Proofs.Running.Reaching
import Mathlib.Data.List.Forall2

/-!
# Rejected calls and declarations

A call looks its callee up, counts the arguments, runs them from left to right and checks that it
may nest, in this order, and a user function checks each argument as soon as it has its value.
Whatever is rejected on the way stops the call there: what was run before has had its effects and
nothing else has.  The same holds of a declaration whose initializer has a value of another kind.
-/

namespace ColonScript

/-- Why a call with so many arguments is rejected before any of them is run, given what the name of
its callee means: nothing, no function, or a function that does not take as many. -/
inductive Rejection (callee : String) (count : Nat) : Option Value → RunCause → Prop
  | unknown : Rejection callee count none (.unknownVariable callee)
  | notFunction {v : Value} : v.kind ≠ .fn → Rejection callee count (some v) (.notCallable callee)
  | native {identity : Nat} {f : NativeFunction} : f.arity.accepts count = false →
      Rejection callee count (some (.function identity (.native f))) (.argumentCount f.name count)
  | user {identity : Nat} {f : UserFunction} : count ≠ f.parameters.length →
      Rejection callee count (some (.function identity (.user f))) (.argumentCount f.name count)

/-- The record that an argument is bound as. -/
def Parameter.record (p : Parameter) (v : Value) : Record :=
  ⟨p.kind, p.name, v⟩

namespace Machine

/-- Expressions are run to values from left to right, each in what the one before left. -/
inductive RunsTo : List Expr → Machine → List Value → Machine → Prop
  | none (m : Machine) : RunsTo [] m [] m
  | next {e : Expr} {es : List Expr} {v : Value} {vs : List Value} {m m₁ m₂ : Machine} :
      runExpr e m = .ok (some v) m₁ → RunsTo es m₁ vs m₂ → RunsTo (e :: es) m (v :: vs) m₂

section
variable {m m' : Machine}

theorem room_of_runExpr
    {e : Expr} {v : Option Value} (h : runExpr e m = .ok v m') :
    m'.room = m.room :=
  (Run.permitted_expr m.room e).room_of_ok rfl h

theorem RunsTo.room_eq
    {es : List Expr} {vs : List Value} (h : RunsTo es m vs m') :
    m'.room = m.room := by
  induction h with
  | none => rfl
  | next hfirst _ ih => rw [ih, room_of_runExpr hfirst]

theorem RunsTo.length_eq
    {es : List Expr} {vs : List Value} (h : RunsTo es m vs m') :
    es.length = vs.length := by
  induction h with
  | none => rfl
  | next _ _ ih => rw [List.length_cons, List.length_cons, ih]

end

end Machine

namespace Run

open Machine

theorem require_of_runExpr
    {e : Expr} {v : Value} {m m' : Machine} (h : runExpr e m = .ok (some v) m') :
    require e.line (expr (invoke m.room) e) m = .ok v m' :=
  require_of_ok h _

section
variable {m m₁ : Machine} {es : List Expr} {vs : List Value}

/-- A native is given the values of its arguments and the names of those that are bare names. -/
theorem nativeArguments_of_runsTo
    (h : RunsTo es m vs m₁) :
    nativeArguments (invoke m.room) es m =
      .ok (List.zipWith (fun e v => ⟨v, e.bareName?⟩) es vs) m₁ := by
  induction h with
  | none =>
      rw [nativeArguments]
      rfl
  | next hfirst _ ih =>
      rw [room_of_runExpr hfirst] at ih
      rw [nativeArguments, bind_of_ok (require_of_runExpr hfirst), bind_of_ok ih]
      rfl

/-- After the arguments that its first parameters take, a user function goes on with the others. -/
theorem userArguments_append
    (h : RunsTo es m vs m₁) {ps : List Parameter}
    (htaken : List.Forall₂ (fun p v => p.takes v = true) ps vs) (function : String) (line : Nat)
    (qs : List Parameter) (others : List Expr) :
    userArguments (invoke m.room) function line (ps ++ qs) (es ++ others) m =
      (userArguments (invoke m.room) function line qs others >>= fun records =>
        pure (List.zipWith Parameter.record ps vs ++ records)) m₁ := by
  induction h generalizing ps with
  | none m =>
      cases htaken
      simp
  | @next e es v vs m m₁ m₂ hfirst _ ih =>
      cases htaken with
      | cons htakes htaken =>
          have hothers := ih htaken
          rw [room_of_runExpr hfirst] at hothers
          rw [List.cons_append, List.cons_append, userArguments,
            bind_of_ok (require_of_runExpr hfirst), if_pos htakes]
          cases hrest : userArguments (invoke m.room) function line qs others m₂ with
          | ok records n =>
              rw [bind_of_ok hrest] at hothers ⊢
              rw [bind_of_ok hothers]
              rfl
          | error e n =>
              rw [bind_of_error hrest] at hothers ⊢
              rw [bind_of_error hothers]

/-- Arguments that all parameters take are bound under their names. -/
theorem userArguments_of_runsTo
    (h : RunsTo es m vs m₁) {ps : List Parameter}
    (htaken : List.Forall₂ (fun p v => p.takes v = true) ps vs) (function : String) (line : Nat) :
    userArguments (invoke m.room) function line ps es m =
      .ok (List.zipWith Parameter.record ps vs) m₁ := by
  have hnone : userArguments (invoke m.room) function line [] [] m₁ = .ok [] m₁ := by
    rw [userArguments.eq_2 _ _ _ _ _ (by simp)]
    rfl
  have happend := userArguments_append h htaken function line [] []
  rw [bind_of_ok hnone, List.append_nil, List.append_nil, List.append_nil] at happend
  exact happend

/-- The first argument that its parameter does not take is the last that is run. -/
theorem userArguments_of_rejected
    (h : RunsTo es m vs m₁) {ps : List Parameter}
    (htaken : List.Forall₂ (fun p v => p.takes v = true) ps vs) {e : Expr} {v : Value}
    {m₂ : Machine} (he : runExpr e m₁ = .ok (some v) m₂) {p : Parameter} (hp : p.takes v = false)
    (function : String) (line : Nat) (qs : List Parameter) (later : List Expr) :
    userArguments (invoke m.room) function line (ps ++ p :: qs) (es ++ e :: later) m =
      .error ⟨.argumentKind p.name function p.kind v.kind, line⟩ m₂ := by
  have hlast : userArguments (invoke m.room) function line (p :: qs) (e :: later) m₁ =
      .error ⟨.argumentKind p.name function p.kind v.kind, line⟩ m₂ := by
    rw [← h.room_eq, userArguments, bind_of_ok (require_of_runExpr he), hp]
    rfl
  rw [userArguments_append h htaken, bind_of_error hlast]

end

end Run

namespace Machine

section
variable {m : Machine} {callee : String}

/-- A call goes on with what its callee means before any argument is run. -/
theorem runExpr_call
    (arguments : List Expr) (line : Nat) :
    runExpr (.call callee arguments line) m =
      Run.callValue (Run.invoke m.room) callee arguments line (m.valueOf? callee) m := by
  rw [runExpr, Run.expr_call]
  rfl

theorem runExpr_of_rejection
    {arguments : List Expr} {cause : RunCause}
    (h : Rejection callee arguments.length (m.valueOf? callee) cause) (line : Nat) :
    runExpr (.call callee arguments line) m = .error ⟨cause, line⟩ m := by
  rw [runExpr_call]
  generalize m.valueOf? callee = found at h
  cases h with
  | unknown => rfl
  | @notFunction v hkind =>
      cases v with
      | function identity f => exact absurd rfl hkind
      | _ => rfl
  | native hcount =>
      rw [Run.callValue, Run.callNative, hcount]
      rfl
  | user hcount =>
      rw [Run.callValue, Run.callUser, if_neg hcount]
      rfl

/-- Nothing is run as part of a call that is rejected so early. -/
theorem not_starts_of_rejection
    {arguments : List Expr} {cause : RunCause}
    (h : Rejection callee arguments.length (m.valueOf? callee) cause) (line : Nat) (t : Task)
    (n : Machine) :
    ¬Starts m.room (.expr (.call callee arguments line)) m t n := by
  intro hstarts
  cases hstarts with
  | natives hcallee haccepts =>
      rw [hcallee] at h
      cases h with
      | notFunction hkind => exact hkind rfl
      | native hcount => exact absurd haccepts (Bool.eq_false_iff.mp hcount)
  | arguments hcallee haccepts =>
      rw [hcallee] at h
      cases h with
      | notFunction hkind => exact hkind rfl
      | user hcount => exact hcount haccepts

/-- Runs the body of a user function in a frame of its own with the arguments. -/
def runBody (f : UserFunction) (vs : List Value) : Run (Option Value) :=
  Run.between (.enterCall (List.zipWith Parameter.record f.parameters vs)) .leaveCall
    (Ending.value <$> runBlock f.body)

/-- A call with arguments that were taken runs the body, or is refused at the limit. -/
theorem invoke_eq_runBody
    (f : UserFunction) (vs : List Value) (line : Nat) (m : Machine) :
    Run.invoke m.room f (List.zipWith Parameter.record f.parameters vs) line m =
      if m.depth < callLimit then runBody f vs m else .error ⟨.recursionLimit, line⟩ m := by
  cases hroom : m.room with
  | zero =>
      have hdepth : ¬m.depth < callLimit := Nat.not_lt.mpr (Nat.le_of_sub_eq_zero hroom)
      rw [if_neg hdepth]
      rfl
  | succ room =>
      rw [if_pos (depth_lt_of_room_eq_succ hroom), Run.invoke, Run.relay_eq, runBody]
      simp only [Run.between, Functor.map, EStateM.map, runBlock, room_enterCall hroom]

section
variable {identity : Nat} {f : UserFunction}
  (hf : m.valueOf? callee = some (.function identity (.user f)))
include hf

/-- The first argument that is not taken ends a call where it has left the machine. -/
theorem runExpr_of_argument_rejected
    {before later : List Expr} {e : Expr} {vs : List Value} {v : Value} {m₁ m₂ : Machine}
    {ps qs : List Parameter} {p : Parameter} (hbefore : RunsTo before m vs m₁)
    (he : runExpr e m₁ = .ok (some v) m₂) (hparameters : f.parameters = ps ++ p :: qs)
    (htaken : List.Forall₂ (fun p v => p.takes v = true) ps vs)
    (hlater : later.length = qs.length) (hp : p.takes v = false) (line : Nat) :
    runExpr (.call callee (before ++ e :: later) line) m =
      .error ⟨.argumentKind p.name f.name p.kind v.kind, line⟩ m₂ := by
  have hcount : (before ++ e :: later).length = f.parameters.length := by
    rw [hparameters, List.length_append, List.length_append, List.length_cons, List.length_cons,
      hbefore.length_eq, htaken.length_eq, hlater]
  rw [runExpr_call, hf, Run.callValue, Run.callUser, if_pos hcount, hparameters]
  refine Run.bind_of_error ?_ _
  exact Run.userArguments_of_rejected hbefore htaken he hp f.name line qs later

/-- Arguments that are taken are handed to the function that was found before they were run. -/
theorem runExpr_of_arguments_taken
    {arguments : List Expr} {vs : List Value} {m' : Machine} (harguments : RunsTo arguments m vs m')
    (htaken : List.Forall₂ (fun p v => p.takes v = true) f.parameters vs) (line : Nat) :
    runExpr (.call callee arguments line) m =
      if m'.depth < callLimit then runBody f vs m' else .error ⟨.recursionLimit, line⟩ m' := by
  have hcount : arguments.length = f.parameters.length := by
    rw [harguments.length_eq, htaken.length_eq]
  have haccepts : Accepts m.room callee arguments line m f
      (List.zipWith Parameter.record f.parameters vs) m' :=
    ⟨⟨identity, hf⟩, hcount, Run.userArguments_of_runsTo harguments htaken f.name line⟩
  rw [runExpr, haccepts.expr_call, ← harguments.room_eq, invoke_eq_runBody]

end

/-- A native is handed its arguments when all of them have been run. -/
theorem runExpr_of_native
    {identity : Nat} {f : NativeFunction}
    (hf : m.valueOf? callee = some (.function identity (.native f))) {arguments : List Expr}
    {vs : List Value} {m' : Machine} (harguments : RunsTo arguments m vs m')
    (hcount : f.arity.accepts arguments.length = true) (line : Nat) :
    runExpr (.call callee arguments line) m =
      f.routine.run line (List.zipWith (fun e v => ⟨v, e.bareName?⟩) arguments vs) m' := by
  rw [runExpr_call, hf, Run.callValue, Run.callNative, if_pos hcount]
  exact Run.bind_of_ok (Run.nativeArguments_of_runsTo harguments) _

/-- Behind an argument that is not taken no other is run. -/
theorem not_starts_later
    {e : Expr} {v : Value} {m₁ m₂ : Machine} (hroom : m₁.room = m.room)
    (he : runExpr e m₁ = .ok (some v) m₂) {p : Parameter} (hp : p.takes v = false)
    (function : String) (line : Nat) (qs : List Parameter) (later : List Expr) (n : Machine) :
    ¬Starts m.room (.userArguments function line (p :: qs) (e :: later)) m₁
      (.userArguments function line qs later) n := by
  intro hstarts
  rw [runExpr, hroom] at he
  cases hstarts with
  | otherArguments hfirst htakes =>
      rw [he] at hfirst
      cases hfirst
      rw [hp] at htakes
      cases htakes

/-- A declaration of another kind than that of its value ends where the initializer has left the
machine. -/
theorem runStatement_declare_of_kind_ne
    {initializer : Expr} {v : Value} {m' : Machine} (h : runExpr initializer m = .ok (some v) m')
    {kind : Kind} (hkind : v.kind ≠ kind) (name : String) (line : Nat) :
    runStatement (.declare kind name initializer line) m =
      .error ⟨.declaredKind kind v.kind, line⟩ m' := by
  rw [runStatement, Run.statement, Run.value, Run.bind_of_ok (Run.require_of_runExpr h),
    if_neg hkind]
  rfl

end

/-- Rejected calls and declarations leave no trace of their own.  A call whose name means nothing or
no function, or a function that does not take as many arguments, runs none of them and leaves the
machine, and with it the output, as it was.  If a parameter of a user function does not take its
argument, the machine is the one that this argument has left after those before it, and no later one
is run.  Arguments that are all taken are handed to the function that the name meant before the
first of them was run, whatever it means now; if no more calls may nest, the machine is the one that
they have left.  The arguments of a native are handed over in the same way.  A declaration whose
value is of another kind leaves the machine that the initializer has left, so whatever the name
means there, it goes on to mean. -/
theorem rejections_leave_no_trace
    (m : Machine) :
    (∀ callee arguments line cause,
      Rejection callee arguments.length (m.valueOf? callee) cause →
      runExpr (.call callee arguments line) m = .error ⟨cause, line⟩ m ∧
        ∀ t n, ¬Starts m.room (.expr (.call callee arguments line)) m t n) ∧
    (∀ callee identity f, m.valueOf? callee = some (.function identity (.user f)) →
      (∀ before e later vs v m₁ m₂ ps p qs line,
        RunsTo before m vs m₁ → runExpr e m₁ = .ok (some v) m₂ →
        f.parameters = ps ++ p :: qs → List.Forall₂ (fun p v => p.takes v = true) ps vs →
        later.length = qs.length → p.takes v = false →
        runExpr (.call callee (before ++ e :: later) line) m =
            .error ⟨.argumentKind p.name f.name p.kind v.kind, line⟩ m₂ ∧
          ∀ n, ¬Starts m.room (.userArguments f.name line (p :: qs) (e :: later)) m₁
            (.userArguments f.name line qs later) n) ∧
      ∀ arguments vs m' line, RunsTo arguments m vs m' →
        List.Forall₂ (fun p v => p.takes v = true) f.parameters vs →
        runExpr (.call callee arguments line) m =
          if m'.depth < callLimit then runBody f vs m'
          else .error ⟨.recursionLimit, line⟩ m') ∧
    (∀ callee identity f, m.valueOf? callee = some (.function identity (.native f)) →
      ∀ arguments vs m' line, RunsTo arguments m vs m' →
        f.arity.accepts arguments.length = true →
        runExpr (.call callee arguments line) m =
          f.routine.run line (List.zipWith (fun e v => ⟨v, e.bareName?⟩) arguments vs) m') ∧
    ∀ kind name initializer line v m', runExpr initializer m = .ok (some v) m' → v.kind ≠ kind →
      runStatement (.declare kind name initializer line) m =
        .error ⟨.declaredKind kind v.kind, line⟩ m' := by
  refine ⟨?_, fun callee identity f hf => ⟨?_, ?_⟩, ?_, ?_⟩
  · intro callee arguments line cause h
    exact ⟨runExpr_of_rejection h line, not_starts_of_rejection h line⟩
  · intro before e later vs v m₁ m₂ ps p qs line hbefore he hparameters htaken hlater hp
    refine ⟨runExpr_of_argument_rejected hf hbefore he hparameters htaken hlater hp line, ?_⟩
    exact not_starts_later hbefore.room_eq he hp f.name line qs later
  · intro arguments vs m' line harguments htaken
    exact runExpr_of_arguments_taken hf harguments htaken line
  · intro callee identity f hf arguments vs m' line harguments hcount
    exact runExpr_of_native hf harguments hcount line
  · intro kind name initializer line v m' h hkind
    exact runStatement_declare_of_kind_ne h hkind name line

/-- A function `f` of two truth values, and `g` that defines another `f` and gives `true`.  Without
arguments `f` is rejected and so is a text as its first argument, where `g` as the second is not
run.  With `g()` as an argument the body of this `f` is run, though its name means another function
by then.  When no more calls may nest, `f` is refused, and a number that is declared with `g()`
fails after `g` has run. -/
theorem callee_is_kept_while_arguments_run :
    let f : UserFunction := ⟨"f", [⟨.bool, "a"⟩, ⟨.bool, "b"⟩], [.returns (.name "b" 1) 1], 1⟩
    let other : UserFunction := ⟨"f", [], [], 2⟩
    let again : UserFunction :=
      ⟨"g", [], [.function "f" [] [] 2, .returns (.literal (.boolean true) 2) 2], 2⟩
    let records : Records := .insert (.insert (.insert .empty
      ⟨.fn, "shon", .function 0 (.native ⟨"shon", .atLeast 1, .shon⟩)⟩)
      ⟨.fn, "f", .function 1 (.user f)⟩) ⟨.fn, "g", .function 2 (.user again)⟩
    let m : Machine := ⟨⟨#[⟨.global, none, Scopes.top, records⟩], Scopes.top⟩, ⟨true, #[]⟩, 0, 3⟩
    let g : Expr := .call "g" [] 3
    let m' := (runExpr g).after m
    let full : Machine := { m with depth := callLimit }
    let yes : Expr := .literal (.boolean true) 3
    runExpr (.call "f" [] 3) m = .error ⟨.argumentCount "f" 0, 3⟩ m ∧
      runExpr (.call "f" [.literal (.text "x") 3, g] 3) m =
        .error ⟨.argumentKind "a" "f" .bool .str, 3⟩ m ∧
      runExpr (.call "f" [g, yes] 3) m = runBody f [.boolean true, .boolean true] m' ∧
      m'.valueOf? "f" = some (.function 3 (.user other)) ∧
      runExpr (.call "f" [yes, yes] 3) full = .error ⟨.recursionLimit, 3⟩ full ∧
      runExpr (.call "shon" [g] 3) m = Native.shon 3 [⟨.boolean true, none⟩] m' ∧
      runStatement (.declare .num "f" g 3) m = .error ⟨.declaredKind .num .bool, 3⟩ m' := by
  intro f other again records m g m' full yes
  have hf : m.valueOf? "f" = some (.function 1 (.user f)) := by
    with_unfolding_all rfl
  have hg : runExpr g m = .ok (some (.boolean true)) m' := by
    with_unfolding_all rfl
  have hdepth : m'.depth < callLimit := by
    rw [show m'.depth = 0 by with_unfolding_all rfl]
    decide
  have hyes (n : Machine) : runExpr yes n = .ok (some (.boolean true)) n := rfl
  have htext (n : Machine) :
      runExpr (.literal (.text "x") 3) n = .ok (some (.text "x")) n := rfl
  have htaken : List.Forall₂ (fun p v => p.takes v = true) f.parameters
      [.boolean true, .boolean true] :=
    .cons rfl (.cons rfl .nil)
  obtain ⟨hrejected, huser, hnative, hdeclare⟩ := rejections_leave_no_trace m
  obtain ⟨hargument, hcalled⟩ := huser "f" 1 f hf
  refine ⟨?_, ?_, ?_, ?_, ?_, ?_, ?_⟩
  · have hcount : Rejection "f" 0 (m.valueOf? "f") (.argumentCount "f" 0) := by
      rw [hf]
      exact .user (f := f) (by decide)
    exact (hrejected "f" [] 3 _ hcount).1
  · exact (hargument [] _ [g] [] _ m m [] _ _ 3 (.none m) (htext m) rfl .nil rfl rfl).1
  · rw [hcalled [g, yes] _ m' 3 (.next hg (.next (hyes m') (.none m'))) htaken,
      if_pos hdepth]
  · with_unfolding_all rfl
  · have hfull : full.valueOf? "f" = some (.function 1 (.user f)) := by
      with_unfolding_all rfl
    obtain ⟨-, hlimit⟩ := (rejections_leave_no_trace full).2.1 "f" 1 f hfull
    rw [hlimit [yes, yes] _ full 3 (.next (hyes full) (.next (hyes full) (.none full))) htaken,
      if_neg (Nat.lt_irrefl callLimit)]
  · have hshon : m.valueOf? "shon" =
        some (.function 0 (.native ⟨"shon", .atLeast 1, .shon⟩)) := by
      with_unfolding_all rfl
    exact hnative "shon" 0 _ hshon [g] _ m' 3 (.next hg (.none m')) rfl
  · exact hdeclare .num "f" g 3 _ m' hg (by decide)

end Machine
end ColonScript
