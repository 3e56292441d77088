import ColonScript.Proofs.Lines.Store
import ColonScript.Proofs.Running.Traversal

/-!
# Running does not look at lines

A run uses lines for one thing only, to report where it failed.  Aligned programs that run in
aligned machines therefore come to the same end: they give aligned values or fail for the same
cause, and leave aligned machines.  The proof goes over both programs at once, one lemma for each
step, and then by induction on the number of calls that may nest.
-/

namespace ColonScript
namespace Run

variable {L : Nat → Nat → Prop} {α β γ δ : Type} {R : α → β → Prop} {S : γ → δ → Prop}

/-- Two results of runs: related values or failures for the same cause, and aligned machines. -/
inductive ResultsAligned (L : Nat → Nat → Prop) {α β : Type} (R : α → β → Prop) :
    EStateM.Result RunError Machine α → EStateM.Result RunError Machine β → Prop
  | ok {a : α} {b : β} {m m' : Machine} : R a b → m.Aligned L m' →
      ResultsAligned L R (.ok a m) (.ok b m')
  | error {e e' : RunError} {m m' : Machine} : e.Aligned L e' → m.Aligned L m' →
      ResultsAligned L R (.error e m) (.error e' m')

/-- Two runs come to the same end in aligned machines. -/
def Aligned (L : Nat → Nat → Prop) {α β : Type} (R : α → β → Prop) (x : Run α) (y : Run β) :
    Prop :=
  ∀ m m' : Machine, m.Aligned L m' → ResultsAligned L R (x m) (y m')

theorem aligned_pure
    {a : α} {b : β} (h : R a b) :
    Aligned L R (pure a) (pure b) :=
  fun _ _ hm => .ok h hm

theorem aligned_fail
    {k l : Nat} (hline : L k l) (cause : RunCause) :
    Aligned L R (fail k cause) (fail l cause) :=
  fun _ _ hm => .error ⟨rfl, hline⟩ hm

/-- As many arguments are too many or too few for both. -/
theorem aligned_wrongCount
    {k l : Nat} (hline : L k l) (function : String) {P : γ → δ → Prop} {as : List γ} {bs : List δ}
    (h : List.Forall₂ P as bs) :
    Aligned L R (fail k (.argumentCount function as.length))
      (fail l (.argumentCount function bs.length)) := by
  rw [h.length_eq]
  exact aligned_fail hline _

theorem Aligned.bind
    {x : Run α} {y : Run β} {f : α → Run γ} {g : β → Run δ} (hx : Aligned L R x y)
    (hf : ∀ a b, R a b → Aligned L S (f a) (g b)) :
    Aligned L S (x >>= f) (y >>= g) := by
  intro m m' hm
  have hfirst := hx m m' hm
  generalize hr : x m = r at hfirst
  generalize hr' : y m' = r' at hfirst
  cases hfirst with
  | ok hR hm₁ =>
      rw [bind_of_ok hr, bind_of_ok hr']
      exact hf _ _ hR _ _ hm₁
  | error he hm₁ =>
      rw [bind_of_error hr, bind_of_error hr']
      exact .error he hm₁

/-- A step whose value is then changed. -/
theorem Aligned.andThen
    {x : Run α} {y : Run β} {f : α → γ} {g : β → δ} (hx : Aligned L R x y)
    (hf : ∀ a b, R a b → S (f a) (g b)) :
    Aligned L S (x >>= fun a => pure (f a)) (y >>= fun b => pure (g b)) :=
  hx.bind fun a b hR => aligned_pure (hf a b hR)

theorem aligned_lift
    {x : Except RunError α} {y : Except RunError β}
    (h : OutcomesRelate (RunError.Aligned L) R x y) :
    Aligned L R (lift x) (lift y) := by
  intro m m' hm
  cases h with
  | ok hR => exact .ok hR hm
  | error he => exact .error he hm

theorem Aligned.require
    {x y : Run (Option Value)} (h : Aligned L (Option.Rel (Value.Aligned L)) x y) {k l : Nat}
    (hline : L k l) :
    Aligned L (Value.Aligned L) (require k x) (require l y) := by
  refine h.bind fun v w hv => ?_
  cases hv with
  | none => exact aligned_fail hline _
  | some hv => exact aligned_pure hv

theorem aligned_declare
    {r r' : Record} (hr : r.Aligned L r') :
    Aligned L Eq (modify (Machine.mapScopes (·.declare r)))
      (modify (Machine.mapScopes (·.declare r'))) :=
  fun _ _ hm => .ok rfl (hm.mapScopes (hm.scopes.declare hr))

theorem aligned_define
    {f g : UserFunction} (hf : f.Aligned L g) :
    Aligned L Eq (modify (Machine.define f)) (modify (Machine.define g)) :=
  fun _ _ hm => .ok rfl (hm.define hf)

/-- What follows a look at the scopes is aligned if it is for aligned records. -/
theorem aligned_find
    (name : String) {f g : Option Record → Run α} {R : α → α → Prop}
    (h : ∀ r r', Option.Rel (Record.Aligned L) r r' → Aligned L R (f r) (g r')) :
    Aligned L R (get >>= fun m => f (m.scopes.find? name))
      (get >>= fun m => g (m.scopes.find? name)) :=
  fun m m' hm => h _ _ (hm.scopes.find? name) m m' hm

theorem aligned_lookup
    (name : String) {f g : Option Value → Run α} {R : α → α → Prop}
    (h : ∀ v w, Option.Rel (Value.Aligned L) v w → Aligned L R (f v) (g w)) :
    Aligned L R (get >>= fun m => f (m.valueOf? name)) (get >>= fun m => g (m.valueOf? name)) :=
  fun m m' hm => h _ _ (hm.valueOf? name) m m' hm

theorem Aligned.between
    {enter enter' leave leave' : Machine → Machine} {x : Run α} {y : Run β}
    (henter : ∀ m m', m.Aligned L m' → (enter m).Aligned L (enter' m'))
    (hleave : ∀ m m', m.Aligned L m' → (leave m).Aligned L (leave' m')) (h : Aligned L R x y) :
    Aligned L R (between enter leave x) (between enter' leave' y) := by
  intro m m' hm
  have hinner := h _ _ (henter m m' hm)
  unfold Run.between
  generalize x (enter m) = r at hinner
  generalize y (enter' m') = r' at hinner
  cases hinner with
  | ok hR hm₁ => exact .ok hR (hleave _ _ hm₁)
  | error he hm₁ => exact .error he (hleave _ _ hm₁)

/-! ## Natives -/

theorem aligned_print
    {k l : Nat} (hline : L k l) (text : String) :
    Aligned L Eq (print k text) (print l text) := by
  intro m m' hm
  rw [print_apply, print_apply, hm.sink]
  split
  · exact .ok rfl (hm.emit text)
  · exact .error ⟨rfl, hline⟩ hm

theorem aligned_push
    {k l : Nat} (hline : L k l) {as bs : List Argument}
    (h : List.Forall₂ (Argument.Aligned L) as bs) :
    Aligned L (Option.Rel (Value.Aligned L)) (Native.push k as) (Native.push l bs) := by
  have hcount := aligned_wrongCount (R := Option.Rel (Value.Aligned L)) hline "push" h
  rcases h with _ | ⟨htarget, _ | ⟨hitem, _ | ⟨hthird, hmore⟩⟩⟩
  · exact hcount
  · exact hcount
  · next target target' item item' =>
    obtain ⟨v, binding⟩ := target
    obtain ⟨v', binding'⟩ := target'
    obtain rfl : binding = binding' := htarget.binding
    cases binding with
    | none => exact aligned_fail hline _
    | some name =>
        intro m m' hm
        rw [Native.push_named, Native.push_named]
        have hfound := hm.valueOf? name
        generalize m.valueOf? name = found at hfound
        generalize m'.valueOf? name = found' at hfound
        cases hfound with
        | none => exact .error ⟨rfl, hline⟩ hm
        | some hvalue =>
            cases hvalue with
            | array hs =>
                have hall := List.rel_append hs (.cons hitem.value.coerce .nil)
                exact .ok .none (hm.mapScopes (hm.scopes.assign name (.array hall)))
            | _ => exact .error ⟨rfl, hline⟩ hm
  · exact hcount

theorem elementAt_aligned
    {vs ws : List Value} (h : List.Forall₂ (Value.Aligned L) vs ws) {k l : Nat} (hline : L k l)
    (position : Int) :
    OutcomesRelate (RunError.Aligned L) (Value.Aligned L) (Native.elementAt k vs position)
      (Native.elementAt l ws position) := by
  have hcause : RunCause.indexOutOfBounds vs.length position =
      .indexOutOfBounds ws.length position := by
    rw [h.length_eq]
  rw [Native.elementAt, Native.elementAt]
  by_cases hpositive : 0 ≤ position
  · rw [if_pos hpositive, if_pos hpositive]
    have hfound := rel_getElem? h position.toNat
    generalize vs[position.toNat]? = found at hfound
    generalize ws[position.toNat]? = found' at hfound
    cases hfound with
    | none => exact .error ⟨hcause, hline⟩
    | some hvalue => exact .ok hvalue
  · rw [if_neg hpositive, if_neg hpositive]
    exact .error ⟨hcause, hline⟩

theorem aligned_index
    {k l : Nat} (hline : L k l) {as bs : List Argument}
    (h : List.Forall₂ (Argument.Aligned L) as bs) :
    Aligned L (Option.Rel (Value.Aligned L)) (Native.index k as) (Native.index l bs) := by
  have hcount := aligned_wrongCount (R := Option.Rel (Value.Aligned L)) hline "index" h
  rcases h with _ | ⟨harray, _ | ⟨hposition, _ | ⟨hthird, hmore⟩⟩⟩
  · exact hcount
  · exact hcount
  · refine (aligned_lift (harray.value.asElements hline)).bind fun vs ws hs => ?_
    refine (aligned_lift (hposition.value.asInteger hline)).bind ?_
    rintro i _ rfl
    exact (aligned_lift (elementAt_aligned hs hline i)).andThen fun _ _ hvalue => .some hvalue
  · exact hcount

theorem map_display_eq
    {as bs : List Argument} (h : List.Forall₂ (Argument.Aligned L) as bs) :
    (as.map fun a => a.value.display) = bs.map fun b => b.value.display := by
  induction h with
  | nil => rfl
  | cons ha _ ih => rw [List.map_cons, List.map_cons, ih, ha.value.display_eq]

theorem aligned_bindings
    {as bs : List Argument} (h : List.Forall₂ (Argument.Aligned L) as bs) :
    Aligned L (Option.Rel (Value.Aligned L)) (Native.bindings as) (Native.bindings bs) := by
  refine aligned_pure (.some (.array ?_))
  rw [List.forall₂_map_left_iff, List.forall₂_map_right_iff]
  refine h.imp fun a b hab => ?_
  rw [hab.binding]
  exact .text _

theorem aligned_peek
    {as bs : List Argument} (h : List.Forall₂ (Argument.Aligned L) as bs) :
    Aligned L (Option.Rel (Value.Aligned L)) (Native.peek as) (Native.peek bs) := by
  have hname : (as.head?.map fun a => a.value.display).getD "" =
      (bs.head?.map fun b => b.value.display).getD "" := by
    rw [← List.head?_map, ← List.head?_map, map_display_eq h]
  unfold Native.peek
  rw [hname]
  refine aligned_find _
    (f := fun r => pure (r.map fun r => Value.array [.text r.kind.word, r.value]))
    (g := fun r => pure (r.map fun r => Value.array [.text r.kind.word, r.value]))
    fun r r' hr => aligned_pure (rel_map hr fun a b hab => ?_)
  rw [hab.kind]
  exact .array (.cons (.text _) (.cons hab.value .nil))

theorem aligned_pushTo
    {k l : Nat} (hline : L k l) {as bs : List Argument}
    (h : List.Forall₂ (Argument.Aligned L) as bs) :
    Aligned L (Option.Rel (Value.Aligned L)) (Native.pushTo k as) (Native.pushTo l bs) := by
  cases h with
  | nil => exact aligned_push hline .nil
  | cons htarget hothers =>
      refine aligned_push hline (.cons ⟨htarget.value, ?_⟩ hothers)
      exact congrArg some htarget.value.display_eq

/-- Routines come to the same end.  The one that prints its line is called on equal lines. -/
theorem aligned_routine
    {r : Routine} (hsay : r = .say → ∀ k l, L k l → k = l) {k l : Nat} (hline : L k l)
    {as bs : List Argument} (h : List.Forall₂ (Argument.Aligned L) as bs) :
    Aligned L (Option.Rel (Value.Aligned L)) (r.run k as) (r.run l bs) := by
  cases r with
  | shon =>
      rw [Routine.run, Routine.run, Native.shon, Native.shon, map_display_eq h]
      exact (aligned_print hline _).andThen fun _ _ _ => .none
  | push => exact aligned_push hline h
  | index => exact aligned_index hline h
  | bindings => exact aligned_bindings h
  | peek => exact aligned_peek h
  | pushTo => exact aligned_pushTo hline h
  | say =>
      obtain rfl := hsay rfl k l hline
      rw [Routine.run, Routine.run, Native.say, Native.say, h.length_eq]
      exact (aligned_print hline _).andThen fun _ _ _ => .some (.number _)

/-! ## Expressions -/

/-- Two ways to call come to the same end for aligned functions and arguments. -/
def CallsAligned (L : Nat → Nat → Prop) (i j : Invocation) : Prop :=
  ∀ f g rs rs' k l, f.Aligned L g → List.Forall₂ (Record.Aligned L) rs rs' → L k l →
    Aligned L (Option.Rel (Value.Aligned L)) (i f rs k) (j g rs' l)

variable {i j : Invocation}

theorem aligned_callNative
    {as bs : List Expr} (hexprs : List.Forall₂ (Expr.Aligned L) as bs)
    (harguments : Aligned L (List.Forall₂ (Argument.Aligned L)) (nativeArguments i as)
      (nativeArguments j bs))
    {f : NativeFunction} (hsay : f.routine = .say → ∀ k l, L k l → k = l) {k l : Nat}
    (hline : L k l) :
    Aligned L (Option.Rel (Value.Aligned L)) (callNative i f as k) (callNative j f bs l) := by
  have hcount := aligned_wrongCount (R := Option.Rel (Value.Aligned L)) hline f.name hexprs
  rw [callNative, callNative, hexprs.length_eq]
  rw [hexprs.length_eq] at hcount
  split
  · exact harguments.bind fun _ _ hvalues => aligned_routine hsay hline hvalues
  · exact hcount

theorem aligned_callUser
    (hcalls : CallsAligned L i j) {as bs : List Expr}
    (hexprs : List.Forall₂ (Expr.Aligned L) as bs) {f g : UserFunction} (hf : f.Aligned L g)
    {k l : Nat} (hline : L k l)
    (harguments : Aligned L (List.Forall₂ (Record.Aligned L))
      (userArguments i g.name k g.parameters as) (userArguments j g.name l g.parameters bs)) :
    Aligned L (Option.Rel (Value.Aligned L)) (callUser i f as k) (callUser j g bs l) := by
  rw [callUser, callUser, hexprs.length_eq, hf.name, hf.parameters]
  split
  · exact harguments.bind fun rs rs' hrecords => hcalls f g rs rs' k l hf hrecords hline
  · exact aligned_fail hline _

theorem aligned_callValue
    (hcalls : CallsAligned L i j) (callee : String) {as bs : List Expr}
    (hexprs : List.Forall₂ (Expr.Aligned L) as bs) {k l : Nat} (hline : L k l)
    (hnative : Aligned L (List.Forall₂ (Argument.Aligned L)) (nativeArguments i as)
      (nativeArguments j bs))
    (huser : ∀ function ps, Aligned L (List.Forall₂ (Record.Aligned L))
      (userArguments i function k ps as) (userArguments j function l ps bs))
    {v w : Option Value} (hv : Option.Rel (Value.Aligned L) v w) :
    Aligned L (Option.Rel (Value.Aligned L)) (callValue i callee as k v)
      (callValue j callee bs l w) := by
  cases hv with
  | none => exact aligned_fail hline _
  | some hv =>
      cases hv with
      | function _ hf =>
          cases hf with
          | user hf => exact aligned_callUser hcalls hexprs hf hline (huser _ _)
          | native f hsay => exact aligned_callNative hexprs hnative hsay hline
      | _ => exact aligned_fail hline _

theorem bareName?_eq
    {a b : Expr} (h : a.Aligned L b) :
    a.bareName? = b.bareName? := by
  cases h <;> rfl

mutual

/-- Aligned expressions come to the same end as soon as calls do. -/
theorem aligned_expr
    (hcalls : CallsAligned L i j) {a b : Expr} (h : a.Aligned L b) :
    Aligned L (Option.Rel (Value.Aligned L)) (expr i a) (expr j b) := by
  cases h with
  | literal constant hline =>
      rw [expr, expr]
      refine aligned_pure (.some ?_)
      cases constant with
      | number n => exact .number n
      | text s => exact .text s
      | boolean b => exact .boolean b
  | name name hline =>
      rw [expr_name, expr_name]
      refine aligned_lookup name fun v w hv => ?_
      cases hv with
      | none => exact aligned_fail hline _
      | some hv => exact aligned_pure (.some hv)
  | negate hoperand hline =>
      rw [expr, expr]
      refine ((aligned_expr hcalls hoperand).require hoperand.line).bind fun v w hv => ?_
      exact (aligned_lift (hv.negate hline)).andThen fun _ _ hvalue => .some hvalue
  | binary op hleft hright hline =>
      rw [expr, expr]
      refine ((aligned_expr hcalls hleft).require hleft.line).bind fun v w hv => ?_
      refine ((aligned_expr hcalls hright).require hright.line).bind fun v' w' hv' => ?_
      exact (aligned_lift (op.apply_aligned hv hv' hline)).andThen fun _ _ hvalue => .some hvalue
  | call callee hexprs hline =>
      rw [expr_call, expr_call]
      refine aligned_lookup callee fun v w hv => ?_
      exact aligned_callValue hcalls callee hexprs hline (aligned_nativeArguments hcalls hexprs)
        (fun function ps => aligned_userArguments hcalls function hline ps hexprs) hv
  | array hexprs hline =>
      rw [expr, expr]
      exact (aligned_values hcalls hexprs).andThen fun _ _ hvalues => .some (.array hvalues)
termination_by sizeOf a

theorem aligned_values
    (hcalls : CallsAligned L i j) {as bs : List Expr}
    (h : List.Forall₂ (Expr.Aligned L) as bs) :
    Aligned L (List.Forall₂ (Value.Aligned L)) (values i as) (values j bs) := by
  cases h with
  | nil =>
      rw [values, values]
      exact aligned_pure .nil
  | cons hexpr hexprs =>
      rw [values, values]
      refine ((aligned_expr hcalls hexpr).require hexpr.line).bind fun v w hv => ?_
      exact (aligned_values hcalls hexprs).andThen fun _ _ hvalues => .cons hv hvalues
termination_by sizeOf as

theorem aligned_nativeArguments
    (hcalls : CallsAligned L i j) {as bs : List Expr}
    (h : List.Forall₂ (Expr.Aligned L) as bs) :
    Aligned L (List.Forall₂ (Argument.Aligned L)) (nativeArguments i as)
      (nativeArguments j bs) := by
  cases h with
  | nil =>
      rw [nativeArguments, nativeArguments]
      exact aligned_pure .nil
  | cons hexpr hexprs =>
      rw [nativeArguments, nativeArguments]
      refine ((aligned_expr hcalls hexpr).require hexpr.line).bind fun v w hv => ?_
      exact (aligned_nativeArguments hcalls hexprs).andThen fun _ _ hvalues =>
        .cons ⟨hv, bareName?_eq hexpr⟩ hvalues
termination_by sizeOf as

theorem aligned_userArguments
    (hcalls : CallsAligned L i j) (function : String) {k l : Nat} (hline : L k l)
    (ps : List Parameter) {as bs : List Expr} (h : List.Forall₂ (Expr.Aligned L) as bs) :
    Aligned L (List.Forall₂ (Record.Aligned L)) (userArguments i function k ps as)
      (userArguments j function l ps bs) := by
  cases h with
  | nil =>
      rw [userArguments.eq_2 _ _ _ _ _ (by simp), userArguments.eq_2 _ _ _ _ _ (by simp)]
      exact aligned_pure .nil
  | cons hexpr hexprs =>
      cases ps with
      | nil =>
          rw [userArguments.eq_2 _ _ _ _ _ (by simp), userArguments.eq_2 _ _ _ _ _ (by simp)]
          exact aligned_pure .nil
      | cons p ps =>
          rw [userArguments, userArguments]
          refine ((aligned_expr hcalls hexpr).require hexpr.line).bind fun v w hv => ?_
          -- Whether a parameter takes a value depends on its kind.
          rw [Parameter.takes, Parameter.takes, hv.kind_eq]
          split
          · exact (aligned_userArguments hcalls function hline ps hexprs).andThen
              fun _ _ hrecords => .cons ⟨rfl, rfl, hv⟩ hrecords
          · exact aligned_fail hline _
termination_by sizeOf as

end

/-! ## Statements -/

theorem aligned_bound
    (hcalls : CallsAligned L i j) {a b : Expr} (h : a.Aligned L b) (which : LoopBound) {k l : Nat}
    (hline : L k l) :
    Aligned L Eq (bound i which k a) (bound j which l b) := by
  refine ((aligned_expr hcalls h).require h.line).bind fun v w hv => ?_
  have hinteger := hv.asInteger hline
  rw [hv.display_eq]
  generalize v.asInteger k = r at hinteger
  generalize w.asInteger l = r' at hinteger
  cases hinteger with
  | ok heq => exact aligned_pure heq
  | error _ => exact aligned_fail hline _

theorem aligned_guard
    (hcalls : CallsAligned L i j) {g h : Option Expr} (hguard : Option.Rel (Expr.Aligned L) g h)
    {k l : Nat} (hline : L k l) :
    Aligned L Eq (guard i k g) (guard j l h) := by
  cases hguard with
  | none => exact aligned_pure rfl
  | some hexpr =>
      refine ((aligned_expr hcalls hexpr).require hexpr.line).bind fun v w hv => ?_
      exact aligned_lift (hv.asBool hline)

theorem aligned_iteration
    {x y : Run Ending} (h : Aligned L (Ending.Aligned L) x y) (counter : String) {k l : Nat}
    (hline : L k l) (n : Int) :
    Aligned L Eq (iteration counter k x n) (iteration counter l y n) := by
  unfold iteration
  split
  · exact aligned_fail hline _
  · next number _ =>
    have hbody := h.between (fun _ _ hm => hm.enterIteration counter number)
      fun _ _ hm => hm.leaveIteration
    exact hbody.andThen fun _ _ _ => rfl

theorem aligned_forEach
    {f g : Int → Run Unit} (h : ∀ n, Aligned L Eq (f n) (g n)) (step : Int) (count : Nat)
    (start : Int) :
    Aligned L Eq (forEach step f count start) (forEach step g count start) := by
  induction count generalizing start with
  | zero => exact aligned_pure rfl
  | succ count ih => exact (h start).bind fun _ _ _ => ih (start + step)

mutual

/-- Aligned statements come to the same end as soon as calls do. -/
theorem aligned_statement
    (hcalls : CallsAligned L i j) {a b : Statement} (h : a.Aligned L b) :
    Aligned L (Ending.Aligned L) (statement i a) (statement j b) := by
  cases h with
  | declare kind name hexpr hline =>
      rw [statement, statement]
      refine ((aligned_expr hcalls hexpr).require hexpr.line).bind fun v w hv => ?_
      rw [hv.kind_eq]
      split
      · have hrecord : Record.Aligned L ⟨kind, name, v⟩ ⟨kind, name, w⟩ := ⟨rfl, rfl, hv⟩
        exact (aligned_declare hrecord).andThen fun _ _ _ => .ran .none
      · exact aligned_fail hline _
  | @function name parameters body body' k l hbody hline =>
      rw [statement, statement]
      have hfunction : UserFunction.Aligned L ⟨name, parameters, body, k⟩
          ⟨name, parameters, body', l⟩ :=
        ⟨rfl, rfl, hbody, hline⟩
      exact (aligned_define hfunction).andThen fun _ _ _ => .ran .none
  | conditional hchain hline =>
      rw [statement, statement]
      exact aligned_arms hcalls hchain
  | loop counter hfirst hlast hbody hline =>
      rw [statement, statement]
      refine (aligned_bound hcalls hfirst .first hline).bind ?_
      rintro start _ rfl
      refine (aligned_bound hcalls hlast .last hline).bind ?_
      rintro stop _ rfl
      have hiteration := aligned_iteration (aligned_block hcalls hbody .none) counter hline
      exact (aligned_forEach hiteration _ _ start).andThen fun _ _ _ => .ran .none
  | returns hexpr hline =>
      rw [statement, statement]
      exact (aligned_expr hcalls hexpr).andThen fun _ _ hv => .returned hv
  | expression hexpr hline =>
      rw [statement, statement]
      exact (aligned_expr hcalls hexpr).andThen fun _ _ hv => .ran hv
termination_by sizeOf a

theorem aligned_arms
    (hcalls : CallsAligned L i j) {as bs : List Arm} (h : List.Forall₂ (Arm.Aligned L) as bs) :
    Aligned L (Ending.Aligned L) (arms i as) (arms j bs) := by
  cases h with
  | nil =>
      rw [arms, arms]
      exact aligned_pure (.ran .none)
  | cons harm hrest =>
      cases harm with
      | mk hguard hbody hline =>
          rw [arms, arms]
          refine (aligned_guard hcalls hguard hline).bind ?_
          rintro taken _ rfl
          cases taken with
          | false => exact aligned_arms hcalls hrest
          | true =>
              refine (aligned_block hcalls hbody .none).bind fun ending ending' hending => ?_
              cases hending with
              | ran _ => exact aligned_pure (.ran .none)
              | returned hv => exact aligned_pure (.returned hv)
termination_by sizeOf as

theorem aligned_block
    (hcalls : CallsAligned L i j) {as bs : List Statement}
    (h : List.Forall₂ (Statement.Aligned L) as bs) {v w : Option Value}
    (hlast : Option.Rel (Value.Aligned L) v w) :
    Aligned L (Ending.Aligned L) (block i as v) (block j bs w) := by
  cases h with
  | nil =>
      rw [block, block]
      exact aligned_pure (.ran hlast)
  | cons hs hrest =>
      rw [block, block]
      refine (aligned_statement hcalls hs).bind fun ending ending' hending => ?_
      cases hending with
      | ran hv => exact aligned_block hcalls hrest (rel_or hv hlast)
      | returned hv => exact aligned_pure (.returned hv)
termination_by sizeOf as

end

/-- Calls of aligned functions come to the same end, however many may nest. -/
theorem aligned_invoke
    (room : Nat) :
    CallsAligned L (invoke room) (invoke room) := by
  induction room with
  | zero => exact fun _ _ _ _ _ _ _ _ hline => aligned_fail hline _
  | succ room ih =>
      intro f g rs rs' k l hf hrecords hline
      rw [invoke_succ, invoke_succ]
      have hbody := (aligned_block ih hf.body .none).between
        (fun _ _ hm => hm.enterCall hrecords) fun _ _ hm => hm.leaveCall
      exact hbody.andThen fun _ _ hending => hending.value

end Run
end ColonScript
