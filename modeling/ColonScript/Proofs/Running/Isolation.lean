import ColonScript.Proofs.Running.Changes
import ColonScript.Proofs.Scopes.Locality

/-!
# A call cannot observe its caller

Two machines are alike if they differ only in layers that lie below some common ones.  A run is
isolated if it cannot tell such machines apart as long as the common layers are closed: it gives
the same value or failure in both, prints the same, and leaves machines that are alike again.
Every run is isolated.  Since a call puts a frame on top, which closes the layers, calls are even
isolated when nothing is common but the global scope: there are no closures and there is no
dynamic scope.
-/

namespace ColonScript

open Scopes

namespace Machine

/-- An iteration puts a binding scope with its counter on top. -/
theorem scopes_enterIteration
    {m : Machine} {g : Scope} {layers : List Layer} (h : m.scopes = layered g layers)
    (counter : Record) :
    (m.enterIteration counter).scopes =
      layered g (⟨.binding, .insert .empty counter⟩ :: layers) := by
  rw [Machine.enterIteration, Machine.mapScopes, h]
  exact bindHere_layered g ⟨.binding, .empty⟩ layers counter

/-- A call puts a frame with its arguments on top. -/
theorem scopes_enterCall
    {m : Machine} {g : Scope} {layers : List Layer} (h : m.scopes = layered g layers)
    (arguments : List Record) :
    (m.enterCall arguments).scopes =
      layered g (⟨.frame, arguments.foldl .insert .empty⟩ :: layers) := by
  rw [Machine.enterCall, h]
  exact foldl_bindHere_layered g ⟨.frame, .empty⟩ layers arguments

/-- Two machines that are equal but for layers below some common ones of these roles. -/
structure Alike (roles : List ScopeRole) (below₁ below₂ : List Layer)
    (m₁ m₂ : Machine) : Prop where
  scopes : ∃ g own, Scopes.roles own = roles ∧ m₁.scopes = layered g (own ++ below₁) ∧
    m₂.scopes = layered g (own ++ below₂)
  sink : m₁.sink = m₂.sink
  depth : m₁.depth = m₂.depth
  nextIdentity : m₁.nextIdentity = m₂.nextIdentity

variable {roles : List ScopeRole} {below₁ below₂ : List Layer} {m₁ m₂ : Machine}

/-- Alike machines have the same global scope. -/
theorem Alike.global_eq
    (h : Alike roles below₁ below₂ m₁ m₂) :
    m₁.scopes.row[top]? = m₂.scopes.row[top]? := by
  obtain ⟨g, own, _, h₁, h₂⟩ := h.scopes
  rw [h₁, h₂, row_top_layered, row_top_layered]

theorem Alike.find?_eq
    (h : Alike roles below₁ below₂ m₁ m₂) (hclosed : Closed roles) (name : String) :
    m₁.scopes.find? name = m₂.scopes.find? name := by
  obtain ⟨g, own, rfl, h₁, h₂⟩ := h.scopes
  rw [h₁, h₂]
  exact find?_layered_append g hclosed name below₁ below₂

theorem Alike.mapScopes
    (h : Alike roles below₁ below₂ m₁ m₂) (hclosed : Closed roles) {op : Scopes → Scopes}
    (hop : Local op) :
    Alike roles below₁ below₂ (m₁.mapScopes op) (m₂.mapScopes op) := by
  obtain ⟨g, own, rfl, h₁, h₂⟩ := h.scopes
  obtain ⟨g', own', hroles, hop⟩ := hop g own hclosed
  refine ⟨⟨g', own', hroles, ?_, ?_⟩, h.sink, h.depth, h.nextIdentity⟩
  · exact (congrArg op h₁).trans (hop below₁)
  · exact (congrArg op h₂).trans (hop below₂)

theorem Alike.define
    (h : Alike roles below₁ below₂ m₁ m₂) (hclosed : Closed roles) (f : UserFunction) :
    Alike roles below₁ below₂ (m₁.define f) (m₂.define f) := by
  have hscopes := h.mapScopes hclosed
    (local_declareTop ⟨.fn, f.name, .function m₁.nextIdentity (.user f)⟩)
  refine ⟨?_, h.sink, h.depth, congrArg (· + 1) h.nextIdentity⟩
  have hsecond : (m₂.define f).scopes =
      m₂.scopes.declareTop ⟨.fn, f.name, .function m₁.nextIdentity (.user f)⟩ := by
    rw [h.nextIdentity]
    rfl
  rw [hsecond]
  exact hscopes.scopes

theorem Alike.emit
    (h : Alike roles below₁ below₂ m₁ m₂) (text : String) :
    Alike roles below₁ below₂ (m₁.emit text) (m₂.emit text) := by
  refine ⟨h.scopes, ?_, h.depth, h.nextIdentity⟩
  rw [Machine.emit, Machine.emit, h.sink]

theorem Alike.enterIteration
    (h : Alike roles below₁ below₂ m₁ m₂) (counter : Record) :
    Alike (.binding :: roles) below₁ below₂ (m₁.enterIteration counter)
      (m₂.enterIteration counter) := by
  obtain ⟨g, own, rfl, h₁, h₂⟩ := h.scopes
  exact ⟨⟨g, ⟨.binding, .insert .empty counter⟩ :: own, rfl, scopes_enterIteration h₁ counter,
    scopes_enterIteration h₂ counter⟩, h.sink, h.depth, h.nextIdentity⟩

theorem Alike.enterCall
    (h : Alike roles below₁ below₂ m₁ m₂) (arguments : List Record) :
    Alike (.frame :: roles) below₁ below₂ (m₁.enterCall arguments) (m₂.enterCall arguments) := by
  obtain ⟨g, own, rfl, h₁, h₂⟩ := h.scopes
  exact ⟨⟨g, ⟨.frame, arguments.foldl .insert .empty⟩ :: own, rfl, scopes_enterCall h₁ arguments,
    scopes_enterCall h₂ arguments⟩, h.sink, congrArg (· + 1) h.depth, h.nextIdentity⟩

theorem Alike.pop
    {role : ScopeRole} (h : Alike (role :: roles) below₁ below₂ m₁ m₂) :
    Alike roles below₁ below₂ (m₁.mapScopes Scopes.pop) (m₂.mapScopes Scopes.pop) := by
  obtain ⟨g, own, hroles, h₁, h₂⟩ := h.scopes
  cases own with
  | nil => cases hroles
  | cons l own =>
      injection hroles with _ hroles
      refine ⟨⟨g, own, hroles, ?_, ?_⟩, h.sink, h.depth, h.nextIdentity⟩
      · rw [Machine.mapScopes, h₁]
        exact pop_layered g l _
      · rw [Machine.mapScopes, h₂]
        exact pop_layered g l _

theorem Alike.leaveCall
    {role : ScopeRole} (h : Alike (role :: roles) below₁ below₂ m₁ m₂) :
    Alike roles below₁ below₂ m₁.leaveCall m₂.leaveCall :=
  ⟨h.pop.scopes, h.sink, congrArg (· - 1) h.depth, h.nextIdentity⟩

end Machine

namespace Run

variable {α β : Type}

/-- The same value or the same failure, in machines that are related. -/
inductive SameOutcome (R : Machine → Machine → Prop) :
    EStateM.Result RunError Machine α → EStateM.Result RunError Machine α → Prop
  | ok {a : α} {m₁ m₂ : Machine} : R m₁ m₂ → SameOutcome R (.ok a m₁) (.ok a m₂)
  | error {e : RunError} {m₁ m₂ : Machine} : R m₁ m₂ → SameOutcome R (.error e m₁) (.error e m₂)

/-- A run that has the same outcome in machines that differ only below closed layers. -/
def Isolated (act : Run α) : Prop :=
  ∀ {roles below₁ below₂}, Closed roles → ∀ {m₁ m₂}, Machine.Alike roles below₁ below₂ m₁ m₂ →
    SameOutcome (Machine.Alike roles below₁ below₂) (act m₁) (act m₂)

theorem SameOutcome.bind
    {R : Machine → Machine → Prop} {x : Run α} {f : α → Run β} {m₁ m₂ : Machine}
    (hx : SameOutcome R (x m₁) (x m₂))
    (hf : ∀ a m₁' m₂', x m₁ = .ok a m₁' → R m₁' m₂' → SameOutcome R (f a m₁') (f a m₂')) :
    SameOutcome R ((x >>= f) m₁) ((x >>= f) m₂) := by
  generalize h₁ : x m₁ = r₁ at hx
  generalize h₂ : x m₂ = r₂ at hx
  cases hx with
  | ok hR =>
      rw [bind_of_ok h₁, bind_of_ok h₂]
      exact hf _ _ _ h₁ hR
  | error hR =>
      rw [bind_of_error h₁, bind_of_error h₂]
      exact .error hR

theorem SameOutcome.between
    {R R' : Machine → Machine → Prop} {enter leave : Machine → Machine} {x : Run α}
    {m₁ m₂ : Machine} (hx : SameOutcome R' (x (enter m₁)) (x (enter m₂)))
    (hleave : ∀ m₁' m₂', R' m₁' m₂' → R (leave m₁') (leave m₂')) :
    SameOutcome R (between enter leave x m₁) (between enter leave x m₂) := by
  unfold Run.between
  generalize x (enter m₁) = r₁ at hx
  generalize x (enter m₂) = r₂ at hx
  cases hx with
  | ok hR => exact .ok (hleave _ _ hR)
  | error hR => exact .error (hleave _ _ hR)

theorem isolated_print
    (line : Nat) (text : String) :
    Isolated (print line text) := by
  intro roles below₁ below₂ _ m₁ m₂ h
  rw [print_apply, print_apply, h.sink]
  split
  · exact .ok (h.emit text)
  · exact .error h

theorem isolated_push
    (line : Nat) (arguments : List Argument) :
    Isolated (Native.push line arguments) := by
  intro roles below₁ below₂ hclosed m₁ m₂ h
  match arguments with
  | [] | [_] | _ :: _ :: _ :: _ => exact .error h
  | [⟨_, none⟩, item] => exact .error h
  | [⟨v, some name⟩, item] =>
      have hvalue : m₁.valueOf? name = m₂.valueOf? name := by
        rw [Machine.valueOf?, Machine.valueOf?, h.find?_eq hclosed]
      rw [Native.push_named, Native.push_named, hvalue]
      split
      · exact .error h
      · exact .ok (h.mapScopes hclosed (local_assign name _))
      · exact .error h

theorem Isolated.bind
    {x : Run α} {f : α → Run β} (hx : Isolated x)
    (hf : ∀ a m m', x m = .ok a m' → Isolated (f a)) :
    Isolated (x >>= f) := by
  intro roles below₁ below₂ hclosed m₁ m₂ h
  refine (hx hclosed h).bind fun a m₁' m₂' hok h' => ?_
  exact hf a m₁ m₁' hok hclosed h'

theorem isolated_find
    (name : String) {f : Option Record → Run α} (hf : ∀ r, Isolated (f r)) :
    Isolated (get >>= fun m => f (m.scopes.find? name)) := by
  intro roles below₁ below₂ hclosed m₁ m₂ h
  change SameOutcome _ (f (m₁.scopes.find? name) m₁) (f (m₂.scopes.find? name) m₂)
  rw [h.find?_eq hclosed]
  exact hf _ hclosed h

/-- An iteration works on one more common layer, which leaves again. -/
theorem Isolated.iterate
    {x : Run Ending} (hx : Isolated x) (counter : Record) :
    Isolated (Run.between (.enterIteration counter) .leaveIteration x) := by
  intro roles below₁ below₂ hclosed m₁ m₂ h
  have hbody := hx (hclosed.cons .binding) (h.enterIteration counter)
  exact hbody.between fun _ _ h' => h'.pop

/-- Steps are isolated, and so is what is put together from them. -/
theorem compatible_isolated :
    Compatible fun x _ => Isolated x where
  pure _ _ _ _ _ _ _ h := .ok h
  fail _ _ _ _ _ _ _ _ h := .error h
  bind := Isolated.bind
  find name _ _ hf := isolated_find name hf
  declare r _ _ _ _ hclosed _ _ h := .ok (h.mapScopes hclosed (local_declare r))
  define f _ _ _ hclosed _ _ h := .ok (h.define hclosed f)
  print := isolated_print
  push := isolated_push
  iterate counter n _ _ hx := hx.iterate ⟨.num, counter, .number n⟩

/-- A call has the same outcome in all machines that differ only below common layers, closed or
not: its frame closes them. -/
theorem sameOutcome_invoke
    (room : Nat) (f : UserFunction) (arguments : List Record) (line : Nat)
    {roles : List ScopeRole} {below₁ below₂ : List Layer} {m₁ m₂ : Machine}
    (h : Machine.Alike roles below₁ below₂ m₁ m₂) :
    SameOutcome (Machine.Alike roles below₁ below₂) (invoke room f arguments line m₁)
      (invoke room f arguments line m₂) := by
  induction room generalizing f arguments line roles below₁ below₂ m₁ m₂ with
  | zero => exact .error h
  | succ room ih =>
      have hcalls : CallsRelate (fun x _ => Isolated x) (invoke room) (invoke room) :=
        fun f arguments line _ _ _ _ _ _ _ h => ih f arguments line h
      have hblock : Isolated (block (invoke room) f.body none) :=
        (compatible_isolated.statements hcalls).2.1 f.body none
      -- The frame closes the layers, so the body sees nothing of what lies below it.
      have hbody := hblock (closed_frame roles) (h.enterCall arguments)
      rw [invoke_succ]
      refine SameOutcome.bind ?_ fun _ _ _ _ h' => .ok h'
      exact hbody.between fun _ _ h' => h'.leaveCall

end Run

/-! ## Arguments without names -/

/-- An expression that is written with literals and arrays only. -/
inductive Expr.Constant : Expr → Prop
  | literal (constant : Literal) (line : Nat) : Constant (.literal constant line)
  | array {elements : List Expr} (line : Nat) :
      (∀ e ∈ elements, Constant e) → Constant (.array elements line)

namespace Run

theorem values_of_pure
    {i : Invocation} {es : List Expr} (h : ∀ e ∈ es, ∃ v, expr i e = pure (some v)) :
    ∃ vs, values i es = pure vs := by
  induction es with
  | nil => exact ⟨[], by rw [values]⟩
  | cons e es ih =>
      obtain ⟨v, hv⟩ := h e List.mem_cons_self
      obtain ⟨vs, hvs⟩ := ih fun e he => h e (List.mem_cons_of_mem _ he)
      refine ⟨v :: vs, ?_⟩
      rw [values, hv, hvs]
      rfl

/-- A constant has its value in every machine and leaves it as it is. -/
theorem expr_of_constant
    (i : Invocation) {e : Expr} (h : e.Constant) :
    ∃ v, expr i e = pure (some v) := by
  induction h with
  | literal constant line => exact ⟨constant.value, by rw [expr]⟩
  | array line _ ih =>
      obtain ⟨vs, hvs⟩ := values_of_pure ih
      refine ⟨.array vs, ?_⟩
      rw [expr, hvs]
      rfl

/-- Constant arguments are accepted or rejected alike in all machines. -/
theorem userArguments_of_constants
    (i : Invocation) (function : String) (line : Nat) (ps : List Parameter) {es : List Expr}
    (h : ∀ e ∈ es, e.Constant) :
    ∃ r, userArguments i function line ps es = lift r := by
  induction es generalizing ps with
  | nil => exact ⟨.ok [], userArguments.eq_2 _ _ _ _ _ (by simp)⟩
  | cons e es ih =>
      cases ps with
      | nil => exact ⟨.ok [], userArguments.eq_2 _ _ _ _ _ (by simp)⟩
      | cons p ps =>
          obtain ⟨v, hv⟩ := expr_of_constant i (h e List.mem_cons_self)
          obtain ⟨r, hr⟩ := ih ps fun e he => h e (List.mem_cons_of_mem _ he)
          have hrequire : require e.line (pure (some v)) = pure v := rfl
          rw [userArguments, hv, hr, hrequire, pure_bind]
          split
          · cases r with
            | ok records => exact ⟨.ok (⟨p.kind, p.name, v⟩ :: records), rfl⟩
            | error e => exact ⟨.error e, rfl⟩
          · exact ⟨.error ⟨_, line⟩, rfl⟩

/-- What a run answers, without the machine that it leaves. -/
def answer (act : Run α) (m : Machine) : Except RunError α :=
  match act m with
  | .ok a _ => .ok a
  | .error e _ => .error e

theorem SameOutcome.answer_eq
    {R : Machine → Machine → Prop} {act : Run α} {m₁ m₂ : Machine}
    (h : SameOutcome R (act m₁) (act m₂)) :
    act.answer m₁ = act.answer m₂ := by
  unfold answer
  generalize act m₁ = r₁ at h
  generalize act m₂ = r₂ at h
  cases h <;> rfl

theorem SameOutcome.after
    {R : Machine → Machine → Prop} {act : Run α} {m₁ m₂ : Machine}
    (h : SameOutcome R (act m₁) (act m₂)) :
    R (act.after m₁) (act.after m₂) := by
  unfold Run.after
  generalize act m₁ = r₁ at h
  generalize act m₂ = r₂ at h
  cases h with
  | ok hR => exact hR
  | error hR => exact hR

theorem sameOutcome_callUser
    (room : Nat) (f : UserFunction) {arguments : List Expr}
    (hconstant : ∀ e ∈ arguments, e.Constant) (line : Nat)
    {roles : List ScopeRole} {below₁ below₂ : List Layer} {m₁ m₂ : Machine}
    (h : Machine.Alike roles below₁ below₂ m₁ m₂) :
    SameOutcome (Machine.Alike roles below₁ below₂) (callUser (invoke room) f arguments line m₁)
      (callUser (invoke room) f arguments line m₂) := by
  unfold callUser
  split
  · obtain ⟨r, hr⟩ :=
      userArguments_of_constants (invoke room) f.name line f.parameters hconstant
    rw [hr]
    cases r with
    | ok records => exact sameOutcome_invoke room f records line h
    | error e => exact .error h
  · exact .error h

end Run

namespace Machine

/-- Machines with the same global scope are alike with nothing else in common. -/
theorem alike_of_global_eq
    {m₁ m₂ : Machine} (h₁ : m₁.scopes.WellFormed) (h₂ : m₂.scopes.WellFormed)
    (hglobal : m₁.scopes.row[top]? = m₂.scopes.row[top]?) (hsink : m₁.sink = m₂.sink)
    (hdepth : m₁.depth = m₂.depth) (hidentity : m₁.nextIdentity = m₂.nextIdentity) :
    ∃ below₁ below₂, Alike [] below₁ below₂ m₁ m₂ := by
  obtain ⟨g₁, below₁, _, _, hlayers₁⟩ := h₁.exists_layered
  obtain ⟨g₂, below₂, _, _, hlayers₂⟩ := h₂.exists_layered
  rw [hlayers₁, hlayers₂, row_top_layered, row_top_layered] at hglobal
  cases hglobal
  exact ⟨below₁, below₂, ⟨g₁, [], rfl, hlayers₁, hlayers₂⟩, hsink, hdepth, hidentity⟩

/-- A call cannot observe its caller.  In two machines that agree on the global scope, the
sink, the number of active calls and the supply of identities, whatever other scopes they have, a
call with constant arguments gives the same value or the same failure, prints the same lines and
leaves the same global scope. -/
theorem call_answers_alike
    {m₁ m₂ : Machine} (h₁ : m₁.scopes.WellFormed) (h₂ : m₂.scopes.WellFormed)
    (hglobal : m₁.scopes.row[top]? = m₂.scopes.row[top]?) (hsink : m₁.sink = m₂.sink)
    (hdepth : m₁.depth = m₂.depth) (hidentity : m₁.nextIdentity = m₂.nextIdentity)
    (f : UserFunction) {arguments : List Expr} (hconstant : ∀ e ∈ arguments, e.Constant)
    (line : Nat) :
    (runCall f arguments line).answer m₁ = (runCall f arguments line).answer m₂ ∧
      ((runCall f arguments line).after m₁).sink = ((runCall f arguments line).after m₂).sink ∧
      ((runCall f arguments line).after m₁).scopes.row[top]? =
        ((runCall f arguments line).after m₂).scopes.row[top]? := by
  obtain ⟨below₁, below₂, halike⟩ :=
    alike_of_global_eq h₁ h₂ hglobal hsink hdepth hidentity
  have hroom : m₁.room = m₂.room := by
    rw [room, room, hdepth]
  have hcall := Run.sameOutcome_callUser m₁.room f hconstant line halike
  have hsame : Run.SameOutcome (Alike [] below₁ below₂) (runCall f arguments line m₁)
      (runCall f arguments line m₂) := by
    rw [runCall, runCall, ← hroom]
    exact hcall
  exact ⟨hsame.answer_eq, hsame.after.sink, hsame.after.global_eq⟩

/-- A function that returns the value of a name it does not bind answers the same inside a call
in which the name means nothing and inside an iteration that counts with it. -/
theorem call_ignores_counter :
    let g : Scope := ⟨.global, none, top, .empty⟩
    let counter : Layer := ⟨.binding, .insert .empty ⟨.num, "i", .number 1⟩⟩
    let m₁ : Machine := { initial with scopes := layered g [⟨.frame, .empty⟩], depth := 1 }
    let m₂ : Machine := { initial with scopes := layered g [counter, ⟨.frame, .empty⟩], depth := 1 }
    let f : UserFunction := ⟨"f", [⟨.num, "n"⟩], [.returns (.name "i" 3) 3], 2⟩
    let call := runCall f [.literal (.number 5) 4] 4
    m₁.scopes.WellFormed ∧ m₂.scopes.WellFormed ∧
      m₁.scopes.row[top]? = m₂.scopes.row[top]? ∧
      m₁.valueOf? "i" = none ∧ m₂.valueOf? "i" = some (.number 1) ∧
      call.answer m₁ = call.answer m₂ ∧ (call.after m₁).sink = (call.after m₂).sink ∧
      (call.after m₁).scopes.row[top]? = (call.after m₂).scopes.row[top]? := by
  intro g counter m₁ m₂ f call
  have h₁ : m₁.scopes.WellFormed := wellFormed_layered rfl rfl _
  have h₂ : m₂.scopes.WellFormed := wellFormed_layered rfl rfl _
  have hglobal : m₁.scopes.row[top]? = m₂.scopes.row[top]? := by
    rw [row_top_layered, row_top_layered]
  have hconstant : ∀ e ∈ [Expr.literal (.number 5) 4], e.Constant := by
    intro e he
    rw [List.mem_singleton.mp he]
    exact .literal _ _
  refine ⟨h₁, h₂, hglobal, ?_, ?_, ?_⟩
  · simp [m₁, g, valueOf?, find?_add, recordAt?, top]
  · simp [m₂, g, counter, valueOf?, find?_add]
  · exact call_answers_alike h₁ h₂ hglobal rfl rfl rfl f hconstant 4

end Machine
end ColonScript
