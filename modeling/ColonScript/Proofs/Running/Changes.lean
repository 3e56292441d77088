import ColonScript.Proofs.Running.Traversal
import ColonScript.Session

/-!
# What a run can do to the machine

A run changes the machine in few ways, whatever the program is and however the run ends: it
declares records of the right kind, defines functions, appends to arrays, prints, and does all
this also inside calls and iterations.  `Machine.Changes` lists them once with the conditions
under which they are made; every run makes changes of this list only, so what they keep, every
run keeps.
-/

namespace ColonScript

namespace Machine

/-- Calls a user function. -/
def runCall (f : UserFunction) (arguments : List Expr) (line : Nat) : Run (Option Value) := fun m =>
  Run.callUser (Run.invoke m.room) f arguments line m

/-- The changes of the machine that runs can make. -/
inductive Changes : Machine → Machine → Prop
  | none (m : Machine) : Changes m m
  | next {m₁ m₂ m₃ : Machine} : Changes m₁ m₂ → Changes m₂ m₃ → Changes m₁ m₃
  | declared (m : Machine) (r : Record) : r.value.kind = r.kind →
      Changes m (m.mapScopes (·.declare r))
  | defined (m : Machine) (f : UserFunction) : Changes m (m.define f)
  | appended (m : Machine) (name : String) (elements : List Value) (item : Value) :
      m.valueOf? name = some (.array elements) →
      Changes m (m.mapScopes (·.assign name (.array (elements ++ [item]))))
  | printed (m : Machine) (text : String) : m.sink.isOpen = true → Changes m (m.emit text)
  | iterated {m m' : Machine} (counter : String) (n : Float) :
      Changes (m.enterIteration ⟨.num, counter, .number n⟩) m' → Changes m m'.leaveIteration
  | called {m m' : Machine} (arguments : List Record) : (∀ r ∈ arguments, r.Fits) →
      m.depth < callLimit → Changes (m.enterCall arguments) m' → Changes m m'.leaveCall

/-- Calls that were started have ended after every change. -/
theorem Changes.depth_eq
    {m m' : Machine} (h : Changes m m') :
    m'.depth = m.depth := by
  induction h with
  | none | declared | defined | appended | printed => rfl
  | next _ _ ih₁ ih₂ => exact ih₂.trans ih₁
  | iterated _ _ _ ih => exact ih
  | called _ _ _ _ ih => exact congrArg (· - 1) ih

theorem Changes.room_eq
    {m m' : Machine} (h : Changes m m') :
    m'.room = m.room := by
  rw [room, room, h.depth_eq]

theorem room_enterCall
    {room : Nat} {m : Machine} (hm : m.room = room + 1) (arguments : List Record) :
    (m.enterCall arguments).room = room := by
  change callLimit - (m.depth + 1) = room
  rw [Machine.room] at hm
  omega

theorem depth_lt_of_room_eq_succ
    {room : Nat} {m : Machine} (hm : m.room = room + 1) :
    m.depth < callLimit := by
  rw [Machine.room] at hm
  omega

end Machine

namespace Run

variable {α β : Type}

/-- The machine that a run leaves, also when it fails. -/
def after (act : Run α) (m : Machine) : Machine :=
  match act m with
  | .ok _ m' | .error _ m' => m'

theorem after_of_ok
    {act : Run α} {m m' : Machine} {a : α} (h : act m = .ok a m') :
    act.after m = m' := by
  rw [after, h]

theorem after_of_error
    {act : Run α} {m m' : Machine} {e : RunError} (h : act m = .error e m') :
    act.after m = m' := by
  rw [after, h]

theorem after_bind_of_ok
    {x : Run α} {m m' : Machine} {a : α} (h : x m = .ok a m') (f : α → Run β) :
    (x >>= f).after m = (f a).after m' := by
  rw [after, bind_of_ok h, after]

theorem after_bind_of_error
    {x : Run α} {m m' : Machine} {e : RunError} (h : x m = .error e m') (f : α → Run β) :
    (x >>= f).after m = m' :=
  after_of_error (bind_of_error h f)

theorem after_between
    (enter leave : Machine → Machine) (act : Run α) (m : Machine) :
    (between enter leave act).after m = leave (act.after (enter m)) := by
  unfold after between
  cases act (enter m) <;> rfl

/-- A run that makes only changes of the list when so many calls may still nest. -/
def Permitted (room : Nat) (act : Run α) : Prop :=
  ∀ m : Machine, m.room = room → m.Changes (act.after m)

theorem Permitted.changes_of_ok
    {room : Nat} {x : Run α} (hx : x.Permitted room) {m m' : Machine} {a : α}
    (hm : m.room = room) (h : x m = .ok a m') :
    m.Changes m' := by
  have hchanges := hx m hm
  rw [after_of_ok h] at hchanges
  exact hchanges

/-- A run that ends well leaves as many calls active as before. -/
theorem Permitted.depth_of_ok
    {room : Nat} {x : Run α} (hx : x.Permitted room) {m m' : Machine} {a : α}
    (hm : m.room = room) (h : x m = .ok a m') :
    m'.depth = m.depth :=
  (hx.changes_of_ok hm h).depth_eq

theorem Permitted.room_of_ok
    {room : Nat} {x : Run α} (hx : x.Permitted room) {m m' : Machine} {a : α}
    (hm : m.room = room) (h : x m = .ok a m') :
    m'.room = room := by
  rw [Machine.room, hx.depth_of_ok hm h]
  exact hm

theorem Permitted.bind
    {room : Nat} {x : Run α} {f : α → Run β} (hx : x.Permitted room)
    (hf : ∀ a m m', x m = .ok a m' → (f a).Permitted room) :
    (x >>= f).Permitted room := by
  intro m hm
  have hfirst := hx m hm
  cases hok : x m with
  | ok a m' =>
      have hsecond := hf a m m' hok m' (hx.room_of_ok hm hok)
      rw [after_of_ok hok] at hfirst
      rw [after_bind_of_ok hok]
      exact hfirst.next hsecond
  | error e m' =>
      rw [after_of_error hok] at hfirst
      rw [after_bind_of_error hok]
      exact hfirst

theorem permitted_push
    (room line : Nat) (arguments : List Argument) :
    (Native.push line arguments).Permitted room := by
  intro m _
  match arguments with
  | [] | [_] | _ :: _ :: _ :: _ => exact .none m
  | [⟨_, none⟩, item] => exact .none m
  | [⟨v, some name⟩, item] =>
      rw [after, Native.push_named]
      cases hfound : m.valueOf? name with
      | none => exact .none m
      | some found =>
          cases found with
          | array elements => exact .appended m name elements _ hfound
          | _ => exact .none m

theorem permitted_print
    (room line : Nat) (text : String) :
    (print line text).Permitted room := by
  intro m _
  rw [after, print_apply]
  by_cases hopen : m.sink.isOpen = true
  · rw [if_pos hopen]
    exact .printed m text hopen
  · rw [if_neg hopen]
    exact .none m

/-- Steps make changes of the list, and so does what is put together from them. -/
theorem compatible_permitted
    (room : Nat) :
    Compatible fun x _ => x.Permitted room where
  pure a m _ := .none m
  fail line cause m _ := .none m
  bind := Permitted.bind
  find name _ _ h m hm := h (m.scopes.find? name) m hm
  declare r hr m _ := .declared m r hr
  define f m _ := .defined m f
  print := permitted_print room
  push := permitted_push room
  iterate counter n x y hx m hm := by
    rw [after_between]
    exact .iterated counter n (hx _ hm)

theorem Permitted.call
    {room : Nat} {act : Run α} (h : act.Permitted room) {arguments : List Record}
    (hfit : ∀ r ∈ arguments, r.Fits) :
    (between (.enterCall arguments) .leaveCall act).Permitted (room + 1) := by
  intro m hm
  have hdepth := Machine.depth_lt_of_room_eq_succ hm
  have hbody := h _ (Machine.room_enterCall hm arguments)
  rw [after_between]
  exact .called arguments hfit hdepth hbody

/-- Calls make changes of the list as long as no more than the allowed number nest. -/
theorem permitted_invoke
    (room : Nat) :
    CallsRelate (fun x _ => x.Permitted room) (invoke room) (invoke room) := by
  induction room with
  | zero => exact fun _ _ _ _ m _ => .none m
  | succ room ih =>
      intro f arguments line hfit
      have hblock := ((compatible_permitted room).statements ih).2.1 f.body none
      rw [invoke_succ]
      exact (Permitted.call hblock hfit).bind fun _ _ _ _ m _ => .none m

theorem permitted_expr
    (room : Nat) (e : Expr) :
    (expr (invoke room) e).Permitted room :=
  ((compatible_permitted room).expressions (permitted_invoke room)).1 e

theorem permitted_userArguments
    (room : Nat) (function : String) (line : Nat) (ps : List Parameter) (es : List Expr) :
    (userArguments (invoke room) function line ps es).Permitted room :=
  ((compatible_permitted room).expressions (permitted_invoke room)).2.2.1 function line ps es

theorem permitted_callUser
    (room : Nat) (f : UserFunction) (arguments : List Expr) (line : Nat) :
    (callUser (invoke room) f arguments line).Permitted room := by
  have harguments := permitted_userArguments room f.name line f.parameters arguments
  exact (compatible_permitted room).callUser (permitted_invoke room) harguments

theorem permitted_statements
    (room : Nat) :
    (∀ s, (statement (invoke room) s).Permitted room) ∧
      (∀ ss last, (block (invoke room) ss last).Permitted room) ∧
      ∀ chain, (arms (invoke room) chain).Permitted room :=
  (compatible_permitted room).statements (permitted_invoke room)

end Run

namespace Machine

theorem attempt_ok_snd
    {α β : Type} (a : α) (act : α → Run β) (m : Machine) :
    (attempt (.ok a) act m).2 = (act a).after m := by
  rw [attempt, Run.after]
  cases act a m <;> rfl

/-- A source text makes only changes of the list, whether it can be read or not. -/
theorem changes_run
    (source : String) (m : Machine) :
    m.Changes (m.run source).2 := by
  change m.Changes (attempt (readProgram source) runBlock m).2
  cases readProgram source with
  | error e => exact .none m
  | ok ss =>
      rw [attempt_ok_snd]
      exact (Run.permitted_statements m.room).2.1 ss Option.none m rfl

end Machine
end ColonScript
