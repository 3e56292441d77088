import ColonScript.Proofs.Running.Isolation
import ColonScript.Proofs.Running.StackNeutral

/-!
# What a call may change

The body of a call runs on a frame of its own, which closes the layers.  Whatever it declares
goes to this frame or, if it is a function, to the global scope, and an append reaches the arrays
of the frame and of the global scope only.  When the frame has left, the scopes of the caller are
what they were, and global records are untouched, have become functions or are arrays that have
grown at the end.
-/

namespace ColonScript

open Scopes

/-- What may become of the record under a global name while a call runs: it stays as it is, a
function takes its place, or its array grows at the end. -/
inductive Record.Evolves (name : String) : Option Record → Option Record → Prop
  | kept (r : Option Record) : Evolves name r r
  | defined (r : Option Record) (identity : Nat) (f : Function) :
      Evolves name r (some ⟨.fn, name, .function identity f⟩)
  | appended (r : Record) (elements more : List Value) : r.value = .array elements →
      Evolves name (some r) (some { r with value := .array (elements ++ more) })

theorem Record.Evolves.trans
    {name : String} {r₁ r₂ r₃ : Option Record} (h₁ : Evolves name r₁ r₂)
    (h₂ : Evolves name r₂ r₃) :
    Evolves name r₁ r₃ := by
  cases h₂ with
  | kept => exact h₁
  | defined _ identity f => exact .defined r₁ identity f
  | appended r elements more helements =>
      -- Only a record that was an array from the start can be appended to: a function is none.
      cases h₁ with
      | kept => exact .appended r elements more helements
      | defined => cases helements
      | appended r' elements' more' helements' =>
          cases helements
          rw [List.append_assoc]
          exact .appended r' elements' (more' ++ more) helements'

namespace Records

/-- Every name has what it had, a function, or a longer array. -/
def Grow (old new : Records) : Prop :=
  ∀ name, Record.Evolves name (old.find? name) (new.find? name)

theorem Grow.refl
    (records : Records) :
    records.Grow records :=
  fun name => .kept (records.find? name)

theorem Grow.trans
    {a b c : Records} (h₁ : a.Grow b) (h₂ : b.Grow c) :
    a.Grow c :=
  fun name => (h₁ name).trans (h₂ name)

theorem grow_insert_function
    (records : Records) (name : String) (identity : Nat) (f : Function) :
    records.Grow (records.insert ⟨.fn, name, .function identity f⟩) := by
  intro key
  rw [find?_insert]
  by_cases hkey : name = key
  · subst hkey
    rw [if_pos rfl]
    exact .defined _ identity f
  · rw [if_neg hkey]
    exact .kept _

theorem grow_revalue
    {records : Records} {name : String} {r : Record} {elements : List Value}
    (hfound : records.find? name = some r) (helements : r.value = .array elements)
    (item : Value) :
    records.Grow (revalue name (.array (elements ++ [item])) records) := by
  intro key
  rw [revalue, hfound]
  simp only [find?_put]
  by_cases hkey : name = key
  · subst hkey
    rw [if_pos rfl, hfound]
    exact .appended r elements [item] helements
  · rw [if_neg hkey]
    exact .kept _

end Records

namespace Scopes

/-- Scopes that have the layers `below` under others of the given roles, on a global scope that
was `g` and has grown since. -/
def GrownFrom (g : Scope) (roles : List ScopeRole) (below : List Layer) (s : Scopes) : Prop :=
  ∃ records own, g.records.Grow records ∧ Scopes.roles own = roles ∧
    s = layered { g with records := records } (own ++ below)

variable {g : Scope} {own below : List Layer}

theorem grownFrom_layered :
    GrownFrom g (roles own) below (layered g (own ++ below)) :=
  ⟨g.records, own, .refl _, rfl, rfl⟩

theorem grownFrom_declare
    (hclosed : Closed (roles own)) (r : Record) :
    GrownFrom g (roles own) below ((layered g (own ++ below)).declare r) := by
  obtain ⟨own', hroles, hdeclare⟩ := declare_layered_closed r g hclosed
  exact ⟨g.records, own', .refl _, hroles, hdeclare below⟩

theorem grownFrom_declareTop
    (name : String) (identity : Nat) (f : Function) :
    GrownFrom g (roles own) below
      ((layered g (own ++ below)).declareTop ⟨.fn, name, .function identity f⟩) := by
  have hgrow := Records.grow_insert_function g.records name identity f
  exact ⟨_, own, hgrow, rfl, modifyAt_top_layered g _ _⟩

/-- An append in closed layers leaves what lies below them alone, and if it is made in the global
scope, the array there grows. -/
theorem grownFrom_append
    (hclosed : Closed (roles own)) {name : String} {elements : List Value}
    (hfound : ((layered g (own ++ below)).find? name).map Record.value = some (.array elements))
    (item : Value) :
    GrownFrom g (roles own) below
      ((layered g (own ++ below)).assign name (.array (elements ++ [item]))) := by
  rcases assign_layered_closed name (.array (elements ++ [item])) g hclosed with
    ⟨own', hroles, hassign⟩ | hglobal
  · exact ⟨g.records, own', .refl _, hroles, hassign below⟩
  · obtain ⟨hfind, hassign⟩ := hglobal below
    rw [hfind] at hfound
    obtain ⟨r, hr, helements⟩ := Option.map_eq_some_iff.mp hfound
    exact ⟨_, own, Records.grow_revalue hr helements item, rfl, hassign⟩

theorem GrownFrom.pop
    {role : ScopeRole} {roles : List ScopeRole} {s : Scopes}
    (h : GrownFrom g (role :: roles) below s) :
    GrownFrom g roles below s.pop := by
  obtain ⟨records, own, hgrow, hroles, rfl⟩ := h
  cases own with
  | nil => cases hroles
  | cons l own =>
      injection hroles with _ hroles
      exact ⟨records, own, hgrow, hroles, pop_layered _ l _⟩

end Scopes

namespace Machine

/-- Whatever a run does while the layers on top are closed, it leaves the layers below them as
they are and lets the global scope grow. -/
theorem Changes.grownFrom
    {m m' : Machine} (h : m.Changes m') {g : Scope} {own below : List Layer}
    (hm : m.scopes = layered g (own ++ below)) (hclosed : Closed (roles own)) :
    GrownFrom g (roles own) below m'.scopes := by
  induction h generalizing g own with
  | none m =>
      rw [hm]
      exact grownFrom_layered
  | next _ _ ih₁ ih₂ =>
      obtain ⟨records₁, own₁, hgrow₁, hroles₁, h₁⟩ := ih₁ hm hclosed
      rw [← hroles₁] at hclosed
      obtain ⟨records₂, own₂, hgrow₂, hroles₂, h₂⟩ := ih₂ h₁ hclosed
      exact ⟨records₂, own₂, hgrow₁.trans hgrow₂, hroles₂.trans hroles₁, h₂⟩
  | declared m r _ =>
      rw [mapScopes, hm]
      exact grownFrom_declare hclosed r
  | defined m f =>
      change GrownFrom g _ _ (m.scopes.declareTop _)
      rw [hm]
      exact grownFrom_declareTop f.name m.nextIdentity (.user f)
  | appended m name elements item hfound =>
      rw [valueOf?, hm] at hfound
      rw [mapScopes, hm]
      exact grownFrom_append hclosed hfound item
  | printed m text _ =>
      change GrownFrom g _ _ m.scopes
      rw [hm]
      exact grownFrom_layered
  | @iterated m m' counter n _ ih =>
      have henter : (m.enterIteration ⟨.num, counter, .number n⟩).scopes =
          layered g ((⟨.binding, .insert .empty ⟨.num, counter, .number n⟩⟩ :: own) ++ below) :=
        scopes_enterIteration hm _
      exact (ih henter (hclosed.cons .binding)).pop
  | @called m m' arguments _ _ _ ih =>
      have henter : (m.enterCall arguments).scopes =
          layered g ((⟨.frame, arguments.foldl .insert .empty⟩ :: own) ++ below) :=
        scopes_enterCall hm arguments
      exact (ih henter (closed_frame _)).pop

/-- What a call may do to the machine in which its body starts: every scope but the global one is
what it was, and every global name has the record it had, a function, or an array that has
grown at the end. -/
structure CallEffect (m m' : Machine) : Prop where
  others : ∀ place, place ≠ top → m'.scopes.row[place]? = m.scopes.row[place]?
  global : ∀ name, Record.Evolves name (m.scopes.recordAt? name top) (m'.scopes.recordAt? name top)

theorem CallEffect.refl
    (m : Machine) :
    m.CallEffect m :=
  ⟨fun _ _ => rfl, fun _ => .kept _⟩

theorem callEffect_of_grownFrom
    {m m' : Machine} {g : Scope} {below : List Layer} (hm : m.scopes = layered g below)
    (h : GrownFrom g [] below m'.scopes) :
    m.CallEffect m' := by
  obtain ⟨records, own, hgrow, hroles, hm'⟩ := h
  obtain rfl := List.map_eq_nil_iff.mp hroles
  refine ⟨fun place hplace => ?_, fun name => ?_⟩
  · have hmodify : m'.scopes = m.scopes.modifyAt top fun _ => records := by
      rw [hm', hm, modifyAt_top_layered, List.nil_append]
    rw [hmodify, modifyAt, Array.getElem?_modify, if_neg hplace.symm]
  · rw [hm', hm, recordAt?_top_layered, recordAt?_top_layered]
    exact hgrow name

end Machine

theorem Run.after_bind_pure
    {α β : Type} (x : Run α) (f : α → β) (m : Machine) :
    (x >>= fun a => pure (f a)).after m = x.after m := by
  cases hx : x m with
  | ok a m' =>
      rw [after_bind_of_ok hx, after_of_ok hx]
      rfl
  | error e m' => rw [after_bind_of_error hx, after_of_error hx]

namespace Machine

/-- The frame of a call keeps what its body does away from the scopes of the caller. -/
theorem callEffect_invoke
    {m : Machine} (hm : m.scopes.WellFormed) {room : Nat} (hroom : m.room = room)
    (f : UserFunction) (arguments : List Record) (line : Nat) :
    m.CallEffect ((Run.invoke room f arguments line).after m) := by
  cases room with
  | zero => exact .refl m
  | succ room =>
      obtain ⟨g, below, -, -, hlayers⟩ := hm.exists_layered
      have hafter : (Run.invoke (room + 1) f arguments line).after m =
          ((Run.block (Run.invoke room) f.body none).after (m.enterCall arguments)).leaveCall := by
        rw [Run.invoke_succ, Run.after_bind_pure, Run.after_between]
      have hbody := (Run.permitted_statements room).2.1 f.body none _
        (room_enterCall hroom arguments)
      have henter : (m.enterCall arguments).scopes =
          layered g ([⟨.frame, arguments.foldl .insert .empty⟩] ++ below) :=
        scopes_enterCall hlayers arguments
      rw [hafter]
      exact callEffect_of_grownFrom hlayers (hbody.grownFrom henter (closed_frame [])).pop

/-- The machine at the moment when the arguments of a call have been run, or have failed to. -/
def afterArguments (f : UserFunction) (arguments : List Expr) (line : Nat) (m : Machine) :
    Machine :=
  if arguments.length = f.parameters.length then
    (Run.userArguments (Run.invoke m.room) f.name line f.parameters arguments).after m
  else m

/-- What a call may change.  From the moment when its arguments have been run to its end, whether
it succeeds or fails, a call of a user function leaves all scopes but the global one exactly as
they are.  No global name disappears; each has the record it had, a function, or an array with
more elements at the end, and new global names have functions.  So declarations in the body other
than those of functions reach neither the caller nor the global scope. -/
theorem call_changes_only_globals
    {m : Machine} (hm : m.scopes.WellFormed) (f : UserFunction) (arguments : List Expr)
    (line : Nat) :
    (m.afterArguments f arguments line).CallEffect ((runCall f arguments line).after m) := by
  change CallEffect _ ((Run.callUser (Run.invoke m.room) f arguments line).after m)
  unfold afterArguments Run.callUser
  split
  · have hchanges := Run.permitted_userArguments m.room f.name line f.parameters arguments m rfl
    have hwell := (hchanges.sameStack hm.size_pos).wellFormed hm
    cases hrun : Run.userArguments (Run.invoke m.room) f.name line f.parameters arguments m with
    | ok records m' =>
        rw [Run.after_of_ok hrun] at hchanges hwell
        rw [Run.after_of_ok hrun, Run.after_bind_of_ok hrun]
        exact callEffect_invoke hwell hchanges.room_eq f records line
    | error e m' =>
        rw [Run.after_of_error hrun, Run.after_bind_of_error hrun]
        exact .refl m'
  · exact .refl m

/-- Inside a call, a function declares a number under the name of a local of the caller, appends
to a global array and defines another function: the caller keeps its local. -/
theorem call_keeps_local_of_caller :
    let push : Record := ⟨.fn, "push", .function 1 (.native ⟨"push", .exactly 2, .push⟩)⟩
    let g : Scope := ⟨.global, none, top, .insert (.insert .empty push) ⟨.arr, "a", .array []⟩⟩
    let caller : Layer := ⟨.frame, .insert .empty ⟨.str, "x", .text "caller"⟩⟩
    let m : Machine := { initial with scopes := layered g [caller], depth := 1 }
    let f : UserFunction :=
      ⟨"f", [⟨.num, "n"⟩], [.declare .num "x" (.name "n" 2) 2,
        .expression (.call "push" [.name "a" 3, .name "x" 3] 3) 3, .function "h" [] [] 4], 1⟩
    m.scopes.WellFormed ∧
      (m.afterArguments f [.literal (.number 5) 9] 9).CallEffect
        ((runCall f [.literal (.number 5) 9] 9).after m) := by
  intro push g caller m f
  have hm : m.scopes.WellFormed := wellFormed_layered rfl rfl [caller]
  exact ⟨hm, call_changes_only_globals hm f _ 9⟩

end Machine
end ColonScript
