import ColonScript.Proofs.Running.Reaching
import ColonScript.Proofs.Running.StackNeutral
import ColonScript.Proofs.Scopes.Walks

/-!
# Frames count the active calls

A call adds a frame and raises the number of active calls in two separate steps, and leaves both
again in two others.  Wherever something starts to be run or has been run, in a session of source
texts, the two agree and are within the limit (`Reaches.framed`).  Together with what is known of
walks over scopes this says that scopes are sound throughout
(`scopes_stay_linked_and_frames_count_calls`).
-/

namespace ColonScript

/-- The machine that something leaves when it is run and so many calls may still nest, also if it
fails. -/
def Task.after (room : Nat) (m : Machine) : Task → Machine
  | expr e => (Run.expr (Run.invoke room) e).after m
  | values es => (Run.values (Run.invoke room) es).after m
  | nativeArguments es => (Run.nativeArguments (Run.invoke room) es).after m
  | userArguments function line ps es =>
      (Run.userArguments (Run.invoke room) function line ps es).after m
  | statement s => (Run.statement (Run.invoke room) s).after m
  | arms chain => (Run.arms (Run.invoke room) chain).after m
  | iterations counter line body step count start =>
      (Run.forEach step (Run.iteration counter line (Run.block (Run.invoke room) body none)) count
        start).after m
  | block ss last => (Run.block (Run.invoke room) ss last).after m

open Run in
/-- Whatever is run makes changes of the list only. -/
theorem Task.changes
    {room : Nat} {m : Machine} (hm : m.room = room) (t : Task) :
    m.Changes (t.after room m) := by
  have hcompatible := compatible_permitted room
  obtain ⟨hexpr, hvalues, hargs, hnatives⟩ := hcompatible.expressions (permitted_invoke room)
  obtain ⟨hstatement, hblock, harms⟩ := permitted_statements room
  cases t with
  | expr e => exact hexpr e m hm
  | values es => exact hvalues es m hm
  | nativeArguments es => exact hnatives es m hm
  | userArguments function line ps es => exact hargs function line ps es m hm
  | statement s => exact hstatement s m hm
  | arms chain => exact harms chain m hm
  | iterations counter line body step count start =>
      have hiteration := hcompatible.iteration (y := Run.block (invoke room) body none)
        (hblock body none) counter line
      exact hcompatible.forEach (g := iteration counter line (Run.block (invoke room) body none))
        hiteration step count start m hm
  | block ss last => exact hblock ss last m hm

namespace Machine

/-- The scopes are well formed, there is one frame for each active call, and no more calls are
active than may be. -/
structure Framed (m : Machine) : Prop where
  wellFormed : m.scopes.WellFormed
  frames_eq : m.scopes.frames = m.depth
  depth_le : m.depth ≤ callLimit

variable {m m' : Machine}

theorem Framed.of_sameStack
    (h : m.Framed) (hsame : m.SameStack m') :
    m'.Framed := by
  refine ⟨hsame.wellFormed h.wellFormed, ?_, ?_⟩
  · rw [Scopes.frames_eq_of_shape_eq hsame.shape, hsame.depth, h.frames_eq]
  · rw [hsame.depth]
    exact h.depth_le

theorem Framed.changes
    (h : m.Framed) (hchanges : m.Changes m') :
    m'.Framed :=
  h.of_sameStack (hchanges.sameStack h.wellFormed.size_pos)

/-- A new iteration adds a scope that is no frame. -/
theorem Framed.enterIteration
    (h : m.Framed) (counter : Record) :
    (m.enterIteration counter).Framed := by
  have hshape : (m.enterIteration counter).scopes.shape = (m.scopes.push .binding).shape :=
    Scopes.shape_modifyAt _ _ _
  refine ⟨(h.wellFormed.add ⟨.binding, .empty⟩).of_shape_eq hshape rfl, ?_, h.depth_le⟩
  rw [Scopes.frames_eq_of_shape_eq hshape, Scopes.frames_push]
  exact h.frames_eq

/-- A new call adds a frame and counts itself. -/
theorem Framed.enterCall
    (h : m.Framed) (hdepth : m.depth < callLimit) (arguments : List Record) :
    (m.enterCall arguments).Framed := by
  have hshape : (m.enterCall arguments).scopes.shape = (m.scopes.push .frame).shape :=
    Scopes.shape_foldl_bindHere _ _
  have hcurrent : (m.enterCall arguments).scopes.current = (m.scopes.push .frame).current :=
    Scopes.current_foldl_bindHere _ _
  refine ⟨(h.wellFormed.add ⟨.frame, .empty⟩).of_shape_eq hshape hcurrent, ?_, hdepth⟩
  rw [Scopes.frames_eq_of_shape_eq hshape, Scopes.frames_push, h.frames_eq]
  rfl

theorem Framed.starts
    {room : Nat} {t t' : Task} (h : m.Framed) (hm : m.room = room)
    (hstarts : Starts room t m t' m') :
    m'.Framed := by
  obtain hchanges | ⟨counter, n, rfl⟩ := hstarts.changes hm
  · exact h.changes hchanges
  · exact h.enterIteration _

/-- Frames count the active calls wherever something is run that was reached from where they do. -/
theorem Reaches.framed
    {room room' : Nat} {t t' : Task} (h : Reaches room t m room' t' m') (hm : m.room = room)
    (hframed : m.Framed) :
    m'.room = room' ∧ m'.Framed := by
  induction h with
  | here => exact ⟨hm, hframed⟩
  | @inside _ _ _ _ _ m m₁ _ hstarts _ ih =>
      have hroom : m₁.room = m.room := by
        rw [Machine.room, Machine.room, hstarts.depth_eq hm]
      exact ih (hroom.trans hm) (hframed.starts hm hstarts)
  | @called room _ _ arguments line f records _ _ m₁ _ haccepts _ ih =>
      have hpermitted :=
        Run.permitted_userArguments (room + 1) f.name line f.parameters arguments
      have hm₁ := hpermitted.room_of_ok hm haccepts.taken
      have hframed₁ := hframed.changes (hpermitted.changes_of_ok hm haccepts.taken)
      have hcall := hframed₁.enterCall (depth_lt_of_room_eq_succ hm₁) records
      exact ih (room_enterCall hm₁ records) hcall

theorem AtRest.framed
    (h : m.AtRest) :
    m.Framed := by
  have hscopes := h.wellFormed
  obtain ⟨⟨records, hglobal⟩, hdepth⟩ := h
  refine ⟨hscopes, ?_, ?_⟩
  · rw [hglobal, hdepth]
    rfl
  · rw [hdepth]
    exact Nat.zero_le _

/-- Scopes stay linked, and frames count calls.  After every sequence of operations the row of
scopes starts with a global scope without parent, the current scope is its last, and each other
scope resumes the one before it and has this or the global scope as its parent.  So every walk over
parents passes places of the row only and comes to an end: the walk to the scope that has a name,
which ends where the name is located, and the walk to the scope for a declaration.  The current and
the global scope, into which records are written without a walk, are in the row too.

And in a session of source texts, whenever something starts to be run, at whatever depth, and
whenever it has been run, also if it failed, there are as many frames as active calls, and no more
than may be. -/
theorem scopes_stay_linked_and_frames_count_calls :
    (∀ ops : List Scopes.Operation,
      let s := Scopes.initial.afterAll ops
      s.WellFormed ∧
        (∀ name, Scopes.Walk s.row (fun scope => (scope.records.find? name).isSome) s.current
          (s.locate? name)) ∧
        Scopes.Walk s.row (fun scope => scope.role ≠ .binding) s.current
          (some s.declarationPlace) ∧
        s.current < s.row.size ∧ Scopes.top < s.row.size) ∧
    ∀ (sink : Sink) (sources : List String) (t t' : Task) (room : Nat) (n : Machine),
      let m := runAll sources { initial with sink := sink }
      Reaches m.room t m room t' n → n.Framed ∧ (t'.after room n).Framed := by
  refine ⟨fun ops => ?_, fun sink sources t t' room n hreaches => ?_⟩
  · have hs := Scopes.wellFormed_initial.afterAll ops
    exact ⟨hs, hs.walk_locate?, hs.walk_declarationPlace, hs.current_lt, hs.size_pos⟩
  · have hstart : Framed { initial with sink := sink } := AtRest.framed atRest_initial
    have hsession := hstart.changes (changes_runAll sources _)
    obtain ⟨hroom, hframed⟩ := hreaches.framed rfl hsession
    exact ⟨hframed, hframed.changes (t'.changes hroom)⟩

/-- In the body of a function that is called from the body of another one, two calls are active and
two of the scopes are frames. -/
theorem two_frames_in_inner_call :
    let f : UserFunction := ⟨"f", [], [.returns (.literal (.boolean true) 1) 1], 1⟩
    let g : UserFunction := ⟨"g", [], [.returns (.call "f" [] 2) 2], 2⟩
    let ss : List Statement :=
      [.function "f" [] f.body 1, .function "g" [] g.body 2, .expression (.call "g" [] 3) 3]
    let n := (((initial.define f).define g).enterCall []).enterCall []
    Reaches initial.room (.block ss none) initial 4998 (.block f.body none) n ∧
      n.scopes.frames = 2 ∧ n.depth = 2 ∧ n.Framed := by
  intro f g ss n
  let defined := (initial.define f).define g
  have hg : Accepts 5000 "g" [] 3 defined g [] defined :=
    ⟨⟨4, by with_unfolding_all rfl⟩, rfl, rfl⟩
  have hf : Accepts 4999 "f" [] 2 (defined.enterCall []) f [] (defined.enterCall []) :=
    ⟨⟨3, by with_unfolding_all rfl⟩, rfl, rfl⟩
  have hreaches : Reaches initial.room (.block ss none) initial 4998 (.block f.body none) n := by
    refine .inside (.otherStatements rfl) (.inside (.otherStatements rfl) ?_)
    refine .inside .firstStatement (.inside .expression (.called hg ?_))
    exact .inside .firstStatement (.inside .returned (.called hf .here))
  have hframed := (scopes_stay_linked_and_frames_count_calls.2 initial.sink [] _ _ _ n hreaches).1
  have hdepth : n.depth = 2 := rfl
  exact ⟨hreaches, hframed.frames_eq.trans hdepth, hdepth, hframed⟩

end Machine
end ColonScript
