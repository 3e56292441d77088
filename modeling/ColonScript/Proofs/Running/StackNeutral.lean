import ColonScript.Proofs.Running.Changes
import ColonScript.Proofs.Scopes.Shape

/-!
# Runs leave the stack as they found it

A run adds a scope for every call and for every iteration and counts the calls that are active.
However it ends, all these scopes have left again and the count is what it was: the scopes keep
their number, roles and links, and the current one stays current.  Between the source texts of
a session only the global scope is therefore left, also after texts that failed.
-/

namespace ColonScript
namespace Machine

/-- Two machines have scopes of the same number, roles and links, the same current scope and the
same number of active calls. -/
structure SameStack (m m' : Machine) : Prop where
  shape : m'.scopes.shape = m.scopes.shape
  current : m'.scopes.current = m.scopes.current
  depth : m'.depth = m.depth

theorem SameStack.trans
    {m₁ m₂ m₃ : Machine} (h₁ : m₁.SameStack m₂) (h₂ : m₂.SameStack m₃) :
    m₁.SameStack m₃ :=
  ⟨h₂.shape.trans h₁.shape, h₂.current.trans h₁.current, h₂.depth.trans h₁.depth⟩

/-- The scopes stay well formed as long as the stack is kept. -/
theorem SameStack.wellFormed
    {m m' : Machine} (h : m.SameStack m') (hm : m.scopes.WellFormed) :
    m'.scopes.WellFormed :=
  hm.of_shape_eq h.shape h.current

/-- Changes keep the stack. -/
theorem Changes.sameStack
    {m m' : Machine} (h : m.Changes m') (hm : 0 < m.scopes.row.size) :
    m.SameStack m' := by
  induction h with
  | none m => exact ⟨rfl, rfl, rfl⟩
  | next _ _ ih₁ ih₂ =>
      have h₁ := ih₁ hm
      have hsize := Scopes.size_eq_of_shape_eq h₁.shape
      exact h₁.trans (ih₂ (hsize ▸ hm))
  | declared m r _ => exact ⟨Scopes.shape_modifyAt _ _ _, rfl, rfl⟩
  | defined m f => exact ⟨Scopes.shape_modifyAt _ _ _, rfl, rfl⟩
  | appended m name elements item _ =>
      exact ⟨Scopes.shape_assign _ _ _, Scopes.current_assign _ _ _, rfl⟩
  | printed m text _ => exact ⟨rfl, rfl, rfl⟩
  | @iterated m m' counter n _ ih =>
      have henter : (m.enterIteration ⟨.num, counter, .number n⟩).scopes.shape =
          (m.scopes.push .binding).shape :=
        Scopes.shape_modifyAt _ _ _
      have hsize := Scopes.size_eq_of_shape_eq henter
      have hbody := ih (by rw [hsize, Scopes.size_push]; omega)
      obtain ⟨hshape, hcurrent⟩ := Scopes.pop_of_shape_eq_push (hbody.shape.trans henter) hm
      exact ⟨hshape, hcurrent, hbody.depth⟩
  | @called m m' arguments _ _ _ ih =>
      have henter : (m.enterCall arguments).scopes.shape = (m.scopes.push .frame).shape :=
        Scopes.shape_foldl_bindHere _ _
      have hsize := Scopes.size_eq_of_shape_eq henter
      have hbody := ih (by rw [hsize, Scopes.size_push]; omega)
      obtain ⟨hshape, hcurrent⟩ := Scopes.pop_of_shape_eq_push (hbody.shape.trans henter) hm
      exact ⟨hshape, hcurrent, congrArg (· - 1) hbody.depth⟩

/-- The machine after source texts that were run one after another, each in what the one before
left, also if that failed. -/
def runAll (sources : List String) (m : Machine) : Machine :=
  sources.foldl (fun m source => (m.run source).2) m

theorem changes_runAll
    (sources : List String) (m : Machine) :
    m.Changes (m.runAll sources) := by
  induction sources generalizing m with
  | nil => exact .none m
  | cons source sources ih => exact (changes_run source m).next (ih _)

/-- Nothing is under way: the global scope is the only one and current, and no call is
active. -/
def AtRest (m : Machine) : Prop :=
  (∃ records, m.scopes = ⟨#[⟨.global, none, Scopes.top, records⟩], Scopes.top⟩) ∧ m.depth = 0

theorem AtRest.of_sameStack
    {m m' : Machine} (h : m.AtRest) (hsame : m.SameStack m') :
    m'.AtRest := by
  obtain ⟨⟨records, hscopes⟩, hdepth⟩ := h
  obtain ⟨hshape, hcurrent, hdepth'⟩ := hsame
  rw [hscopes] at hshape hcurrent
  refine ⟨?_, hdepth'.trans hdepth⟩
  obtain ⟨⟨row, current⟩, _, _, _⟩ := m'
  have hsize : row.size = 1 := Scopes.size_eq_of_shape_eq hshape
  obtain ⟨⟨role, parent, resume, records'⟩, rfl⟩ := Array.size_eq_one_iff.mp hsize
  simp only [Scopes.shape, Array.map_singleton, Array.singleton_inj, Prod.mk.injEq] at hshape
  obtain ⟨rfl, rfl, rfl⟩ := hshape
  cases hcurrent
  exact ⟨records', rfl⟩

theorem AtRest.wellFormed
    {m : Machine} (h : m.AtRest) :
    m.scopes.WellFormed := by
  obtain ⟨⟨records, hscopes⟩, -⟩ := h
  rw [hscopes]
  exact Scopes.wellFormed_layered (g := ⟨.global, Option.none, Scopes.top, records⟩) rfl rfl []

theorem provide_sameStack
    (native : NativeFunction) (m : Machine) :
    m.SameStack (m.provide native) :=
  ⟨Scopes.shape_modifyAt _ _ _, rfl, rfl⟩

/-- Providing natives happens at rest. -/
theorem atRest_provided
    (natives : List NativeFunction) {m : Machine} (h : m.AtRest) :
    (natives.foldl (fun m native => m.provide native) m).AtRest := by
  induction natives generalizing m with
  | nil => exact h
  | cons native natives ih => exact ih (h.of_sameStack (provide_sameStack native m))

theorem atRest_initial : initial.AtRest :=
  atRest_provided standardNatives ⟨⟨.empty, rfl⟩, rfl⟩

/-- Running is stack-neutral.  However a run of an expression, a statement, a block, a
conditional or a call ends, the scopes keep their number, roles and links, the current scope
stays current and the number of active calls is what it was.  Hence only the global scope is
alive after the source texts of a session, and no call is active. -/
theorem run_keeps_stack :
    (∀ m : Machine, m.scopes.WellFormed →
      (∀ e, m.SameStack ((runExpr e).after m)) ∧
      (∀ s, m.SameStack ((runStatement s).after m)) ∧
      (∀ ss, m.SameStack ((runBlock ss).after m)) ∧
      (∀ chain, m.SameStack ((Run.arms (Run.invoke m.room) chain).after m)) ∧
      ∀ f arguments line, m.SameStack ((runCall f arguments line).after m)) ∧
    ∀ (sink : Sink) (sources : List String),
      (runAll sources { initial with sink := sink }).AtRest := by
  constructor
  · intro m hm
    have hpos := hm.size_pos
    obtain ⟨hstatement, hblock, harms⟩ := Run.permitted_statements m.room
    refine ⟨fun e => ?_, fun s => ?_, fun ss => ?_, fun chain => ?_, fun f arguments line => ?_⟩
    · exact (Run.permitted_expr m.room e m rfl).sameStack hpos
    · exact (hstatement s m rfl).sameStack hpos
    · exact (hblock ss Option.none m rfl).sameStack hpos
    · exact (harms chain m rfl).sameStack hpos
    · exact (Run.permitted_callUser m.room f arguments line m rfl).sameStack hpos
  · intro sink sources
    have hstart : AtRest { initial with sink := sink } := atRest_initial
    refine hstart.of_sameStack ((changes_runAll sources _).sameStack ?_)
    obtain ⟨⟨records, hscopes⟩, _⟩ := hstart
    rw [hscopes]
    exact Nat.one_pos

/-- Inside an iteration inside a call, a function is called that fails in an iteration of a loop of
its own, after it has printed a line.  The frame of the function and the scope of its iteration have
left again, and the two scopes around the call are where they were. -/
theorem failed_call_keeps_stack :
    let one : Expr := .literal (.number (.ofBits 0x3ff0000000000000)) 1
    let f : UserFunction := ⟨"f", [], [.loop "i" one one
      [.expression (.call "shon" [.literal (.text "in") 2] 2) 2,
        .expression (.call "g" [] 3) 3] 1], 1⟩
    let records : Records := .insert (.insert .empty
      ⟨.fn, "shon", .function 0 (.native ⟨"shon", .atLeast 1, .shon⟩)⟩)
      ⟨.fn, "f", .function 1 (.user f)⟩
    let m : Machine :=
      { initial with
        scopes := .layered ⟨.global, none, Scopes.top, records⟩
          [⟨.binding, .empty⟩, ⟨.frame, .empty⟩]
        depth := 1 }
    m.scopes.WellFormed ∧
      runExpr (.call "f" [] 7) m = .error ⟨.unknownVariable "g", 3⟩ (m.emit "in") ∧
      m.SameStack ((runExpr (.call "f" [] 7)).after m) := by
  intro one f records m
  have hm : m.scopes.WellFormed := Scopes.wellFormed_layered rfl rfl _
  refine ⟨hm, ?_, (run_keeps_stack.1 m hm).1 _⟩
  with_unfolding_all rfl

end Machine
end ColonScript
