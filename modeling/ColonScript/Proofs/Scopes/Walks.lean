import ColonScript.Proofs.Scopes.Shape
import ColonScript.Proofs.Scopes.Stack

/-!
# Walks over the parents of scopes

To find a name, or the place for a declaration, one goes from a scope to its parent and on from
there.  The functions on scopes check each step of this way: that there is a scope, and that its
parent lies below it.  `Walk` is the same way without checks, as steps that are not possible at all
from a place without a scope and of which there may be any number.  In well-formed scopes the checks
never fail: every walk comes to an end, and it ends where the functions do
(`WellFormed.walk_locate?`, `WellFormed.walk_declarationPlace`).  Scopes are well formed after every
sequence of operations (`WellFormed.afterAll`).
-/

namespace ColonScript
namespace Scopes

/-- Going from a place to the parent of its scope, and so on, up to a scope that is wanted or to one
without parent.  The walk ends at the place of the wanted scope, if it comes to one. -/
inductive Walk (row : Array Scope) (wanted : Scope → Bool) : Nat → Option Nat → Prop
  | arrived {place : Nat} {scope : Scope} :
      row[place]? = some scope → wanted scope = true → Walk row wanted place (some place)
  | ended {place : Nat} {scope : Scope} :
      row[place]? = some scope → wanted scope = false → scope.parent = none →
      Walk row wanted place none
  | onward {place parent : Nat} {scope : Scope} {goal : Option Nat} :
      row[place]? = some scope → wanted scope = false → scope.parent = some parent →
      Walk row wanted parent goal → Walk row wanted place goal

variable {s : Scopes}

/-- In well-formed scopes a parent lies below its child. -/
theorem WellFormed.parent_lt
    (h : s.WellFormed) {place parent : Nat} {scope : Scope} (hscope : s.row[place]? = some scope)
    (hparent : scope.parent = some parent) :
    parent < place := by
  cases place with
  | zero =>
      obtain ⟨g, hg, -, hnone⟩ := h.global
      obtain rfl : g = scope := Option.some.inj (hg.symm.trans hscope)
      rw [hnone] at hparent
      cases hparent
  | succ place =>
      obtain ⟨-, hlinked⟩ := h.linked place scope hscope
      rw [hparent, Option.some.injEq] at hlinked
      subst hlinked
      split
      · exact Nat.lt_succ_self place
      · exact Nat.succ_pos place

/-- In well-formed scopes no check stands in the way to a parent. -/
theorem WellFormed.chainFrom_eq
    (h : s.WellFormed) {place : Nat} {scope : Scope} (hscope : s.row[place]? = some scope) :
    chainFrom s.row place = place :: scope.parent.elim [] (chainFrom s.row) := by
  rw [chainFrom, hscope]
  dsimp only
  cases hparent : scope.parent with
  | none => rfl
  | some parent => exact if_pos (h.parent_lt hscope hparent)

/-- Every walk through well-formed scopes comes to an end, at the first place on the way that holds
a wanted scope. -/
theorem WellFormed.walk
    (h : s.WellFormed) (wanted : Scope → Bool) {place : Nat} (hplace : place < s.row.size) :
    Walk s.row wanted place
      ((chainFrom s.row place).find? fun other => s.row[other]?.any wanted) := by
  -- Parents lie below, so the places that are passed go down.
  induction place using Nat.strongRecOn with
  | ind place ih =>
      have hscope : s.row[place]? = some s.row[place] := Array.getElem?_eq_getElem hplace
      rw [h.chainFrom_eq hscope]
      cases hwanted : wanted s.row[place] with
      | true =>
          rw [List.find?_cons_of_pos (by rw [hscope]; exact hwanted)]
          exact .arrived hscope hwanted
      | false =>
          rw [List.find?_cons_of_neg (by rw [hscope]; simp [hwanted])]
          cases hparent : s.row[place].parent with
          | none => exact .ended hscope hwanted hparent
          | some parent =>
              have hlt := h.parent_lt hscope hparent
              exact .onward hscope hwanted hparent (ih parent hlt (Nat.lt_trans hlt hplace))

theorem WellFormed.current_lt
    (h : s.WellFormed) :
    s.current < s.row.size := by
  rw [← h.current_last]
  exact Nat.lt_succ_self _

/-- A walk to the nearest scope that has a name ends where the name is located. -/
theorem WellFormed.walk_locate?
    (h : s.WellFormed) (name : String) :
    Walk s.row (fun scope => (scope.records.find? name).isSome) s.current (s.locate? name) := by
  have hwalk := h.walk (fun scope => (scope.records.find? name).isSome) h.current_lt
  have hhas (place : Nat) : (s.recordAt? name place).isSome =
      s.row[place]?.any fun scope => (scope.records.find? name).isSome := by
    rw [recordAt?]
    cases s.row[place]? <;> rfl
  simp only [locate?, chain, hhas]
  exact hwalk

/-- A walk that would have the global scope does not end without a scope. -/
theorem WellFormed.exists_of_walk
    (h : s.WellFormed) {wanted : Scope → Bool}
    (hwanted : ∀ scope, scope.role = .global → wanted scope = true) {place : Nat}
    {goal : Option Nat} (hwalk : Walk s.row wanted place goal) :
    ∃ other, goal = some other := by
  induction hwalk with
  | @arrived place _ _ _ => exact ⟨place, rfl⟩
  | onward _ _ _ _ ih => exact ih
  | @ended place scope hscope hpassed hparent =>
      cases place with
      | zero =>
          obtain ⟨g, hg, hrole, -⟩ := h.global
          obtain rfl : g = scope := Option.some.inj (hg.symm.trans hscope)
          rw [hwanted g hrole] at hpassed
          cases hpassed
      | succ place =>
          obtain ⟨-, hlinked⟩ := h.linked place scope hscope
          rw [hparent] at hlinked
          cases hlinked

/-- A walk to the nearest scope that is no binding scope ends where declarations go to. -/
theorem WellFormed.walk_declarationPlace
    (h : s.WellFormed) :
    Walk s.row (fun scope => scope.role ≠ .binding) s.current (some s.declarationPlace) := by
  have hwalk := h.walk (fun scope => scope.role ≠ .binding) h.current_lt
  have hplaces : (s.chain.find? fun place => !s.isBinding place) =
      s.chain.find? fun place => s.row[place]?.any fun scope => scope.role ≠ .binding := by
    refine List.find?_congr fun place hplace => ?_
    rw [isBinding, Array.getElem?_eq_getElem (lt_size_of_mem_chain hplace)]
    simp
  rw [← chain, ← hplaces] at hwalk
  obtain ⟨place, hgoal⟩ := h.exists_of_walk (by simp +contextual) hwalk
  rw [hgoal] at hwalk
  rw [declarationPlace, hgoal]
  exact hwalk

/-! ## Sequences of operations -/

theorem wellFormed_initial : initial.WellFormed :=
  wellFormed_layered (g := ⟨.global, none, top, .empty⟩) rfl rfl []

/-- Removing a scope from well-formed scopes leaves well-formed ones, also if there is none to
remove. -/
theorem WellFormed.pop
    (h : s.WellFormed) :
    s.pop.WellFormed := by
  obtain ⟨g, layers, hrole, hparent, rfl⟩ := h.exists_layered
  cases layers with
  | nil => exact h
  | cons l layers =>
      rw [pop_layered]
      exact wellFormed_layered hrole hparent layers

/-- One operation keeps scopes well formed. -/
theorem WellFormed.operation
    (h : s.WellFormed) (op : Operation) :
    (op.onScopes s).2.WellFormed := by
  cases op with
  | push role => exact h.add ⟨role, .empty⟩
  | pop => exact h.pop
  | declare r | declareGlobal r | bind r => exact h.of_shape_eq (shape_modifyAt s _ _) rfl
  | lookup name => exact h
  | set name value => exact h.of_shape_eq (shape_assign s name value) (current_assign s name value)

/-- The scopes after a sequence of operations. -/
def afterAll (ops : List Operation) (s : Scopes) : Scopes :=
  ops.foldl (fun s op => (op.onScopes s).2) s

theorem WellFormed.afterAll
    (h : s.WellFormed) (ops : List Operation) :
    (s.afterAll ops).WellFormed := by
  induction ops generalizing s with
  | nil => exact h
  | cons op ops ih => exact ih (h.operation op)

end Scopes
end ColonScript
