import ColonScript.Proofs.Scopes.Layers

/-!
# The shape of scopes

The roles and links of scopes are decided when scopes are added and removed.  Whatever is written
into them leaves their shape as it is, so facts about roles and links, such as being well formed,
carry over from any scopes to scopes of the same shape.
-/

namespace ColonScript
namespace Scopes

theorem size_eq_of_shape_eq
    {s s' : Scopes} (h : s'.shape = s.shape) :
    s'.row.size = s.row.size := by
  simpa [shape] using congrArg Array.size h

/-- Scopes of the same shape have scopes of the same roles and links in the same places. -/
theorem exists_scope_of_shape_eq
    {s s' : Scopes} (h : s'.shape = s.shape) {place : Nat} {scope : Scope}
    (hscope : s.row[place]? = some scope) :
    ∃ scope', s'.row[place]? = some scope' ∧ scope'.role = scope.role ∧
      scope'.parent = scope.parent ∧ scope'.resume = scope.resume := by
  have hplace := congrArg (fun shape => shape[place]?) h
  simp only [shape, Array.getElem?_map, hscope, Option.map_some, Option.map_eq_some_iff,
    Prod.mk.injEq] at hplace
  exact hplace

/-- Whether scopes are well formed is decided by their shape and the current one. -/
theorem WellFormed.of_shape_eq
    {s s' : Scopes} (hs : s.WellFormed) (hshape : s'.shape = s.shape)
    (hcurrent : s'.current = s.current) :
    s'.WellFormed := by
  refine ⟨?_, ?_, ?_⟩
  · obtain ⟨g, hg, hrole, hparent⟩ := hs.global
    obtain ⟨g', hg', hrole', hparent', -⟩ := exists_scope_of_shape_eq hshape hg
    exact ⟨g', hg', hrole'.trans hrole, hparent'.trans hparent⟩
  · rw [hcurrent, size_eq_of_shape_eq hshape]
    exact hs.current_last
  · intro place scope' hscope'
    obtain ⟨scope, hscope, hrole, hparent, hresume⟩ :=
      exists_scope_of_shape_eq hshape.symm hscope'
    obtain ⟨hlink, hup⟩ := hs.linked place scope hscope
    rw [← hresume, ← hparent, ← hrole]
    exact ⟨hlink, hup⟩

theorem shape_foldl_bindHere
    (s : Scopes) (records : List Record) :
    (records.foldl bindHere s).shape = s.shape := by
  induction records generalizing s with
  | nil => rfl
  | cons r records ih =>
      rw [List.foldl_cons, ih, bindHere, shape_modifyAt]

theorem current_foldl_bindHere
    (s : Scopes) (records : List Record) :
    (records.foldl bindHere s).current = s.current := by
  induction records generalizing s with
  | nil => rfl
  | cons r records ih =>
      rw [List.foldl_cons, ih, bindHere, current_modifyAt]

theorem shape_assign
    (s : Scopes) (name : String) (value : Value) :
    (s.assign name value).shape = s.shape := by
  unfold assign
  split
  · exact shape_modifyAt s _ _
  · rfl

theorem current_assign
    (s : Scopes) (name : String) (value : Value) :
    (s.assign name value).current = s.current := by
  unfold assign
  split <;> rfl

/-- A scope that was added is the one that leaves, and the scope it was added on is resumed,
whatever was written in between. -/
theorem pop_of_shape_eq_push
    {s s' : Scopes} {role : ScopeRole} (h : s'.shape = (s.push role).shape)
    (hs : 0 < s.row.size) :
    s'.pop.shape = s.shape ∧ s'.pop.current = s.current := by
  have hsize : s'.row.size = s.row.size + 1 := by
    rw [size_eq_of_shape_eq h, size_push]
  obtain ⟨row, current⟩ := s'
  obtain ⟨below, scope, rfl⟩ := Array.exists_push_of_size_eq_add_one hsize
  have hmany : ¬ (below.push scope).size ≤ 1 := by
    rw [hsize]
    omega
  -- The last entry of the two shapes says what is resumed, the others what stays.
  simp only [shape, push, Array.map_push, Array.push_eq_push, Prod.mk.injEq] at h
  obtain ⟨⟨_, _, hresume⟩, hbelow⟩ := h
  simp only [pop, hmany, if_false, Array.back?_push, Array.pop_push]
  exact ⟨hbelow, hresume⟩

/-! ## Frames -/

/-- The number of frames among the scopes. -/
def frames (s : Scopes) : Nat :=
  s.row.countP fun scope => scope.role = .frame

theorem frames_eq_of_shape_eq
    {s s' : Scopes} (h : s'.shape = s.shape) :
    s'.frames = s.frames := by
  have hshape (t : Scopes) : t.frames = t.shape.countP fun entry => entry.1 = .frame := by
    simp [frames, shape, Array.countP_map, Function.comp_def]
  rw [hshape, hshape, h]

theorem frames_push
    (s : Scopes) (role : ScopeRole) :
    (s.push role).frames = s.frames + if role = .frame then 1 else 0 := by
  simp [frames, push, Array.countP_push]

end Scopes
end ColonScript
