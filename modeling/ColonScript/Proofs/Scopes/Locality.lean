import ColonScript.Proofs.Scopes.Layers

/-!
# What lies below a frame does not matter

Names are looked for in the layers down to the first that is no binding scope, and then in the
global scope.  Layers are closed if there is such a one among them.  Looking up, assigning and
declaring then take place in these layers and the global scope, and are the same whatever lies
below.
-/

namespace ColonScript
namespace Scopes

/-- Names are not looked for below these roles, except in the global scope: one of them is not
that of a binding scope. -/
def Closed (roles : List ScopeRole) : Prop :=
  ∃ role ∈ roles, role ≠ .binding

theorem Closed.cons
    {roles : List ScopeRole} (h : Closed roles) (role : ScopeRole) :
    Closed (role :: roles) := by
  obtain ⟨other, hmem, hother⟩ := h
  exact ⟨other, List.mem_cons_of_mem role hmem, hother⟩

theorem closed_frame
    (roles : List ScopeRole) :
    Closed (.frame :: roles) :=
  ⟨.frame, List.mem_cons_self, by decide⟩

/-- The roles of layers. -/
def roles (layers : List Layer) : List ScopeRole :=
  layers.map Layer.role

/-- Closed layers are binding scopes down to a layer that is none. -/
@[elab_as_elim]
theorem closed_induction
    {motive : List Layer → Prop} {own : List Layer} (h : Closed (roles own))
    (stop : ∀ l own, l.role ≠ .binding → motive (l :: own))
    (pass : ∀ l own, l.role = .binding → motive own → motive (l :: own)) :
    motive own := by
  obtain ⟨role, hmem, hrole⟩ := h
  induction own with
  | nil => cases hmem
  | cons l own ih =>
      by_cases hl : l.role = .binding
      · rcases List.mem_cons.mp hmem with rfl | hmem
        · exact absurd hl hrole
        · exact pass l own hl (ih hmem)
      · exact stop l own hl

theorem modifyAt_top_layered
    (g : Scope) (layers : List Layer) (f : Records → Records) :
    (layered g layers).modifyAt top f = layered { g with records := f g.records } layers := by
  induction layers with
  | nil => rfl
  | cons l layers ih =>
      have htop : top < (layered g layers).row.size :=
        Nat.zero_lt_of_lt (current_lt_layered g layers)
      rw [layered_cons, modifyAt_add_of_lt htop, ih, layered_cons]

theorem recordAt?_top_layered
    (g : Scope) (layers : List Layer) (name : String) :
    (layered g layers).recordAt? name top = g.records.find? name := by
  rw [recordAt?, row_top_layered]
  rfl

/-- A name means the same in closed layers whatever lies below. -/
theorem find?_layered_append
    (g : Scope) {own : List Layer} (hown : Closed (roles own)) (name : String)
    (below₁ below₂ : List Layer) :
    (layered g (own ++ below₁)).find? name = (layered g (own ++ below₂)).find? name := by
  refine closed_induction hown (fun l own hl => ?_) fun l own hl ih => ?_
  · simp only [List.cons_append, layered_cons, find?_add (current_lt_layered _ _), if_neg hl,
      recordAt?_top_layered]
  · simp only [List.cons_append, layered_cons, find?_add (current_lt_layered _ _), if_pos hl, ih]

/-- An operation that changes closed layers and the global scope in the same way whatever lies
below, and does not touch that. -/
def Local (op : Scopes → Scopes) : Prop :=
  ∀ g own, Closed (roles own) → ∃ g' own', roles own' = roles own ∧
    ∀ below, op (layered g (own ++ below)) = layered g' (own' ++ below)

theorem local_declareTop
    (r : Record) :
    Local fun s => s.declareTop r := by
  intro g own _
  exact ⟨_, own, rfl, fun below => modifyAt_top_layered g _ _⟩

/-- A declaration in closed layers is made in one of them. -/
theorem declare_layered_closed
    (r : Record) (g : Scope) {own : List Layer} (hown : Closed (roles own)) :
    ∃ own', roles own' = roles own ∧
      ∀ below, (layered g (own ++ below)).declare r = layered g (own' ++ below) := by
  refine closed_induction hown (fun l own hl => ?_) fun l own hl ih => ?_
  · refine ⟨{ l with records := l.records.insert r } :: own, rfl, fun below => ?_⟩
    change ((layered g (own ++ below)).add l).declare r = _
    rw [declare_add (current_lt_layered _ _), if_neg hl]
    rfl
  · obtain ⟨own', hroles, hdeclare⟩ := ih
    refine ⟨l :: own', congrArg (l.role :: ·) hroles, fun below => ?_⟩
    change ((layered g (own ++ below)).add l).declare r = _
    rw [declare_add (current_lt_layered _ _), if_pos hl]
    exact congrArg (add · l) (hdeclare below)

theorem local_declare
    (r : Record) :
    Local fun s => s.declare r := by
  intro g own hown
  obtain ⟨own', hroles, hdeclare⟩ := declare_layered_closed r g hown
  exact ⟨g, own', hroles, hdeclare⟩

theorem assign_layered_of_isSome
    {l : Layer} {name : String} (hfound : (l.records.find? name).isSome) (value : Value)
    (g : Scope) (layers : List Layer) :
    (layered g (l :: layers)).assign name value =
      layered g ({ l with records := revalue name value l.records } :: layers) := by
  rw [layered_cons, assign_add (current_lt_layered _ _), if_pos hfound]
  rfl

theorem assign_layered_of_not_binding
    {l : Layer} {name : String} (hfound : ¬ (l.records.find? name).isSome)
    (hl : l.role ≠ .binding) (value : Value) (g : Scope) (layers : List Layer) :
    (layered g (l :: layers)).assign name value =
      layered { g with records := revalue name value g.records } (l :: layers) := by
  rw [layered_cons, assign_add (current_lt_layered _ _), if_neg hfound, if_neg hl,
    recordAt?_top_layered, modifyAt_top_layered]
  cases hglobal : g.records.find? name with
  | none => simp [revalue, hglobal]
  | some r => rfl

/-- An assignment in closed layers is made in one of them, or else in the global scope, which then
has the record that the name means. -/
theorem assign_layered_closed
    (name : String) (value : Value) (g : Scope) {own : List Layer} (hown : Closed (roles own)) :
    (∃ own', roles own' = roles own ∧
      ∀ below, (layered g (own ++ below)).assign name value = layered g (own' ++ below)) ∨
    ∀ below, (layered g (own ++ below)).find? name = g.records.find? name ∧
      (layered g (own ++ below)).assign name value =
        layered { g with records := revalue name value g.records } (own ++ below) := by
  have hhere (l : Layer) (own : List Layer) (hfound : (l.records.find? name).isSome) :
      ∃ own', roles own' = roles (l :: own) ∧
        ∀ below, (layered g (l :: own ++ below)).assign name value =
          layered g (own' ++ below) :=
    ⟨{ l with records := revalue name value l.records } :: own, rfl,
      fun below => assign_layered_of_isSome hfound value g _⟩
  refine closed_induction hown (fun l own hl => ?_) fun l own hl ih => ?_
  · by_cases hfound : (l.records.find? name).isSome
    · exact .inl (hhere l own hfound)
    · refine .inr fun below => ⟨?_, assign_layered_of_not_binding hfound hl value g _⟩
      rw [List.cons_append, layered_cons, find?_add (current_lt_layered _ _), if_neg hl,
        Option.not_isSome_iff_eq_none.mp hfound, recordAt?_top_layered]
      rfl
  · by_cases hfound : (l.records.find? name).isSome
    · exact .inl (hhere l own hfound)
    · have hassign (below : List Layer) : (layered g (l :: own ++ below)).assign name value =
          ((layered g (own ++ below)).assign name value).add l := by
        rw [List.cons_append, layered_cons, assign_add (current_lt_layered _ _), if_neg hfound,
          if_pos hl]
      rcases ih with ⟨own', hroles, hown'⟩ | hglobal
      · refine .inl ⟨l :: own', congrArg (l.role :: ·) hroles, fun below => ?_⟩
        rw [hassign, hown']
        rfl
      · refine .inr fun below => ⟨?_, ?_⟩
        · rw [List.cons_append, layered_cons, find?_add (current_lt_layered _ _), if_pos hl,
            Option.not_isSome_iff_eq_none.mp hfound, (hglobal below).1]
          rfl
        · rw [hassign, (hglobal below).2]
          rfl

theorem local_assign
    (name : String) (value : Value) :
    Local fun s => s.assign name value := by
  intro g own hown
  rcases assign_layered_closed name value g hown with ⟨own', hroles, hassign⟩ | hglobal
  · exact ⟨g, own', hroles, hassign⟩
  · exact ⟨_, own, rfl, fun below => (hglobal below).2⟩

/-- Binding a record writes it into the newest layer. -/
theorem bindHere_layered
    (g : Scope) (l : Layer) (layers : List Layer) (r : Record) :
    (layered g (l :: layers)).bindHere r =
      layered g ({ l with records := l.records.insert r } :: layers) :=
  modifyAt_add_size _ _ _

theorem foldl_bindHere_layered
    (g : Scope) (l : Layer) (layers : List Layer) (records : List Record) :
    records.foldl bindHere (layered g (l :: layers)) =
      layered g ({ l with records := records.foldl Records.insert l.records } :: layers) := by
  induction records generalizing l with
  | nil => rfl
  | cons r records ih =>
      rw [List.foldl_cons, bindHere_layered, ih]
      rfl

theorem pop_layered
    (g : Scope) (l : Layer) (layers : List Layer) :
    (layered g (l :: layers)).pop = layered g layers :=
  pop_add (Nat.zero_lt_of_lt (current_lt_layered g layers)) l

end Scopes
end ColonScript
