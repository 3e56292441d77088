import ColonScript.Proofs.Running.WellTyped
import Mathlib.Data.List.Basic

/-!
# Declarations are read back

A declaration and a look-up find their places by different rules.  A variable is written past all
binding scopes, a function into the global scope, and a name is looked for in the binding scopes
first, then in the frame and in the global scope last.  What was just declared is therefore found
unless a place before it has the name: a variable is read back unless a loop around counts under
its name, a function unless the frame or such a loop has it.
-/

namespace ColonScript
namespace Scopes

variable {s s' : Scopes} {name : String}

/-! ## The places in which a name is looked for -/

/-- Roles and links decide where names are looked for. -/
theorem chainFrom_eq_of_shape_eq
    (h : s'.shape = s.shape) (place : Nat) :
    chainFrom s'.row place = chainFrom s.row place := by
  induction place using Nat.strongRecOn with
  | ind place ih =>
      cases hscope : s.row[place]? with
      | none =>
          have hscope' : s'.row[place]? = none := by
            rw [Array.getElem?_eq_none_iff] at hscope ⊢
            rw [size_eq_of_shape_eq h]
            exact hscope
          rw [chainFrom, chainFrom, hscope, hscope']
      | some scope =>
          obtain ⟨scope', hscope', -, hparent, -⟩ := exists_scope_of_shape_eq h hscope
          rw [chainFrom, chainFrom, hscope, hscope']
          dsimp only
          rw [hparent]
          cases scope.parent with
          | none => rfl
          | some parent =>
              by_cases hlt : parent < place
              · simp only [if_pos hlt, ih parent hlt]
              · simp only [if_neg hlt]

theorem chain_eq_of_shape_eq
    (h : s'.shape = s.shape) (hcurrent : s'.current = s.current) :
    s'.chain = s.chain := by
  rw [chain, chain, hcurrent, chainFrom_eq_of_shape_eq h]

theorem chain_modifyAt
    (s : Scopes) (place : Nat) (f : Records → Records) :
    (s.modifyAt place f).chain = s.chain :=
  chain_eq_of_shape_eq (shape_modifyAt s place f) rfl

/-- A name means the first record that is found under it. -/
theorem find?_eq_findSome?
    (s : Scopes) (name : String) :
    s.find? name = s.chain.findSome? (s.recordAt? name) := by
  rw [find?, locate?]
  induction s.chain with
  | nil => rfl
  | cons place places ih =>
      rw [List.find?_cons, List.findSome?_cons]
      cases hrecord : s.recordAt? name place with
      | none => exact ih
      | some r => exact hrecord

/-- The global scope is the last in which a name is looked for. -/
theorem exists_chain_layered
    (g : Scope) (layers : List Layer) :
    ∃ inner, (layered g layers).chain = inner ++ [top] ∧ top ∉ inner := by
  induction layers with
  | nil => exact ⟨[], chainFrom_top Nat.one_pos, List.not_mem_nil⟩
  | cons l layers ih =>
      have hne : top ≠ (layered g layers).row.size :=
        Nat.ne_of_lt (Nat.zero_lt_of_lt (current_lt_layered g layers))
      rw [layered_cons, chain_add (current_lt_layered g layers)]
      by_cases hrole : l.role = .binding
      · obtain ⟨inner, hchain, htop⟩ := ih
        rw [if_pos hrole, hchain]
        exact ⟨_ :: inner, rfl, List.not_mem_cons_of_ne_of_not_mem hne htop⟩
      · rw [if_neg hrole]
        exact ⟨[_], rfl, List.not_mem_cons_of_ne_of_not_mem hne List.not_mem_nil⟩

theorem WellFormed.exists_chain_eq
    (hs : s.WellFormed) :
    ∃ inner, s.chain = inner ++ [top] ∧ top ∉ inner := by
  obtain ⟨g, layers, -, -, rfl⟩ := hs.exists_layered
  exact exists_chain_layered g layers

theorem WellFormed.isBinding_top
    (hs : s.WellFormed) :
    s.isBinding top = false := by
  obtain ⟨g, hg, hrole, -⟩ := hs.global
  simp [isBinding, hg, hrole]

/-- A change of one scope is seen in the place of that scope only. -/
theorem recordAt?_modifyAt_of_ne
    {place other : Nat} (h : place ≠ other) (f : Records → Records) :
    (s.modifyAt place f).recordAt? name other = s.recordAt? name other := by
  rw [recordAt?, modifyAt, Array.getElem?_modify, if_neg h, recordAt?]

theorem recordAt?_modifyAt_self
    (s : Scopes) (name : String) (place : Nat) (f : Records → Records) :
    (s.modifyAt place f).recordAt? name place =
      s.row[place]?.bind fun scope => (f scope.records).find? name := by
  rw [recordAt?, modifyAt, Array.getElem?_modify, if_pos rfl]
  cases s.row[place]? <;> rfl

/-- What is inserted in a scope that is there is found in this scope. -/
theorem recordAt?_insert_self
    {place : Nat} (h : place < s.row.size) (r : Record) :
    (s.modifyAt place (·.insert r)).recordAt? r.name place = some r := by
  rw [recordAt?_modifyAt_self, Array.getElem?_eq_getElem h]
  simp

/-! ## What is found after a declaration -/

/-- A place holds a binding scope that has a record under a name. -/
def BindsAt (s : Scopes) (name : String) (place : Nat) : Prop :=
  ∃ scope, s.row[place]? = some scope ∧ scope.role = .binding ∧ (scope.records.find? name).isSome

/-- The record that a name means before the global scope is asked. -/
def nearer? (s : Scopes) (name : String) : Option Record :=
  (s.chain.filter fun place => place ≠ top).findSome? (s.recordAt? name)

/-- A binding scope that does not bind a name has no record under it. -/
theorem recordAt?_eq_none_of_isBinding
    {place : Nat} (hbinding : s.isBinding place = true) (h : ¬s.BindsAt name place) :
    s.recordAt? name place = none := by
  rw [recordAt?]
  cases hscope : s.row[place]? with
  | none => rfl
  | some scope =>
      have hrole : scope.role = .binding := by simpa [isBinding, hscope] using hbinding
      exact Option.not_isSome_iff_eq_none.mp fun hsome => h ⟨scope, hscope, hrole, hsome⟩

/-- A declared record is found unless a binding scope on the way has its name. -/
theorem WellFormed.find?_declare
    (hs : s.WellFormed) {r : Record} (hfree : ∀ place ∈ s.chain, ¬s.BindsAt r.name place) :
    (s.declare r).find? r.name = some r := by
  obtain ⟨inner, hchain, -⟩ := hs.exists_chain_eq
  have hsome : (s.chain.find? fun place => !s.isBinding place).isSome := by
    rw [List.find?_isSome]
    exact ⟨top, by simp [hchain], by simp [hs.isBinding_top]⟩
  obtain ⟨place, hplace⟩ := Option.isSome_iff_exists.mp hsome
  have hlt : place < s.row.size := lt_size_of_mem_chain (List.mem_of_find?_eq_some hplace)
  obtain ⟨hrole, before, after, hsplit, hbefore⟩ := List.find?_eq_some_iff_append.mp hplace
  -- All places before the one that is written to are binding scopes without the name.
  have hnone : ∀ other ∈ before,
      (s.modifyAt place (·.insert r)).recordAt? r.name other = none := by
    intro other hmem
    have hbinding : s.isBinding other = true := by simpa using hbefore other hmem
    have hne : place ≠ other := by
      rintro rfl
      simp [hbinding] at hrole
    rw [recordAt?_modifyAt_of_ne hne]
    have hother := hfree other (by simp [hsplit, hmem])
    exact recordAt?_eq_none_of_isBinding hbinding hother
  rw [declare, declarationPlace, hplace, Option.getD_some, find?_eq_findSome?, chain_modifyAt,
    hsplit, List.findSome?_append, List.findSome?_eq_none_iff.mpr hnone, Option.none_or,
    List.findSome?_cons, recordAt?_insert_self hlt]

/-- A record that is declared globally is found unless a nearer scope has its name. -/
theorem WellFormed.find?_declareTop
    (hs : s.WellFormed) (r : Record) :
    (s.declareTop r).find? r.name = (s.nearer? r.name).or (some r) := by
  have hglobal : top < s.row.size := hs.size_pos
  obtain ⟨inner, hchain, htop⟩ := hs.exists_chain_eq
  have hne : ∀ place ∈ inner, place ≠ top := fun place hmem heq => htop (heq ▸ hmem)
  have hinner : s.chain.filter (fun place => place ≠ top) = inner := by
    have hkept : inner.filter (fun place => place ≠ top) = inner :=
      List.filter_eq_self.mpr fun place hmem => decide_eq_true (hne place hmem)
    rw [hchain, List.filter_append, hkept]
    simp
  have hsame : inner.findSome? ((s.modifyAt top (·.insert r)).recordAt? r.name) =
      inner.findSome? (s.recordAt? r.name) := by
    rw [← List.head?_filterMap, ← List.head?_filterMap]
    exact congrArg List.head? (List.filterMap_congr fun place hmem =>
      recordAt?_modifyAt_of_ne (hne place hmem).symm _)
  rw [declareTop, find?_eq_findSome?, chain_modifyAt, nearer?, hinner, hchain,
    List.findSome?_append, hsame, List.findSome?_singleton, recordAt?_insert_self hglobal]

/-! ## Loops keep their names -/

/-- A change adds no name to a binding scope, if it does not where it is made. -/
theorem BindsAt.of_modifyAt
    {place other : Nat} {f : Records → Records} (h : (s.modifyAt place f).BindsAt name other)
    (hf : ∀ scope, s.row[place]? = some scope → scope.role = .binding →
      ((f scope.records).find? name).isSome → (scope.records.find? name).isSome) :
    s.BindsAt name other := by
  obtain ⟨scope, hscope, hrole, hsome⟩ := h
  rw [modifyAt, Array.getElem?_modify] at hscope
  by_cases hother : place = other
  · subst hother
    rw [if_pos rfl, Option.map_eq_some_iff] at hscope
    obtain ⟨old, hold, rfl⟩ := hscope
    exact ⟨old, hold, hrole, hf old hold hrole hsome⟩
  · rw [if_neg hother] at hscope
    exact ⟨scope, hscope, hrole, hsome⟩

theorem BindsAt.of_declare
    (hs : s.WellFormed) {r : Record} {place : Nat} (h : (s.declare r).BindsAt name place) :
    s.BindsAt name place :=
  h.of_modifyAt fun _ hscope hrole _ => absurd hrole (hs.role_declarationPlace hscope)

theorem BindsAt.of_declareTop
    (hs : s.WellFormed) {r : Record} {place : Nat} (h : (s.declareTop r).BindsAt name place) :
    s.BindsAt name place := by
  refine h.of_modifyAt fun scope hscope hrole _ => ?_
  have htop := hs.isBinding_top
  simp [isBinding, hscope, hrole] at htop

/-- An assignment has the same names after it as before. -/
theorem BindsAt.of_assign
    {key : String} {value : Value} {place : Nat} (h : (s.assign key value).BindsAt name place) :
    s.BindsAt name place := by
  rw [assign] at h
  split at h
  · refine h.of_modifyAt fun scope _ _ hsome => ?_
    unfold revalue at hsome
    split at hsome
    · next r hr =>
      rw [Records.find?_put] at hsome
      split at hsome
      · next hkey => rw [← hkey, hr, Option.isSome_some]
      · exact hsome
    · exact hsome
  · exact h

/-- The scopes below the last stay when it leaves. -/
theorem BindsAt.of_pop
    {place : Nat} (h : s.pop.BindsAt name place) :
    s.BindsAt name place := by
  obtain ⟨scope, hscope, hbinds⟩ := h
  refine ⟨scope, ?_, hbinds⟩
  unfold pop at hscope
  split at hscope
  · exact hscope
  · split at hscope
    · rw [Array.getElem?_pop] at hscope
      split at hscope
      · exact hscope
      · cases hscope
    · exact hscope

/-- A layer on top leaves the scopes below alone. -/
theorem BindsAt.of_add
    {l : Layer} {place : Nat} (h : (s.add l).BindsAt name place) (hlt : place < s.row.size) :
    s.BindsAt name place := by
  obtain ⟨scope, hscope, hbinds⟩ := h
  exact ⟨scope, (row_add_of_lt hlt l).symm.trans hscope, hbinds⟩

theorem BindsAt.lt_size
    {place : Nat} (h : s.BindsAt name place) :
    place < s.row.size := by
  obtain ⟨scope, hscope, -⟩ := h
  exact (Array.getElem?_eq_some_iff.mp hscope).1

end Scopes

namespace Machine

theorem SameStack.lt_size_of_bindsAt
    {m m' : Machine} (h : m.SameStack m') {name : String} {place : Nat}
    (hbinds : m'.scopes.BindsAt name place) :
    place < m.scopes.row.size :=
  Scopes.size_eq_of_shape_eq h.shape ▸ hbinds.lt_size

/-- No change adds a name to a binding scope that was there before. -/
theorem Changes.bindsAt
    {m m' : Machine} (h : m.Changes m') (hm : m.scopes.WellFormed) {name : String} {place : Nat}
    (hbinds : m'.scopes.BindsAt name place) :
    m.scopes.BindsAt name place := by
  induction h with
  | none m => exact hbinds
  | next h₁ _ ih₁ ih₂ =>
      have hwell := (h₁.sameStack hm.size_pos).wellFormed hm
      exact ih₁ hm (ih₂ hwell hbinds)
  | declared m r _ => exact hbinds.of_declare hm
  | defined m f => exact hbinds.of_declareTop hm
  | appended m key elements item _ => exact hbinds.of_assign
  | printed m text _ => exact hbinds
  | @iterated m m' counter n hbody ih =>
      have hstack := (Changes.iterated counter n hbody).sameStack hm.size_pos
      have hlt := hstack.lt_size_of_bindsAt hbinds
      obtain ⟨g, layers, -, -, hlayers⟩ := hm.exists_layered
      have henter := scopes_enterIteration hlayers ⟨.num, counter, .number n⟩
      rw [Scopes.layered_cons, ← hlayers] at henter
      have hbefore := ih (henter ▸ hm.add _) hbinds.of_pop
      exact Scopes.BindsAt.of_add (henter ▸ hbefore) hlt
  | @called m m' arguments hfit hdepth hbody ih =>
      have hstack := (Changes.called arguments hfit hdepth hbody).sameStack hm.size_pos
      have hlt := hstack.lt_size_of_bindsAt hbinds
      obtain ⟨g, layers, -, -, hlayers⟩ := hm.exists_layered
      have henter := scopes_enterCall hlayers arguments
      rw [Scopes.layered_cons, ← hlayers] at henter
      have hbefore := ih (henter ▸ hm.add _) hbinds.of_pop
      exact Scopes.BindsAt.of_add (henter ▸ hbefore) hlt

/-- A variable declaration that succeeds has run its initializer to a value of the declared kind
and then written it. -/
theorem runStatement_declare_eq_ok
    {m m' : Machine} {kind : Kind} {name : String} {initializer : Expr} {line : Nat}
    {ending : Ending}
    (h : runStatement (.declare kind name initializer line) m = .ok ending m') :
    ∃ v n, Run.value (Run.invoke m.room) initializer m = .ok v n ∧ v.kind = kind ∧
      m' = n.mapScopes (·.declare ⟨kind, name, v⟩) := by
  rw [runStatement, Run.statement] at h
  obtain ⟨v, n, hvalue, hrest⟩ := Run.exists_ok_of_bind_eq_ok h
  by_cases hkind : v.kind = kind
  · rw [if_pos hkind] at hrest
    cases hrest
    exact ⟨v, n, hvalue, hkind, rfl⟩
  · rw [if_neg hkind] at hrest
    cases hrest

/-- Running an expression to a value keeps the stack and binds no further names in it. -/
theorem changes_value
    {m n : Machine} {e : Expr} {v : Value}
    (h : Run.value (Run.invoke m.room) e m = .ok v n) :
    m.Changes n := by
  have hpermitted := (Run.compatible_permitted m.room).require
    (y := Run.expr (Run.invoke m.room) e) e.line (Run.permitted_expr m.room e)
  have hchanges := hpermitted m rfl
  rwa [show (Run.require e.line (Run.expr (Run.invoke m.room) e)).after m = n from
    Run.after_of_ok h] at hchanges

/-- A variable is read back unless a loop around counts under its name. -/
theorem find?_of_runStatement_declare
    {m m' : Machine} (hm : m.scopes.WellFormed) {kind : Kind} {name : String} {initializer : Expr}
    {line : Nat} {ending : Ending}
    (h : runStatement (.declare kind name initializer line) m = .ok ending m')
    (hfree : ∀ place ∈ m.scopes.chain, ¬m.scopes.BindsAt name place) :
    m'.scopes.current = m.scopes.current ∧
      ∃ v n, Run.value (Run.invoke m.room) initializer m = .ok v n ∧ v.kind = kind ∧
        m'.scopes.find? name = some ⟨kind, name, v⟩ := by
  obtain ⟨v, n, hvalue, hkind, rfl⟩ := runStatement_declare_eq_ok h
  have hchanges := changes_value hvalue
  have hstack := hchanges.sameStack hm.size_pos
  refine ⟨hstack.current, v, n, hvalue, hkind, ?_⟩
  refine (hstack.wellFormed hm).find?_declare fun place hplace hbinds => ?_
  rw [Scopes.chain_eq_of_shape_eq hstack.shape hstack.current] at hplace
  exact hfree place hplace (hchanges.bindsAt hm hbinds)

/-- Declarations are read back.  In every machine with well-formed scopes, a variable declaration
that succeeds is followed by look-ups that give the declared kind and the value of the initializer,
whatever the frame and the global scope had under the name, unless a loop around counts under it.
A function declaration always succeeds and the function stands in the global scope; look-ups then
give the function, unless the name is one that the frame or a loop around has, in which case they
give what they gave before. -/
theorem declarations_are_read_back
    {m : Machine} (hm : m.scopes.WellFormed) :
    (∀ kind name initializer line ending m',
      runStatement (.declare kind name initializer line) m = .ok ending m' →
      (∀ place ∈ m.scopes.chain, ¬m.scopes.BindsAt name place) →
      m'.scopes.current = m.scopes.current ∧
        ∃ v n, Run.value (Run.invoke m.room) initializer m = .ok v n ∧ v.kind = kind ∧
          m'.scopes.find? name = some ⟨kind, name, v⟩) ∧
    ∀ name parameters body line, ∃ m',
      runStatement (.function name parameters body line) m = .ok (.ran none) m' ∧
        m'.scopes.current = m.scopes.current ∧
        m'.scopes.recordAt? name Scopes.top =
          some ⟨.fn, name, .function m.nextIdentity (.user ⟨name, parameters, body, line⟩)⟩ ∧
        m'.scopes.find? name = (m.scopes.nearer? name).or
          (some ⟨.fn, name, .function m.nextIdentity (.user ⟨name, parameters, body, line⟩)⟩) := by
  constructor
  · intro kind name initializer line ending m' h hfree
    exact find?_of_runStatement_declare hm h hfree
  · intro name parameters body line
    refine ⟨m.define ⟨name, parameters, body, line⟩, ?_, rfl, ?_, ?_⟩
    · rw [runStatement, Run.statement]
      rfl
    · exact Scopes.recordAt?_insert_self hm.size_pos ⟨.fn, name, _⟩
    · exact hm.find?_declareTop ⟨.fn, name, _⟩

/-- In an iteration inside a call, a truth value is declared under the name of a parameter that
held a text, and a function under a name that nothing has.  A function that is declared under the
name of the parameter stands in the global scope, but the name means the parameter still. -/
theorem parameter_redeclared_in_loop :
    let g : Scope := ⟨.global, none, Scopes.top, .empty⟩
    let parameter : Scopes.Layer := ⟨.frame, .insert .empty ⟨.str, "x", .text "old"⟩⟩
    let counter : Scopes.Layer := ⟨.binding, .insert .empty ⟨.num, "i", .number 1⟩⟩
    let m : Machine := { initial with scopes := .layered g [counter, parameter], depth := 1 }
    m.scopes.WellFormed ∧
      (∃ m', runStatement (.declare .bool "x" (.literal (.boolean true) 3) 3) m =
          .ok (.ran none) m' ∧
        m'.scopes.find? "x" = some ⟨.bool, "x", .boolean true⟩) ∧
      (∃ m', runStatement (.function "h" [] [] 4) m = .ok (.ran none) m' ∧
        m'.scopes.find? "h" =
          some ⟨.fn, "h", .function m.nextIdentity (.user ⟨"h", [], [], 4⟩)⟩) ∧
      ∃ m', runStatement (.function "x" [] [] 5) m = .ok (.ran none) m' ∧
        m'.scopes.recordAt? "x" Scopes.top =
          some ⟨.fn, "x", .function m.nextIdentity (.user ⟨"x", [], [], 5⟩)⟩ ∧
        m'.scopes.find? "x" = some ⟨.str, "x", .text "old"⟩ := by
  intro g parameter counter m
  have hm : m.scopes.WellFormed := Scopes.wellFormed_layered rfl rfl _
  have hfree : ∀ place ∈ m.scopes.chain, ¬m.scopes.BindsAt "x" place := by
    rintro place - ⟨scope, hscope, hrole, hsome⟩
    match place with
    | 0 | 1 =>
        cases hscope
        cases hrole
    | 2 =>
        cases hscope
        cases hsome
    | place + 3 => cases hscope
  have hdeclare : runStatement (.declare .bool "x" (.literal (.boolean true) 3) 3) m =
      .ok (.ran none) (m.mapScopes (·.declare ⟨.bool, "x", .boolean true⟩)) := by
    rw [runStatement, Run.statement]
    rfl
  obtain ⟨hvariable, hfunction⟩ := declarations_are_read_back hm
  obtain ⟨-, v, n, hv, -, hfound⟩ := hvariable _ _ _ _ _ _ hdeclare hfree
  cases hv
  obtain ⟨m₁, hok₁, -, -, hread₁⟩ := hfunction "h" [] [] 4
  have hnearer₁ : m.scopes.nearer? "h" = none := by
    with_unfolding_all rfl
  rw [hnearer₁] at hread₁
  obtain ⟨m₂, hok₂, -, hglobal₂, hread₂⟩ := hfunction "x" [] [] 5
  have hnearer₂ : m.scopes.nearer? "x" = some ⟨.str, "x", .text "old"⟩ := by
    with_unfolding_all rfl
  rw [hnearer₂] at hread₂
  exact ⟨hm, ⟨_, hdeclare, hfound⟩, ⟨m₁, hok₁, hread₁⟩, m₂, hok₂, hglobal₂, hread₂⟩

/-- Not every declaration is read back: a function stays hidden behind a parameter of the call that
declares it, and a variable behind the counter of the loop around it.  A program sees this when it
declares a function `g` where it has a variable `g`: the name means the variable still. -/
theorem declarations_can_stay_hidden :
    (∃ m', runStatement (.function "g" [] [] 1)
          (initial.enterCall [⟨.bool, "g", .boolean true⟩]) = .ok (.ran none) m' ∧
        m'.scopes.find? "g" = some ⟨.bool, "g", .boolean true⟩) ∧
      (∃ m', runStatement (.declare .bool "i" (.literal (.boolean true) 1) 1)
          (initial.enterIteration ⟨.num, "i", .number 1⟩) = .ok (.ran none) m' ∧
        m'.scopes.find? "i" = some ⟨.num, "i", .number 1⟩) ∧
      (runBlock
        [.function "f" []
          [.declare .bool "g" (.literal (.boolean true) 1) 1, .function "g" [] [] 2,
            .returns (.name "g" 3) 3] 1,
          .expression (.call "f" [] 4) 4]).answer initial =
        .ok (.ran (some (.boolean true))) := by
  refine ⟨⟨_, rfl, ?_⟩, ⟨_, rfl, ?_⟩, ?_⟩
  · with_unfolding_all rfl
  · with_unfolding_all rfl
  · with_unfolding_all rfl

end Machine
end ColonScript
