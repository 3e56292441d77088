import ColonScript.Scopes
import Mathlib.Data.List.Find

/-!
# Scopes as layers

Scopes are well formed if they are a global scope with layers on it, each linked to the scope
below it as its role demands.  Such scopes are determined by the global scope and by the roles
and records of the layers.  This module says what looking up, assigning and declaring do when a
layer lies on top, so that later arguments follow the list of layers and need no places.
-/

namespace ColonScript
namespace Scopes

/-- Scopes start with a global scope without parent, the current one is the last, and every
other one resumes the one below it.  A binding scope has this as its parent, all others have the
global scope. -/
structure WellFormed (s : Scopes) : Prop where
  global : ∃ g, s.row[top]? = some g ∧ g.role = .global ∧ g.parent = none
  current_last : s.current + 1 = s.row.size
  linked : ∀ place scope, s.row[place + 1]? = some scope →
    scope.resume = place ∧ scope.parent = some (if scope.role = .binding then place else top)

theorem WellFormed.size_pos
    {s : Scopes} (h : s.WellFormed) :
    0 < s.row.size := by
  rw [← h.current_last]
  exact Nat.succ_pos _

/-- A scope above the global one: what it was made for and its records. -/
structure Layer where
  role : ScopeRole
  records : Records

/-- Adds a layer and makes it current. -/
def add (s : Scopes) (l : Layer) : Scopes :=
  ⟨s.row.push ⟨l.role, some (s.parentFor l.role), s.current, l.records⟩, s.row.size⟩

/-- A global scope with layers on it, newest first. -/
def layered (g : Scope) (layers : List Layer) : Scopes :=
  layers.foldr (fun l s => s.add l) ⟨#[g], top⟩

@[simp]
theorem layered_nil
    (g : Scope) :
    layered g [] = ⟨#[g], top⟩ :=
  rfl

@[simp]
theorem layered_cons
    (g : Scope) (l : Layer) (layers : List Layer) :
    layered g (l :: layers) = (layered g layers).add l :=
  rfl

@[simp]
theorem size_add
    (s : Scopes) (l : Layer) :
    (s.add l).row.size = s.row.size + 1 := by
  simp [add]

@[simp]
theorem current_add
    (s : Scopes) (l : Layer) :
    (s.add l).current = s.row.size :=
  rfl

theorem row_add_of_lt
    {s : Scopes} {place : Nat} (hplace : place < s.row.size) (l : Layer) :
    (s.add l).row[place]? = s.row[place]? := by
  rw [add, Array.getElem?_push, if_neg (Nat.ne_of_lt hplace)]

/-- Removing a layer that lies on top gives back the scopes below it. -/
theorem pop_add
    {s : Scopes} (hs : 0 < s.row.size) (l : Layer) :
    (s.add l).pop = s := by
  have hsize : ¬ (s.add l).row.size ≤ 1 := by
    rw [size_add]
    omega
  rw [pop, if_neg hsize]
  simp [add]

/-- The current scope of layers is the last one. -/
theorem current_layered
    (g : Scope) (layers : List Layer) :
    (layered g layers).current + 1 = (layered g layers).row.size := by
  cases layers with
  | nil => rfl
  | cons l layers => simp

theorem current_lt_layered
    (g : Scope) (layers : List Layer) :
    (layered g layers).current < (layered g layers).row.size := by
  have h := current_layered g layers
  omega

/-- The global scope stays at the bottom. -/
theorem row_top_layered
    (g : Scope) (layers : List Layer) :
    (layered g layers).row[top]? = some g := by
  induction layers with
  | nil => rfl
  | cons l layers ih =>
      have htop : top < (layered g layers).row.size :=
        Nat.zero_lt_of_lt (current_lt_layered g layers)
      rw [layered_cons, row_add_of_lt htop]
      exact ih

/-! ## Well-formed scopes are layers on a global scope -/

/-- Below the last of several well-formed scopes, the scopes are well formed again. -/
theorem WellFormed.below
    {row : Array Scope} {scope : Scope} {current : Nat}
    (h : WellFormed ⟨row.push scope, current⟩) (hrow : 0 < row.size) :
    WellFormed ⟨row, row.size - 1⟩ := by
  have hget (place : Nat) (hlt : place < row.size) :
      (row.push scope)[place]? = row[place]? := by
    rw [Array.getElem?_push, if_neg (Nat.ne_of_lt hlt)]
  refine ⟨?_, Nat.sub_add_cancel hrow, ?_⟩
  · obtain ⟨g, hg, hrole, hparent⟩ := h.global
    exact ⟨g, (hget top hrow).symm.trans hg, hrole, hparent⟩
  · intro place below hbelow
    have hlt : place + 1 < row.size := (Array.getElem?_eq_some_iff.mp hbelow).1
    exact h.linked place below ((hget (place + 1) hlt).trans hbelow)

/-- The last of several well-formed scopes is a layer on the others. -/
theorem WellFormed.eq_add
    {row : Array Scope} {scope : Scope} {current : Nat}
    (h : WellFormed ⟨row.push scope, current⟩) (hrow : 0 < row.size) :
    (⟨row.push scope, current⟩ : Scopes) =
      add ⟨row, row.size - 1⟩ ⟨scope.role, scope.records⟩ := by
  have hcurrent : current = row.size := by
    simpa using h.current_last
  have hplace : row.size - 1 + 1 = row.size := Nat.sub_add_cancel hrow
  have hlast : (row.push scope)[row.size - 1 + 1]? = some scope := by
    rw [hplace, Array.getElem?_push_size]
  obtain ⟨hresume, hparent⟩ := h.linked _ scope hlast
  have hfor : scope.parent = some (parentFor ⟨row, row.size - 1⟩ scope.role) := by
    rw [hparent]
    cases scope.role <;> rfl
  rw [add, ← hfor, ← hresume, hcurrent]

/-- Well-formed scopes are layers on a global scope. -/
theorem WellFormed.exists_layered
    {s : Scopes} (h : s.WellFormed) :
    ∃ g layers, g.role = .global ∧ g.parent = none ∧ s = layered g layers := by
  obtain ⟨row, current⟩ := s
  induction current generalizing row with
  | zero =>
      obtain ⟨g, hg, hrole, hparent⟩ := h.global
      obtain ⟨scope, rfl⟩ := Array.size_eq_one_iff.mp h.current_last.symm
      cases hg
      exact ⟨scope, [], hrole, hparent, rfl⟩
  | succ n ih =>
      obtain ⟨below, scope, rfl⟩ := Array.exists_push_of_size_eq_add_one h.current_last.symm
      have hsize : below.size = n + 1 := by
        simpa using h.current_last.symm
      have hbelow := h.below (by omega)
      have heq := h.eq_add (by omega)
      rw [hsize] at hbelow heq
      obtain ⟨g, layers, hrole, hparent, hlayers⟩ := ih below hbelow
      refine ⟨g, ⟨scope.role, scope.records⟩ :: layers, hrole, hparent, ?_⟩
      rw [heq, layered_cons, ← hlayers]
      rfl

theorem WellFormed.add
    {s : Scopes} (h : s.WellFormed) (l : Layer) :
    (s.add l).WellFormed := by
  refine ⟨?_, (size_add s l).symm, ?_⟩
  · obtain ⟨g, hg, hrole, hparent⟩ := h.global
    have htop : top < s.row.size := h.size_pos
    exact ⟨g, (row_add_of_lt htop l).trans hg, hrole, hparent⟩
  · intro place scope hscope
    rw [Scopes.add, Array.getElem?_push] at hscope
    split at hscope
    · next hplace =>
      have hcurrent : s.current = place := by
        have hlast := h.current_last
        omega
      cases hscope
      refine ⟨hcurrent, ?_⟩
      cases l.role <;> simp [parentFor, hcurrent]
    · exact h.linked place scope hscope

theorem wellFormed_layered
    {g : Scope} (hrole : g.role = .global) (hparent : g.parent = none) (layers : List Layer) :
    (layered g layers).WellFormed := by
  induction layers with
  | nil => exact ⟨⟨g, rfl, hrole, hparent⟩, rfl, by simp⟩
  | cons l layers ih => exact ih.add l

/-! ## Looking up and writing with a layer on top -/

theorem modifyAt_add_of_lt
    {s : Scopes} {place : Nat} (hplace : place < s.row.size) (l : Layer)
    (f : Records → Records) :
    (s.add l).modifyAt place f = (s.modifyAt place f).add l := by
  have hne : s.row.size ≠ place := Nat.ne_of_gt hplace
  unfold modifyAt add
  congr 1
  · apply Array.ext_getElem?
    intro i
    simp only [Array.getElem?_modify, Array.getElem?_push, Array.size_modify]
    by_cases hi : i = s.row.size
    · simp [hi, Ne.symm hne]
      cases l.role <;> rfl
    · simp [hi]
  · simp

theorem modifyAt_add_size
    (s : Scopes) (l : Layer) (f : Records → Records) :
    (s.add l).modifyAt s.row.size f = s.add { l with records := f l.records } := by
  unfold modifyAt add
  congr 1
  apply Array.ext_getElem?
  intro i
  simp only [Array.getElem?_modify, Array.getElem?_push]
  by_cases hi : i = s.row.size
  · simp [hi]
  · simp [hi, Ne.symm hi]

/-- The places in which a name is looked for do not depend on scopes that came later. -/
theorem chainFrom_push
    (row : Array Scope) (scope : Scope) {place : Nat} (hplace : place < row.size) :
    chainFrom (row.push scope) place = chainFrom row place := by
  induction place using Nat.strongRecOn with
  | ind place ih =>
      have hget : (row.push scope)[place]? = row[place]? := by
        rw [Array.getElem?_push, if_neg (Nat.ne_of_lt hplace)]
      rw [chainFrom, chainFrom, hget]
      split
      · rfl
      · split
        · rfl
        · split
          · next hlt => rw [ih _ hlt (by omega)]
          · rfl

theorem lt_size_of_mem_chainFrom
    {row : Array Scope} {place other : Nat} (h : other ∈ chainFrom row place) :
    other < row.size := by
  fun_induction chainFrom row place with
  | case1 => cases h
  | case2 place scope hscope _ =>
      rw [List.mem_singleton.mp h]
      exact (Array.getElem?_eq_some_iff.mp hscope).1
  | case3 place scope hscope parent _ _ ih =>
      rcases List.mem_cons.mp h with rfl | h
      · exact (Array.getElem?_eq_some_iff.mp hscope).1
      · exact ih h
  | case4 place scope hscope parent _ _ =>
      rw [List.mem_singleton.mp h]
      exact (Array.getElem?_eq_some_iff.mp hscope).1

theorem chainFrom_top
    {row : Array Scope} (hrow : 0 < row.size) :
    chainFrom row top = [top] := by
  have hget : row[top]? = some row[top] := Array.getElem?_eq_getElem hrow
  rw [chainFrom, hget]
  dsimp only
  split
  · rfl
  · exact if_neg (Nat.not_lt_zero _)

/-- With a layer on top, names are looked for there first, and then further down or, unless the
layer is a binding scope, in the global scope. -/
theorem chain_add
    {s : Scopes} (hs : s.current < s.row.size) (l : Layer) :
    (s.add l).chain = s.row.size :: if l.role = .binding then s.chain else [top] := by
  have hrow : 0 < s.row.size := Nat.zero_lt_of_lt hs
  have hparent : s.parentFor l.role = if l.role = .binding then s.current else top := by
    cases l.role <;> rfl
  have hlt : s.parentFor l.role < s.row.size := by
    rw [hparent]
    split
    · exact hs
    · exact hrow
  rw [chain, chainFrom, current_add]
  simp only [add, Array.getElem?_push_size]
  rw [if_pos hlt, chainFrom_push s.row _ hlt, hparent]
  split
  · rfl
  · rw [chainFrom_top hrow]

theorem recordAt?_add_size
    (s : Scopes) (l : Layer) (name : String) :
    (s.add l).recordAt? name s.row.size = l.records.find? name := by
  simp [recordAt?, add]

theorem recordAt?_add_of_lt
    {s : Scopes} {place : Nat} (hplace : place < s.row.size) (l : Layer) (name : String) :
    (s.add l).recordAt? name place = s.recordAt? name place := by
  rw [recordAt?, row_add_of_lt hplace, recordAt?]

theorem isBinding_add_size
    (s : Scopes) (l : Layer) :
    (s.add l).isBinding s.row.size = decide (l.role = .binding) := by
  simp [isBinding, add]

theorem isBinding_add_of_lt
    {s : Scopes} {place : Nat} (hplace : place < s.row.size) (l : Layer) :
    (s.add l).isBinding place = s.isBinding place := by
  rw [isBinding, row_add_of_lt hplace, isBinding]

theorem lt_size_of_mem_chain
    {s : Scopes} {place : Nat} (h : place ∈ s.chain) :
    place < s.row.size :=
  lt_size_of_mem_chainFrom h

theorem lt_size_of_locate?_eq_some
    {s : Scopes} {name : String} {place : Nat} (h : s.locate? name = some place) :
    place < s.row.size :=
  lt_size_of_mem_chain (List.mem_of_find?_eq_some h)

theorem declarationPlace_lt_size
    {s : Scopes} (hs : 0 < s.row.size) :
    s.declarationPlace < s.row.size := by
  unfold declarationPlace
  cases h : s.chain.find? fun place => !s.isBinding place with
  | none => exact hs
  | some place => exact lt_size_of_mem_chain (List.mem_of_find?_eq_some h)

section Add

variable {s : Scopes} (hs : s.current < s.row.size) (l : Layer)
include hs

/-- A name that a layer on top has means what it means there.  Any other name means what it
means below a binding scope, and what it means in the global scope below every other layer. -/
theorem locate?_add
    (name : String) :
    (s.add l).locate? name =
      if (l.records.find? name).isSome then some s.row.size
      else if l.role = .binding then s.locate? name
      else if (s.recordAt? name top).isSome then some top else none := by
  rw [locate?, chain_add hs, List.find?_cons, recordAt?_add_size]
  by_cases hfound : (l.records.find? name).isSome
  · simp [hfound]
  · by_cases hrole : l.role = .binding
    · simp only [hfound, hrole, if_true]
      exact List.find?_congr fun place hplace => by
        rw [recordAt?_add_of_lt (lt_size_of_mem_chain hplace)]
    · have htop : top < s.row.size := Nat.zero_lt_of_lt hs
      cases hglobal : s.recordAt? name top <;>
        simp [hfound, hrole, recordAt?_add_of_lt htop, hglobal]

theorem find?_add
    (name : String) :
    (s.add l).find? name =
      (l.records.find? name).or
        (if l.role = .binding then s.find? name else s.recordAt? name top) := by
  have htop : top < s.row.size := Nat.zero_lt_of_lt hs
  rw [find?, locate?_add hs]
  cases hfound : l.records.find? name with
  | some r => simp [recordAt?_add_size, hfound]
  | none =>
      by_cases hrole : l.role = .binding
      · simp only [hrole, Option.isSome_none, Option.none_or, if_true, find?]
        cases hplace : s.locate? name with
        | none => rfl
        | some place => exact recordAt?_add_of_lt (lt_size_of_locate?_eq_some hplace) l name
      · cases hglobal : s.recordAt? name top <;>
          simp [hrole, recordAt?_add_of_lt htop, hglobal]

theorem assign_add
    (name : String) (value : Value) :
    (s.add l).assign name value =
      if (l.records.find? name).isSome then
        s.add { l with records := revalue name value l.records }
      else if l.role = .binding then (s.assign name value).add l
      else if (s.recordAt? name top).isSome then
        (s.modifyAt top (revalue name value)).add l
      else s.add l := by
  have htop : top < s.row.size := Nat.zero_lt_of_lt hs
  rw [assign, locate?_add hs]
  by_cases hfound : (l.records.find? name).isSome
  · simp only [hfound, if_true]
    exact modifyAt_add_size s l _
  · by_cases hrole : l.role = .binding
    · simp only [hfound, hrole, if_true, assign]
      cases hplace : s.locate? name with
      | none => rfl
      | some place => exact modifyAt_add_of_lt (lt_size_of_locate?_eq_some hplace) l _
    · by_cases hglobal : (s.recordAt? name top).isSome
      · simp only [hfound, hrole, hglobal, if_true, if_false]
        exact modifyAt_add_of_lt htop l _
      · simp [hfound, hrole, hglobal]

/-- Declarations pass by binding scopes and go to any other layer on top. -/
theorem declare_add
    (r : Record) :
    (s.add l).declare r =
      if l.role = .binding then (s.declare r).add l
      else s.add { l with records := l.records.insert r } := by
  have htop : 0 < s.row.size := Nat.zero_lt_of_lt hs
  rw [declare, declarationPlace, chain_add hs, List.find?_cons, isBinding_add_size]
  by_cases hrole : l.role = .binding
  · simp only [hrole, if_true, decide_true, Bool.not_true]
    have hplaces : (s.chain.find? fun place => !(s.add l).isBinding place) =
        s.chain.find? fun place => !s.isBinding place :=
      List.find?_congr fun place hplace => by
        rw [isBinding_add_of_lt (lt_size_of_mem_chain hplace)]
    rw [hplaces]
    exact modifyAt_add_of_lt (declarationPlace_lt_size htop) l _
  · simp only [hrole, if_false, decide_false, Bool.not_false, Option.getD_some]
    exact modifyAt_add_size s l _

end Add

end Scopes
end ColonScript
