import ColonScript.Proofs.Running.Isolation
import ColonScript.Proofs.Running.StackNeutral

/-!
# The store stays well typed

Records are written by declarations, by definitions of functions, as arguments of calls, as
counters of loops and by the host, and appends replace their values in place.  What may stand in a
scope depends on what the scope was made for: the global scope has values of the declared kinds, a
frame also has array parameters with values of any kind, and a binding scope has counters only.
Every record stands under its own name.  All changes that a run can make keep this, so every run
keeps it, however it ends.
-/

namespace ColonScript

open Scopes

/-- The records that a scope of a role may hold. -/
def ScopeRole.Admits : ScopeRole → Record → Prop
  | .global, r => r.value.kind = r.kind
  | .frame, r => r.Fits
  | .binding, r => r.kind = .num ∧ ∃ n, r.value = .number n

/-- A value of the declared kind may be declared in every scope that takes declarations. -/
theorem ScopeRole.admits_of_kind_eq
    {role : ScopeRole} (hrole : role ≠ .binding) {r : Record} (hr : r.value.kind = r.kind) :
    role.Admits r := by
  cases role with
  | global => exact hr
  | frame => exact Or.inr hr
  | binding => exact absurd rfl hrole

/-- A record that holds an array is one of kind `arr`, and it does not stand in a binding
scope. -/
theorem ScopeRole.Admits.of_array
    {role : ScopeRole} {r : Record} (h : role.Admits r) {elements : List Value}
    (helements : r.value = .array elements) :
    r.kind = .arr ∧ role ≠ .binding := by
  cases role with
  | global =>
      rw [Admits, helements] at h
      exact ⟨h.symm, by decide⟩
  | frame =>
      rw [Admits, Record.Fits, helements] at h
      refine ⟨?_, by decide⟩
      rcases h with harr | hkind
      · exact harr
      · exact hkind.symm
  | binding =>
      obtain ⟨-, n, hn⟩ := h
      rw [helements] at hn
      cases hn

namespace Records

/-- Every record stands under its own name and may stand in a scope of the role. -/
def WellTyped (role : ScopeRole) (records : Records) : Prop :=
  ∀ name r, records.find? name = some r → r.name = name ∧ role.Admits r

theorem wellTyped_empty
    (role : ScopeRole) :
    empty.WellTyped role := by
  intro name r hr
  rw [find?_empty] at hr
  cases hr

variable {role : ScopeRole} {records : Records}

/-- Writing keeps records well typed if what is written is. -/
theorem WellTyped.put
    (h : records.WellTyped role) {name : String} {r : Record} (hname : r.name = name)
    (hr : role.Admits r) :
    (records.put name r).WellTyped role := by
  intro key found hfound
  rw [find?_put] at hfound
  by_cases hkey : name = key
  · rw [if_pos hkey] at hfound
    cases hfound
    exact ⟨hname.trans hkey, hr⟩
  · rw [if_neg hkey] at hfound
    exact h key found hfound

theorem WellTyped.insert
    (h : records.WellTyped role) {r : Record} (hr : role.Admits r) :
    (records.insert r).WellTyped role :=
  h.put rfl hr

theorem WellTyped.foldl_insert
    (h : records.WellTyped role) {arguments : List Record} (hfit : ∀ r ∈ arguments, role.Admits r) :
    (arguments.foldl Records.insert records).WellTyped role := by
  induction arguments generalizing records with
  | nil => exact h
  | cons r arguments ih =>
      have hfirst := h.insert (hfit r List.mem_cons_self)
      exact ih hfirst fun r hr => hfit r (List.mem_cons_of_mem _ hr)

/-- An append to an array keeps records well typed, also where the array is that of a
parameter. -/
theorem WellTyped.revalue_array
    (h : records.WellTyped role) {name : String} {r : Record} (hr : records.find? name = some r)
    {elements : List Value} (helements : r.value = .array elements) (longer : List Value) :
    (revalue name (.array longer) records).WellTyped role := by
  obtain ⟨hname, hadmits⟩ := h name r hr
  obtain ⟨hkind, hrole⟩ := hadmits.of_array helements
  rw [revalue, hr]
  exact h.put hname (ScopeRole.admits_of_kind_eq hrole hkind.symm)

end Records

namespace Scopes

/-- Every scope that is alive has well-typed records for its role. -/
def WellTyped (s : Scopes) : Prop :=
  ∀ (place : Nat) (scope : Scope), s.row[place]? = some scope → scope.records.WellTyped scope.role

variable {s : Scopes}

theorem wellTyped_layered_nil
    {g : Scope} (hg : g.records.WellTyped g.role) :
    (layered g []).WellTyped := by
  intro place scope hscope
  rw [layered_nil, List.getElem?_toArray, List.getElem?_singleton] at hscope
  split at hscope
  · cases hscope
    exact hg
  · cases hscope

/-- A layer on top brings its own records. -/
theorem WellTyped.add
    (h : s.WellTyped) {l : Layer} (hl : l.records.WellTyped l.role) :
    (s.add l).WellTyped := by
  intro place scope hscope
  rw [Scopes.add, Array.getElem?_push] at hscope
  by_cases hplace : place = s.row.size
  · rw [if_pos hplace] at hscope
    cases hscope
    exact hl
  · rw [if_neg hplace] at hscope
    exact h place scope hscope

theorem WellTyped.pop
    (h : s.WellTyped) :
    s.pop.WellTyped := by
  unfold Scopes.pop
  split
  · exact h
  · split
    · intro place scope hscope
      rw [Array.getElem?_pop] at hscope
      split at hscope
      · exact h place scope hscope
      · cases hscope
    · exact h

/-- A change of the records of one scope has to keep those well typed. -/
theorem WellTyped.modifyAt
    (h : s.WellTyped) {place : Nat} {f : Records → Records}
    (hf : ∀ scope, s.row[place]? = some scope → (f scope.records).WellTyped scope.role) :
    (s.modifyAt place f).WellTyped := by
  intro other scope hscope
  rw [Scopes.modifyAt, Array.getElem?_modify] at hscope
  by_cases hother : place = other
  · subst hother
    rw [if_pos rfl, Option.map_eq_some_iff] at hscope
    obtain ⟨old, hold, rfl⟩ := hscope
    exact hf old hold
  · rw [if_neg hother] at hscope
    exact h other scope hscope

/-- Declarations do not go to binding scopes. -/
theorem WellFormed.role_declarationPlace
    (hs : s.WellFormed) {scope : Scope} (hscope : s.row[s.declarationPlace]? = some scope) :
    scope.role ≠ .binding := by
  unfold declarationPlace at hscope
  cases hfind : s.chain.find? fun place => !s.isBinding place with
  | none =>
      obtain ⟨g, hg, hrole, -⟩ := hs.global
      rw [hfind, Option.getD_none, hg] at hscope
      cases hscope
      rw [hrole]
      decide
  | some place =>
      have hplace := List.find?_some hfind
      rw [hfind, Option.getD_some] at hscope
      simpa [isBinding, hscope] using hplace

theorem WellTyped.declare
    (h : s.WellTyped) (hs : s.WellFormed) {r : Record} (hr : r.value.kind = r.kind) :
    (s.declare r).WellTyped := by
  apply h.modifyAt
  intro scope hscope
  have hrole := hs.role_declarationPlace hscope
  exact (h _ scope hscope).insert (ScopeRole.admits_of_kind_eq hrole hr)

theorem WellTyped.declareTop
    (h : s.WellTyped) (hs : s.WellFormed) {r : Record} (hr : r.value.kind = r.kind) :
    (s.declareTop r).WellTyped := by
  apply h.modifyAt
  intro scope hscope
  obtain ⟨g, hg, hrole, -⟩ := hs.global
  obtain rfl : scope = g := Option.some.inj (hscope.symm.trans hg)
  have hadmits : scope.role.Admits r := by
    rw [hrole]
    exact hr
  exact (h _ scope hscope).insert hadmits

/-- An append is made to the record that the name means, which holds an array. -/
theorem WellTyped.assign_array
    (h : s.WellTyped) {name : String} {elements : List Value}
    (hfound : (s.find? name).map Record.value = some (.array elements)) (longer : List Value) :
    (s.assign name (.array longer)).WellTyped := by
  obtain ⟨r, hr, helements⟩ := Option.map_eq_some_iff.mp hfound
  obtain ⟨place, hplace, hat⟩ := Option.bind_eq_some_iff.mp hr
  rw [assign, hplace]
  apply h.modifyAt
  intro scope hscope
  have hrecord : scope.records.find? name = some r := by
    rw [recordAt?, hscope] at hat
    exact hat
  exact (h place scope hscope).revalue_array hrecord helements longer

end Scopes

namespace Machine

/-- Changes keep the scopes well typed. -/
theorem Changes.wellTyped
    {m m' : Machine} (h : m.Changes m') (hm : m.scopes.WellFormed) (htyped : m.scopes.WellTyped) :
    m'.scopes.WellTyped := by
  induction h with
  | none m => exact htyped
  | next h₁ _ ih₁ ih₂ =>
      have hwell := (h₁.sameStack hm.size_pos).wellFormed hm
      exact ih₂ hwell (ih₁ hm htyped)
  | declared m r hr => exact htyped.declare hm hr
  | defined m f => exact htyped.declareTop hm rfl
  | appended m name elements item hfound => exact htyped.assign_array hfound _
  | printed m text _ => exact htyped
  | @iterated m m' counter n _ ih =>
      obtain ⟨g, layers, hrole, hparent, hlayers⟩ := hm.exists_layered
      have henter := scopes_enterIteration hlayers ⟨.num, counter, .number n⟩
      have hcounter := (Records.wellTyped_empty .binding).insert (r := ⟨.num, counter, .number n⟩)
        ⟨rfl, n, rfl⟩
      rw [hlayers] at htyped
      have hbody := ih (henter ▸ wellFormed_layered hrole hparent _)
        (henter ▸ htyped.add (l := ⟨.binding, _⟩) hcounter)
      exact hbody.pop
  | @called m m' arguments hfit _ _ ih =>
      obtain ⟨g, layers, hrole, hparent, hlayers⟩ := hm.exists_layered
      have henter := scopes_enterCall hlayers arguments
      have harguments := (Records.wellTyped_empty .frame).foldl_insert hfit
      rw [hlayers] at htyped
      have hbody := ih (henter ▸ wellFormed_layered hrole hparent _)
        (henter ▸ htyped.add (l := ⟨.frame, _⟩) harguments)
      exact hbody.pop

/-- The host provides natives as functions. -/
theorem wellTyped_provided
    (natives : List NativeFunction) {m : Machine} (hm : m.AtRest) (htyped : m.scopes.WellTyped) :
    (natives.foldl (fun m native => m.provide native) m).scopes.WellTyped := by
  induction natives generalizing m with
  | nil => exact htyped
  | cons native natives ih =>
      have hrest := hm.of_sameStack (provide_sameStack native m)
      exact ih hrest (htyped.declare hm.wellFormed rfl)

theorem wellTyped_initial : initial.scopes.WellTyped := by
  apply wellTyped_provided standardNatives ⟨⟨.empty, rfl⟩, rfl⟩
  exact wellTyped_layered_nil (Records.wellTyped_empty .global)

end Machine

theorem Run.Permitted.wellTyped
    {α : Type} {act : Run α} {m : Machine} (h : act.Permitted m.room) (hm : m.scopes.WellFormed)
    (htyped : m.scopes.WellTyped) :
    (act.after m).scopes.WellTyped :=
  (h m rfl).wellTyped hm htyped

namespace Machine

/-- The store stays well typed.  Whatever is run in a machine with well-typed scopes, an
expression, a bound or a guard, a statement, a block, a conditional or a call, the scopes are
well typed when it ends, also if it fails: every record stands under its own name and its kind is
that of its value, except for array parameters in frames, and counters are numbers.  After the
source texts of a session, failed ones included, all global records therefore have values of their
kind. -/
theorem store_stays_well_typed :
    (∀ m : Machine, m.scopes.WellFormed → m.scopes.WellTyped →
      (∀ e, ((runExpr e).after m).scopes.WellTyped) ∧
      (∀ e, ((Run.value (Run.invoke m.room) e).after m).scopes.WellTyped) ∧
      (∀ which line e,
        ((Run.bound (Run.invoke m.room) which line e).after m).scopes.WellTyped) ∧
      (∀ line condition,
        ((Run.guard (Run.invoke m.room) line condition).after m).scopes.WellTyped) ∧
      (∀ s, ((runStatement s).after m).scopes.WellTyped) ∧
      (∀ ss, ((runBlock ss).after m).scopes.WellTyped) ∧
      (∀ chain, ((Run.arms (Run.invoke m.room) chain).after m).scopes.WellTyped) ∧
      (∀ f arguments line, ((runCall f arguments line).after m).scopes.WellTyped) ∧
      ∀ f arguments line,
        ((Run.callNative (Run.invoke m.room) f arguments line).after m).scopes.WellTyped) ∧
    ∀ (sink : Sink) (sources : List String) (name : String) (r : Record),
      (runAll sources { initial with sink := sink }).scopes.recordAt? name top = some r →
        r.name = name ∧ r.value.kind = r.kind := by
  constructor
  · intro m hm htyped
    let i := Run.invoke m.room
    have hsteps := Run.compatible_permitted m.room
    have hcalls := Run.permitted_invoke m.room
    have hexpr := Run.permitted_expr m.room
    have hnatives := (hsteps.expressions hcalls).2.2.2
    obtain ⟨hstatement, hblock, harms⟩ := Run.permitted_statements m.room
    refine ⟨fun e => ?_, fun e => ?_, fun which line e => ?_, fun line condition => ?_,
      fun s => ?_, fun ss => ?_, fun chain => ?_, fun f arguments line => ?_,
      fun f arguments line => ?_⟩
    · exact (hexpr e).wellTyped hm htyped
    · exact (hsteps.require (y := Run.expr i e) e.line (hexpr e)).wellTyped hm htyped
    · exact (hsteps.bound (j := i) (hexpr e) which line).wellTyped hm htyped
    · exact (hsteps.guard (j := i) hexpr line condition).wellTyped hm htyped
    · exact (hstatement s).wellTyped hm htyped
    · exact (hblock ss Option.none).wellTyped hm htyped
    · exact (harms chain).wellTyped hm htyped
    · exact (Run.permitted_callUser m.room f arguments line).wellTyped hm htyped
    · exact (hsteps.callNative (j := i) (hnatives arguments) f line).wellTyped hm htyped
  · intro sink sources name r hr
    have hstart : AtRest { initial with sink := sink } := atRest_initial
    have hchanges := changes_runAll sources { initial with sink := sink }
    have hafter := hchanges.wellTyped hstart.wellFormed wellTyped_initial
    obtain ⟨⟨records, hscopes⟩, -⟩ :=
      hstart.of_sameStack (hchanges.sameStack hstart.wellFormed.size_pos)
    rw [hscopes] at hr hafter
    exact hafter top _ rfl name r hr

/-- Inside an iteration of a call whose array parameter holds a number, an append to the parameter
leaves the scopes well typed. -/
theorem append_to_parameter_keeps_typing :
    let push : Record := ⟨.fn, "push", .function 1 (.native ⟨"push", .exactly 2, .push⟩)⟩
    let g : Scope := ⟨.global, Option.none, top, .insert .empty push⟩
    let parameter : Layer := ⟨.frame, .insert .empty ⟨.arr, "a", .number 5⟩⟩
    let counter : Layer := ⟨.binding, .insert .empty ⟨.num, "i", .number 1⟩⟩
    let m : Machine := { initial with scopes := layered g [counter, parameter], depth := 1 }
    let append : Expr := .call "push" [.name "a" 2, .name "i" 2] 2
    m.scopes.WellFormed ∧ m.scopes.WellTyped ∧ ((runExpr append).after m).scopes.WellTyped := by
  intro push g parameter counter m append
  have hm : m.scopes.WellFormed := wellFormed_layered rfl rfl _
  have hpush : g.records.WellTyped .global := (Records.wellTyped_empty _).insert rfl
  have hglobal : (layered g []).WellTyped := wellTyped_layered_nil hpush
  have hparameter : parameter.records.WellTyped .frame :=
    (Records.wellTyped_empty _).insert (Or.inl rfl)
  have hcounter : counter.records.WellTyped .binding :=
    (Records.wellTyped_empty _).insert ⟨rfl, 1, rfl⟩
  have htyped : m.scopes.WellTyped := (hglobal.add hparameter).add hcounter
  exact ⟨hm, htyped, (store_stays_well_typed.1 m hm htyped).1 append⟩

end Machine
end ColonScript
