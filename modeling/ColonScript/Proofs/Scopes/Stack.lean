import ColonScript.Proofs.Scopes.Locality

/-!
# Scopes are a stack of maps

The row of scopes has places, parents and scopes to resume.  All this implements something plain:
a global map and a stack of activations, each a base map with binding maps on it.  The activation
at the bottom has the global map as its base.  `Stack` is this model, with one definition for each
operation that speaks of maps only, and `Represents` ties it to the layers that a row of scopes
consists of.  Whatever is done to both from the start on, they answer alike
(`scopes_answer_as_stack`).
-/

namespace ColonScript

/-- A map from names to records. -/
abbrev Table : Type :=
  String → Option Record

namespace Table

/-- The map without names. -/
def empty : Table :=
  fun _ => none

/-- Writes a record under its name. -/
def insert (t : Table) (r : Record) : Table :=
  fun name => if r.name = name then some r else t name

/-- Replaces the value of the record under a name, if there is one. -/
def revalue (t : Table) (name : String) (value : Value) : Table :=
  fun key => if name = key then (t key).map ({ · with value := value }) else t key

end Table

/-- A base map with binding maps on it, newest first. -/
structure Activation where
  base : Table
  bindings : List Table

/-- A global map, the binding maps of the activation at the bottom, whose base is the global map,
and the activations above it, newest first. -/
structure Stack where
  global : Table
  bottom : List Table
  activations : List Activation

namespace Stack

/-- An empty global map and nothing else. -/
def initial : Stack :=
  ⟨.empty, [], []⟩

/-- Adds a map: on top of the newest activation if it is for bindings, as the base of a new one
otherwise. -/
def add (role : ScopeRole) (t : Table) : Stack → Stack
  | ⟨global, bottom, activations⟩ =>
      match role, activations with
      | .binding, [] => ⟨global, t :: bottom, []⟩
      | .binding, ⟨base, bindings⟩ :: others => ⟨global, bottom, ⟨base, t :: bindings⟩ :: others⟩
      | .frame, _ | .global, _ => ⟨global, bottom, ⟨t, []⟩ :: activations⟩

/-- Adds an empty map. -/
def push (role : ScopeRole) : Stack → Stack :=
  add role .empty

/-- Removes the map that was added last.  The global map stays. -/
def pop : Stack → Stack
  | ⟨global, [], []⟩ => ⟨global, [], []⟩
  | ⟨global, _ :: bottom, []⟩ => ⟨global, bottom, []⟩
  | ⟨global, bottom, ⟨_, []⟩ :: others⟩ => ⟨global, bottom, others⟩
  | ⟨global, bottom, ⟨base, _ :: bindings⟩ :: others⟩ =>
      ⟨global, bottom, ⟨base, bindings⟩ :: others⟩

/-- Writes a record into the base map of the newest activation. -/
def declare (r : Record) : Stack → Stack
  | ⟨global, bottom, []⟩ => ⟨global.insert r, bottom, []⟩
  | ⟨global, bottom, ⟨base, bindings⟩ :: others⟩ =>
      ⟨global, bottom, ⟨base.insert r, bindings⟩ :: others⟩

/-- Writes a record into the global map. -/
def declareGlobal (r : Record) (s : Stack) : Stack :=
  { s with global := s.global.insert r }

/-- Writes a record into the map that was added last. -/
def bind (r : Record) : Stack → Stack
  | ⟨global, [], []⟩ => ⟨global.insert r, [], []⟩
  | ⟨global, t :: bottom, []⟩ => ⟨global, t.insert r :: bottom, []⟩
  | ⟨global, bottom, ⟨base, []⟩ :: others⟩ => ⟨global, bottom, ⟨base.insert r, []⟩ :: others⟩
  | ⟨global, bottom, ⟨base, t :: bindings⟩ :: others⟩ =>
      ⟨global, bottom, ⟨base, t.insert r :: bindings⟩ :: others⟩

/-- The maps in which names are looked for: the bindings of the newest activation from the newest
on, its base map and the global map. -/
def visible : Stack → List Table
  | ⟨global, bottom, []⟩ => bottom ++ [global]
  | ⟨global, _, ⟨base, bindings⟩ :: _⟩ => bindings ++ [base, global]

/-- The first record under a name in the maps in which names are looked for. -/
def lookup (s : Stack) (name : String) : Option Record :=
  s.visible.findSome? fun t => t name

/-- Replaces the value of a name in the first of several maps that has it. -/
def setFirst (name : String) (value : Value) : List Table → List Table
  | [] => []
  | t :: ts => if (t name).isSome then t.revalue name value :: ts else t :: setFirst name value ts

/-- Replaces the value of the record that is found under a name, and nothing else. -/
def set (name : String) (value : Value) : Stack → Stack
  | ⟨global, bottom, []⟩ =>
      if bottom.any fun t => (t name).isSome then ⟨global, setFirst name value bottom, []⟩
      else ⟨global.revalue name value, bottom, []⟩
  | ⟨global, bottom, ⟨base, bindings⟩ :: others⟩ =>
      if bindings.any fun t => (t name).isSome then
        ⟨global, bottom, ⟨base, setFirst name value bindings⟩ :: others⟩
      else if (base name).isSome then
        ⟨global, bottom, ⟨base.revalue name value, bindings⟩ :: others⟩
      else ⟨global.revalue name value, bottom, ⟨base, bindings⟩ :: others⟩

/-! ## The operations with one more map -/

theorem pop_add
    (s : Stack) (role : ScopeRole) (t : Table) :
    (s.add role t).pop = s := by
  obtain ⟨global, bottom, activations⟩ := s
  rcases activations with _ | ⟨⟨base, bindings⟩, others⟩ <;> cases bottom <;> cases role <;> rfl

theorem bind_add
    (s : Stack) (role : ScopeRole) (t : Table) (r : Record) :
    (s.add role t).bind r = s.add role (t.insert r) := by
  obtain ⟨global, bottom, activations⟩ := s
  rcases activations with _ | ⟨⟨base, bindings⟩, others⟩ <;> cases bottom <;> cases role <;> rfl

/-- The global map is the same below every further map. -/
theorem withGlobal_add
    (s : Stack) (role : ScopeRole) (t global : Table) :
    { s.add role t with global := global } = { s with global := global }.add role t := by
  obtain ⟨_, bottom, activations⟩ := s
  rcases activations with _ | ⟨⟨base, bindings⟩, others⟩ <;> cases role <;> rfl

/-- Declarations pass by binding maps. -/
theorem declare_add
    (s : Stack) (role : ScopeRole) (t : Table) (r : Record) :
    (s.add role t).declare r =
      if role = .binding then (s.declare r).add role t else s.add role (t.insert r) := by
  obtain ⟨global, bottom, activations⟩ := s
  rcases activations with _ | ⟨⟨base, bindings⟩, others⟩ <;> cases role <;> rfl

theorem global_add
    (s : Stack) (role : ScopeRole) (t : Table) :
    (s.add role t).global = s.global := by
  obtain ⟨global, bottom, activations⟩ := s
  rcases activations with _ | ⟨⟨base, bindings⟩, others⟩ <;> cases role <;> rfl

theorem lookup_add
    (s : Stack) (role : ScopeRole) (t : Table) (name : String) :
    (s.add role t).lookup name =
      (t name).or (if role = .binding then s.lookup name else s.global name) := by
  have hcons (ts : List Table) :
      (t :: ts).findSome? (fun t => t name) = (t name).or (ts.findSome? fun t => t name) := by
    rw [List.findSome?_cons]
    cases t name <;> rfl
  obtain ⟨global, bottom, activations⟩ := s
  rcases activations with _ | ⟨⟨base, bindings⟩, others⟩ <;> cases role <;>
    simp [add, lookup, visible, hcons]

theorem set_add
    (s : Stack) (role : ScopeRole) (t : Table) (name : String) (value : Value) :
    (s.add role t).set name value =
      if (t name).isSome then s.add role (t.revalue name value)
      else if role = .binding then (s.set name value).add role t
      else { s with global := s.global.revalue name value }.add role t := by
  obtain ⟨global, bottom, activations⟩ := s
  by_cases ht : (t name).isSome
  · rcases activations with _ | ⟨⟨base, bindings⟩, others⟩ <;> cases role <;>
      simp [add, set, setFirst, ht]
  · rcases activations with _ | ⟨⟨base, bindings⟩, others⟩ <;> cases role <;>
      simp [add, set, setFirst, ht] <;> split_ifs <;> rfl

/-! ## Layers as a stack of maps -/

open Scopes

/-- The stack of maps that layers on global records stand for. -/
def ofLayers (records : Records) : List Layer → Stack
  | [] => ⟨records.find?, [], []⟩
  | l :: layers => (ofLayers records layers).add l.role l.records.find?

theorem global_ofLayers
    (records : Records) (layers : List Layer) :
    (ofLayers records layers).global = records.find? := by
  induction layers with
  | nil => rfl
  | cons l layers ih => rw [ofLayers, global_add, ih]

end Stack

namespace Records

theorem find?_insert_eq
    (records : Records) (r : Record) :
    (records.insert r).find? = Table.insert records.find? r := by
  funext name
  exact find?_insert records r name

theorem find?_revalue_eq
    (records : Records) (name : String) (value : Value) :
    (Scopes.revalue name value records).find? = Table.revalue records.find? name value := by
  funext key
  rw [Scopes.revalue, Table.revalue]
  cases hfound : records.find? name with
  | none =>
      by_cases hkey : name = key
      · subst hkey
        rw [if_pos rfl, hfound]
        rfl
      · rw [if_neg hkey]
  | some r =>
      by_cases hkey : name = key
      · subst hkey
        simp [hfound]
      · simp [hkey]

end Records

namespace Scopes

/-- Scopes that consist of layers stand for the stack of the layers' maps. -/
def Represents (s : Scopes) (t : Stack) : Prop :=
  ∃ g layers, s = layered g layers ∧ t = Stack.ofLayers g.records layers

theorem represents_initial : initial.Represents .initial :=
  ⟨⟨.global, none, top, .empty⟩, [], rfl, rfl⟩

/-! ## Without layers, everything happens in the global scope -/

theorem locate?_layered_nil
    (g : Scope) (name : String) :
    (layered g []).locate? name = if (g.records.find? name).isSome then some top else none := by
  have hchain : (layered g []).chain = [top] := chainFrom_top Nat.one_pos
  rw [locate?, hchain, List.find?_singleton, recordAt?_top_layered]

theorem find?_layered_nil
    (g : Scope) (name : String) :
    (layered g []).find? name = g.records.find? name := by
  rw [find?, locate?_layered_nil]
  cases hfound : g.records.find? name with
  | none => rfl
  | some r => exact (recordAt?_top_layered g [] name).trans hfound

theorem declare_layered_nil
    (g : Scope) (r : Record) :
    (layered g []).declare r = (layered g []).declareTop r := by
  have hchain : (layered g []).chain = [top] := chainFrom_top Nat.one_pos
  have hplace : (layered g []).declarationPlace = top := by
    rw [declarationPlace, hchain, List.find?_singleton]
    split <;> rfl
  rw [declare, hplace, declareTop]

/-- Assigning to a name that nothing was declared under changes nothing, which is also what
replacing its value in the global records does. -/
theorem assign_layered_nil
    (g : Scope) (name : String) (value : Value) :
    (layered g []).assign name value = (layered g []).modifyAt top (revalue name value) := by
  rw [assign, locate?_layered_nil]
  cases hfound : g.records.find? name with
  | none =>
      have hrecords : revalue name value g.records = g.records := by
        rw [revalue, hfound]
      rw [modifyAt_top_layered, hrecords]
      rfl
  | some r => rfl

/-! ## The operations agree with those on maps -/

variable {s : Scopes} {t : Stack}

/-- A name means in layers what it means in their maps. -/
theorem Represents.find?_eq
    (h : s.Represents t) (name : String) :
    s.find? name = t.lookup name := by
  obtain ⟨g, layers, rfl, rfl⟩ := h
  induction layers with
  | nil =>
      rw [find?_layered_nil]
      cases hfound : g.records.find? name <;>
        simp [Stack.ofLayers, Stack.lookup, Stack.visible, hfound]
  | cons l layers ih =>
      rw [layered_cons, find?_add (current_lt_layered g layers), Stack.ofLayers, Stack.lookup_add,
        ih, recordAt?_top_layered, Stack.global_ofLayers]

theorem Represents.add
    (h : s.Represents t) (l : Layer) :
    (s.add l).Represents (t.add l.role l.records.find?) := by
  obtain ⟨g, layers, rfl, rfl⟩ := h
  exact ⟨g, l :: layers, rfl, rfl⟩

theorem Represents.push
    (h : s.Represents t) (role : ScopeRole) :
    (s.push role).Represents (t.push role) :=
  h.add ⟨role, .empty⟩

theorem Represents.pop
    (h : s.Represents t) :
    s.pop.Represents t.pop := by
  obtain ⟨g, layers, rfl, rfl⟩ := h
  cases layers with
  | nil => exact ⟨g, [], rfl, rfl⟩
  | cons l layers => exact ⟨g, layers, pop_layered g l layers, Stack.pop_add _ _ _⟩

/-- A change of the global records is one of the global map. -/
theorem Represents.modifyTop
    (h : s.Represents t) (f : Records → Records) (f' : Table → Table)
    (hf : ∀ records, (f records).find? = f' records.find?) :
    (s.modifyAt top f).Represents { t with global := f' t.global } := by
  obtain ⟨g, layers, rfl, rfl⟩ := h
  refine ⟨{ g with records := f g.records }, layers, modifyAt_top_layered g layers f, ?_⟩
  rw [Stack.global_ofLayers, ← hf]
  induction layers with
  | nil => rfl
  | cons l layers ih => rw [Stack.ofLayers, Stack.withGlobal_add, ih, Stack.ofLayers]

theorem Represents.declareTop
    (h : s.Represents t) (r : Record) :
    (s.declareTop r).Represents (t.declareGlobal r) :=
  h.modifyTop (·.insert r) (·.insert r) fun records => records.find?_insert_eq r

theorem Represents.bind
    (h : s.Represents t) (r : Record) :
    (s.bindHere r).Represents (t.bind r) := by
  obtain ⟨g, layers, rfl, rfl⟩ := h
  cases layers with
  | nil =>
      have hglobal : (layered g []).Represents (.ofLayers g.records []) := ⟨g, [], rfl, rfl⟩
      exact hglobal.declareTop r
  | cons l layers =>
      refine ⟨g, { l with records := l.records.insert r } :: layers, bindHere_layered g l layers r,
        ?_⟩
      rw [Stack.ofLayers, Stack.bind_add, Stack.ofLayers, Records.find?_insert_eq]

theorem Represents.declare
    (h : s.Represents t) (r : Record) :
    (s.declare r).Represents (t.declare r) := by
  obtain ⟨g, layers, rfl, rfl⟩ := h
  induction layers with
  | nil =>
      have hglobal : (layered g []).Represents (.ofLayers g.records []) := ⟨g, [], rfl, rfl⟩
      rw [declare_layered_nil]
      exact hglobal.declareTop r
  | cons l layers ih =>
      rw [layered_cons, declare_add (current_lt_layered g layers), Stack.ofLayers,
        Stack.declare_add]
      by_cases hrole : l.role = .binding
      · rw [if_pos hrole, if_pos hrole]
        exact ih.add l
      · rw [if_neg hrole, if_neg hrole, ← Records.find?_insert_eq]
        exact ⟨g, { l with records := l.records.insert r } :: layers, rfl, rfl⟩

theorem Represents.assign
    (h : s.Represents t) (name : String) (value : Value) :
    (s.assign name value).Represents (t.set name value) := by
  obtain ⟨g, layers, rfl, rfl⟩ := h
  induction layers with
  | nil =>
      have hglobal : (layered g []).Represents (.ofLayers g.records []) := ⟨g, [], rfl, rfl⟩
      rw [assign_layered_nil]
      exact hglobal.modifyTop (revalue name value) (·.revalue name value)
        fun records => records.find?_revalue_eq name value
  | cons l layers ih =>
      rw [Stack.ofLayers, Stack.set_add]
      by_cases hfound : (l.records.find? name).isSome
      · rw [assign_layered_of_isSome hfound, if_pos hfound, ← Records.find?_revalue_eq]
        exact ⟨g, { l with records := revalue name value l.records } :: layers, rfl, rfl⟩
      · rw [if_neg hfound]
        by_cases hrole : l.role = .binding
        · rw [layered_cons, assign_add (current_lt_layered g layers), if_neg hfound, if_pos hrole,
            if_pos hrole]
          exact ih.add l
        · have hbelow : (layered g layers).Represents (.ofLayers g.records layers) :=
            ⟨g, layers, rfl, rfl⟩
          have hset := hbelow.modifyTop (revalue name value) (·.revalue name value)
            fun records => records.find?_revalue_eq name value
          rw [assign_layered_of_not_binding hfound hrole, if_neg hrole, layered_cons,
            ← modifyAt_top_layered]
          exact hset.add l

/-! ## Sequences of operations -/

/-- The operations on scopes. -/
inductive Operation where
  | push (role : ScopeRole)
  | pop
  | declare (r : Record)
  | declareGlobal (r : Record)
  | bind (r : Record)
  | lookup (name : String)
  | set (name : String) (value : Value)

/-- An operation on scopes, with the record that it finds.  For an assignment, this is the record
after it. -/
def Operation.onScopes : Operation → Scopes → Option Record × Scopes
  | push role, s => (none, s.push role)
  | pop, s => (none, s.pop)
  | declare r, s => (none, s.declare r)
  | declareGlobal r, s => (none, s.declareTop r)
  | bind r, s => (none, s.bindHere r)
  | lookup name, s => (s.find? name, s)
  | set name value, s => ((s.assign name value).find? name, s.assign name value)

/-- An operation on a stack of maps, with the record that it finds. -/
def Operation.onStack : Operation → Stack → Option Record × Stack
  | push role, t => (none, t.push role)
  | pop, t => (none, t.pop)
  | declare r, t => (none, t.declare r)
  | declareGlobal r, t => (none, t.declareGlobal r)
  | bind r, t => (none, t.bind r)
  | lookup name, t => (t.lookup name, t)
  | set name value, t => ((t.set name value).lookup name, t.set name value)

/-- What a sequence of operations finds, one after the other. -/
def answers {σ : Type} (act : Operation → σ → Option Record × σ) :
    List Operation → σ → List (Option Record)
  | [], _ => []
  | op :: ops, s => (act op s).1 :: answers act ops (act op s).2

/-- One operation finds the same in scopes and in the stack they stand for, and leaves scopes that
stand for the stack it leaves. -/
theorem Represents.operation
    (h : s.Represents t) (op : Operation) :
    (op.onScopes s).1 = (op.onStack t).1 ∧ (op.onScopes s).2.Represents (op.onStack t).2 := by
  cases op with
  | push role => exact ⟨rfl, h.push role⟩
  | pop => exact ⟨rfl, h.pop⟩
  | declare r => exact ⟨rfl, h.declare r⟩
  | declareGlobal r => exact ⟨rfl, h.declareTop r⟩
  | bind r => exact ⟨rfl, h.bind r⟩
  | lookup name => exact ⟨h.find?_eq name, h⟩
  | set name value =>
      have hset := h.assign name value
      exact ⟨hset.find?_eq name, hset⟩

theorem Represents.answers_eq
    (h : s.Represents t) (ops : List Operation) :
    answers Operation.onScopes ops s = answers Operation.onStack ops t := by
  induction ops generalizing s t with
  | nil => rfl
  | cons op ops ih =>
      obtain ⟨hfirst, hafter⟩ := h.operation op
      rw [answers, answers, hfirst, ih hafter]

/-- Scopes are a stack of maps.  Any sequence of additions, removals, declarations, bindings,
look-ups and assignments, with as many removals as one likes, finds the same records in scopes
that start out empty and in a stack of maps that does. -/
theorem scopes_answer_as_stack
    (ops : List Operation) :
    answers Operation.onScopes ops .initial = answers Operation.onStack ops .initial :=
  represents_initial.answers_eq ops

end Scopes
end ColonScript
