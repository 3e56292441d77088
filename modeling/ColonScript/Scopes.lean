import ColonScript.Record

/-!
# Scopes

Scopes live in a row, oldest first.  The first is the global scope; a call adds a frame and an
iteration of a loop adds a binding scope, and scopes leave in the opposite order.  Each scope
has a parent, where a name is looked for next: a frame leads straight to the global scope, a
binding scope to the scope around it.
-/

namespace ColonScript

/-- What a scope was made for. -/
inductive ScopeRole where
  | global
  | frame
  | binding
deriving DecidableEq, Repr

/-- A scope: what it is for, where names are looked for next, the scope to resume when it
leaves, and its records. -/
structure Scope where
  role : ScopeRole
  parent : Option Nat
  resume : Nat
  records : Records

/-- The scopes that are alive, and the current one. -/
structure Scopes where
  row : Array Scope
  current : Nat

namespace Scopes

/-- The place of the global scope. -/
def top : Nat := 0

/-- An empty global scope. -/
def initial : Scopes :=
  ⟨#[⟨.global, none, top, .empty⟩], top⟩

/-- The parent that a new scope gets. -/
def parentFor (s : Scopes) : ScopeRole → Nat
  | .frame | .global => top
  | .binding => s.current

/-- Adds a scope and makes it current. -/
def push (s : Scopes) (role : ScopeRole) : Scopes :=
  let place := s.row.size
  { row := s.row.push ⟨role, some (s.parentFor role), s.current, .empty⟩
    current := place }

/-- Removes the newest scope and resumes the one before it.  The last scope stays. -/
def pop (s : Scopes) : Scopes :=
  if s.row.size ≤ 1 then s
  else
    match s.row.back? with
    | some scope => ⟨s.row.pop, scope.resume⟩
    | none => s

/-- The places in which a name is looked for, from one on over its parents. -/
def chainFrom (row : Array Scope) (place : Nat) : List Nat :=
  match row[place]? with
  | none => []
  | some scope =>
      match scope.parent with
      | none => [place]
      | some parent => if parent < place then place :: chainFrom row parent else [place]
termination_by place

/-- The places in which a name is looked for, innermost first. -/
def chain (s : Scopes) : List Nat :=
  chainFrom s.row s.current

/-- The record under a name in one scope. -/
def recordAt? (s : Scopes) (name : String) (place : Nat) : Option Record :=
  s.row[place]?.bind fun scope => scope.records.find? name

/-- The place of the record that a name means. -/
def locate? (s : Scopes) (name : String) : Option Nat :=
  s.chain.find? fun place => (s.recordAt? name place).isSome

/-- The record that a name means. -/
def find? (s : Scopes) (name : String) : Option Record :=
  (s.locate? name).bind (s.recordAt? name)

/-- Changes the records of one scope. -/
def modifyAt (s : Scopes) (place : Nat) (f : Records → Records) : Scopes :=
  { s with row := s.row.modify place fun scope => { scope with records := f scope.records } }

/-- Replaces the value under a name in some records. -/
def revalue (name : String) (value : Value) (records : Records) : Records :=
  match records.find? name with
  | some r => records.put name { r with value := value }
  | none => records

/-- Replaces the value of the record that a name means. -/
def assign (s : Scopes) (name : String) (value : Value) : Scopes :=
  match s.locate? name with
  | some place => s.modifyAt place (revalue name value)
  | none => s

/-- A place holds a binding scope. -/
def isBinding (s : Scopes) (place : Nat) : Bool :=
  match s.row[place]? with
  | some scope => scope.role = .binding
  | none => false

/-- The place that declarations go to: the innermost scope that is no binding scope. -/
def declarationPlace (s : Scopes) : Nat :=
  (s.chain.find? fun place => !s.isBinding place).getD top

/-- Writes a declaration past all binding scopes, so that it outlives the iteration of a loop
around it. -/
def declare (s : Scopes) (r : Record) : Scopes :=
  s.modifyAt s.declarationPlace (·.insert r)

/-- Writes a declaration into the global scope. -/
def declareTop (s : Scopes) (r : Record) : Scopes :=
  s.modifyAt top (·.insert r)

/-- Writes a record into the current scope. -/
def bindHere (s : Scopes) (r : Record) : Scopes :=
  s.modifyAt s.current (·.insert r)

/-- Roles and links of all scopes, which decide where names are looked for. -/
def shape (s : Scopes) : Array (ScopeRole × Option Nat × Nat) :=
  s.row.map fun scope => (scope.role, scope.parent, scope.resume)

@[simp]
theorem current_modifyAt
    (s : Scopes) (place : Nat) (f : Records → Records) :
    (s.modifyAt place f).current = s.current :=
  rfl

@[simp]
theorem size_modifyAt
    (s : Scopes) (place : Nat) (f : Records → Records) :
    (s.modifyAt place f).row.size = s.row.size := by
  simp [modifyAt]

@[simp]
theorem shape_modifyAt
    (s : Scopes) (place : Nat) (f : Records → Records) :
    (s.modifyAt place f).shape = s.shape := by
  apply Array.ext
  · simp [shape, modifyAt]
  · intro i h₁ h₂
    simp only [shape, modifyAt, Array.getElem_map, Array.getElem_modify]
    split <;> rfl

@[simp]
theorem size_push
    (s : Scopes) (role : ScopeRole) :
    (s.push role).row.size = s.row.size + 1 := by
  simp [push]

@[simp]
theorem current_push
    (s : Scopes) (role : ScopeRole) :
    (s.push role).current = s.row.size :=
  rfl

/-- Removing a scope that was just added gives back the scopes below it. -/
theorem pop_push
    (s : Scopes) (role : ScopeRole) (h : 0 < s.row.size) :
    (s.push role).pop = s := by
  have hsize : ¬ (s.push role).row.size ≤ 1 := by
    rw [size_push]
    omega
  rw [pop, if_neg hsize]
  simp [push]

end Scopes
end ColonScript
