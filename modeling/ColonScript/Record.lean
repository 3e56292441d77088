import ColonScript.Value

/-!
# Records

A record is a named slot with a kind and a value.  The records of a scope are kept under their
names; writing a name again replaces what was there.
-/

namespace ColonScript

/-- A named slot with a kind and a value. -/
structure Record where
  kind : Kind
  name : String
  value : Value

/-- Records under names. -/
structure Records where
  entries : List (String × Record)

namespace Records

/-- No records. -/
def empty : Records :=
  ⟨[]⟩

/-- The first entry under a name. -/
def findEntry? (name : String) : List (String × Record) → Option Record
  | [] => none
  | (key, r) :: rest => if key = name then some r else findEntry? name rest

/-- Replaces the first entry under a name, or adds one. -/
def putEntry (name : String) (r : Record) : List (String × Record) → List (String × Record)
  | [] => [(name, r)]
  | (key, old) :: rest =>
      if key = name then (key, r) :: rest else (key, old) :: putEntry name r rest

/-- The record under a name. -/
def find? (records : Records) (name : String) : Option Record :=
  findEntry? name records.entries

/-- Writes a record under a name. -/
def put (records : Records) (name : String) (r : Record) : Records :=
  ⟨putEntry name r records.entries⟩

/-- Writes a record under its own name. -/
def insert (records : Records) (r : Record) : Records :=
  records.put r.name r

@[simp]
theorem find?_empty
    (name : String) :
    empty.find? name = none :=
  rfl

theorem findEntry?_putEntry
    (name : String) (r : Record) (key : String) (entries : List (String × Record)) :
    findEntry? key (putEntry name r entries) =
      if name = key then some r else findEntry? key entries := by
  induction entries with
  | nil => simp [putEntry, findEntry?]
  | cons entry rest ih =>
      obtain ⟨first, old⟩ := entry
      by_cases hname : first = name
      · subst hname
        by_cases hkey : first = key <;> simp [putEntry, findEntry?, hkey]
      · by_cases hkey : first = key
        · subst hkey
          simp [putEntry, findEntry?, hname, Ne.symm hname]
        · simp [putEntry, findEntry?, hname, hkey, ih]

/-- After a write, its name has what was written and all other names have what they had. -/
@[simp]
theorem find?_put
    (records : Records) (name : String) (r : Record) (key : String) :
    (records.put name r).find? key = if name = key then some r else records.find? key :=
  findEntry?_putEntry name r key records.entries

@[simp]
theorem find?_insert
    (records : Records) (r : Record) (key : String) :
    (records.insert r).find? key = if r.name = key then some r else records.find? key :=
  find?_put records r.name r key

end Records
end ColonScript
