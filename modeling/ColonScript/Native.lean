import ColonScript.Decimal.Reading
import ColonScript.Machine
import ColonScript.Text.Blank
import ColonScript.Value.Conversion

/-!
# Natives

The functions that the host provides.  A native sees the values of its arguments, the names of
those that were written as bare names, the records visible where it is called, and the output.

Every program has the natives `shon`, `push` and `index` (`standardNatives`).  A host may register
more of them; the routines `bindings`, `peek`, `pushTo` and `say` are natives of this sort, one for
each of the things that a native can see or do.
-/

namespace ColonScript

/-- An argument of a native: its value, and the name it was read from if it was written as a
bare name. -/
structure Argument where
  value : Value
  binding : Option String

namespace Native

/-- A text that reads as a finite number, blanks at its ends aside, is appended as that number;
every other value as it is. -/
def coerce : Value → Value
  | .text s =>
      match Decimal.readFinite? (Text.trimBlanks s.toList) with
      | some n => .number n
      | none => .text s
  | v => v

/-- Prints the texts of all arguments with spaces between them. -/
def shon (line : Nat) (arguments : List Argument) : Run (Option Value) := do
  Run.print line (String.intercalate " " (arguments.map fun a => a.value.display))
  return none

/-- Appends the second argument to the array that the first one names.  The name is looked up
when the append is made, not when the arguments are evaluated. -/
def push (line : Nat) : List Argument → Run (Option Value)
  | [target, item] => do
      match target.binding with
      | none => Run.fail line .unnamedTarget
      | some name =>
          let m ← get
          match m.valueOf? name with
          | none => Run.fail line (.unknownVariable name)
          | some (.array elements) =>
              set (m.mapScopes (·.assign name (.array (elements ++ [coerce item.value]))))
              return none
          | some _ => Run.fail line .expectedArray
  | arguments => Run.fail line (.argumentCount "push" arguments.length)

theorem push_named
    (line : Nat) (v : Value) (name : String) (item : Argument) (m : Machine) :
    push line [⟨v, some name⟩, item] m =
      match m.valueOf? name with
      | none => .error ⟨.unknownVariable name, line⟩ m
      | some (.array elements) =>
          .ok none (m.mapScopes (·.assign name (.array (elements ++ [coerce item.value]))))
      | some _ => .error ⟨.expectedArray, line⟩ m := by
  change (match m.valueOf? name with
    | none => _
    | some (.array elements) => _
    | some _ => _ : Run (Option Value)) m = _
  generalize m.valueOf? name = found
  cases found with
  | none => rfl
  | some v => cases v <;> rfl

/-- The element at a position, counted from zero. -/
def elementAt (line : Nat) (elements : List Value) (position : Int) : Except RunError Value :=
  match if 0 ≤ position then elements[position.toNat]? else none with
  | some v => .ok v
  | none => .error ⟨.indexOutOfBounds elements.length position, line⟩

/-- Takes the element of the first argument at the position given by the second. -/
def index (line : Nat) : List Argument → Run (Option Value)
  | [array, position] => do
      let elements ← Run.lift (array.value.asElements line)
      let i ← Run.lift (position.value.asInteger line)
      return some (← Run.lift (elementAt line elements i))
  | arguments => Run.fail line (.argumentCount "index" arguments.length)

/-- Gives the names the arguments were read from, empty for those without one. -/
def bindings (arguments : List Argument) : Run (Option Value) :=
  return some (.array (arguments.map fun a => .text (a.binding.getD "")))

/-- Gives kind and value of the record that the first argument's text names, if there is one. -/
def peek (arguments : List Argument) : Run (Option Value) := do
  let name := (arguments.head?.map fun a => a.value.display).getD ""
  return ((← get).scopes.find? name).map fun r => .array [.text r.kind.word, r.value]

/-- Appends to the array that the first argument's text names. -/
def pushTo (line : Nat) : List Argument → Run (Option Value)
  | target :: others => push line (⟨target.value, some target.value.display⟩ :: others)
  | [] => push line []

/-- Prints the number of arguments and the line, and gives the number. -/
def say (line : Nat) (arguments : List Argument) : Run (Option Value) := do
  let count := arguments.length
  Run.print line ("say " ++ toString count ++ " on line " ++ toString line)
  return some (.number (Float.ofNat count))

end Native

/-- Runs a routine. -/
def Routine.run : Routine → Nat → List Argument → Run (Option Value)
  | shon, line, arguments => Native.shon line arguments
  | push, line, arguments => Native.push line arguments
  | index, line, arguments => Native.index line arguments
  | bindings, _, arguments => Native.bindings arguments
  | peek, _, arguments => Native.peek arguments
  | pushTo, line, arguments => Native.pushTo line arguments
  | say, line, arguments => Native.say line arguments

/-- The natives that every program can use. -/
def standardNatives : List NativeFunction :=
  [⟨"shon", .atLeast 1, .shon⟩, ⟨"push", .exactly 2, .push⟩, ⟨"index", .exactly 2, .index⟩]

namespace Machine

/-- Makes a native available under its name. -/
def provide (native : NativeFunction) (m : Machine) : Machine :=
  let (value, m) := m.newFunction (.native native)
  m.mapScopes (·.declare ⟨.fn, native.name, value⟩)

/-- The machine in which sessions start. -/
def initial : Machine :=
  standardNatives.foldl (fun m native => m.provide native) ⟨.initial, ⟨true, #[]⟩, 0, 0⟩

end Machine
end ColonScript
