import ColonScript.Decimal.Layout
import ColonScript.Syntax.Equality
import ColonScript.Token

/-!
# Values

A value is a number, a text, a boolean, an array or a function.  A function value is a record
with an identity: two declarations with the same text are different functions.
-/

namespace ColonScript

/-- How many arguments a native accepts. -/
inductive Arity where
  | exactly (n : Nat)
  | atLeast (n : Nat)
deriving DecidableEq, Repr

/-- Tests whether a number of arguments is accepted. -/
def Arity.accepts : Arity → Nat → Bool
  | exactly n, count => count = n
  | atLeast n, count => n ≤ count

/-- The routines that natives are made of. -/
inductive Routine where
  /-- Prints its arguments. -/
  | shon
  /-- Appends to an array variable. -/
  | push
  /-- Takes an element of an array. -/
  | index
  /-- Gives the names its arguments were read from. -/
  | bindings
  /-- Looks at the variable its first argument names. -/
  | peek
  /-- Appends to the array variable its first argument names. -/
  | pushTo
  /-- Prints how and where it was called. -/
  | say
deriving DecidableEq, Repr

/-- A function declared in source text. -/
structure UserFunction where
  name : String
  parameters : List Parameter
  body : List Statement
  line : Nat

/-- A function provided by the host. -/
structure NativeFunction where
  name : String
  arity : Arity
  routine : Routine
deriving DecidableEq

/-- What a function value holds. -/
inductive Function where
  | user (function : UserFunction)
  | native (function : NativeFunction)

/-- The name under which a function was declared or registered. -/
def Function.name : Function → String
  | user f => f.name
  | native f => f.name

/-- Equality of what two functions hold.  Natives are known by name and arity. -/
def Function.same : Function → Function → Bool
  | user f, user g =>
      f.name == g.name && f.parameters == g.parameters && Statement.sameList f.body g.body &&
        f.line == g.line
  | native f, native g => f.name == g.name && f.arity == g.arity
  | _, _ => false

/-- Values of the running program.  A function value carries the identity of its record. -/
inductive Value where
  | number (value : Float)
  | text (content : String)
  | boolean (value : Bool)
  | array (elements : List Value)
  | function (identity : Nat) (record : Function)

/-- The value of a constant. -/
def Literal.value : Literal → Value
  | number n => .number n
  | text s => .text s
  | boolean b => .boolean b

namespace Value

/-- The kind of a value. -/
def kind : Value → Kind
  | number _ => .num
  | text _ => .str
  | boolean _ => .bool
  | array _ => .arr
  | function _ _ => .fn

mutual

/-- The text that shows a value: numbers written out, texts as they are, arrays in brackets. -/
def display : Value → String
  | .number n => Decimal.Layout.plain.text n
  | .text s => s
  | .boolean b => boolWord b
  | .array es => "[" ++ String.intercalate ", " (displayEach es) ++ "]"
  | .function _ f => "<fn " ++ f.name ++ ">"

/-- The texts that show the values of a list. -/
def displayEach : List Value → List String
  | [] => []
  | v :: vs => v.display :: displayEach vs

end

mutual

/-- Equality of values.  Numbers compare as numbers, arrays element by element and functions by
identity; values of different kinds are different.  Arrays of different lengths are told apart
before any element is looked at, since an element that occurs in many places may take long to
compare. -/
def equal : Value → Value → Bool
  | .number a, .number b => a == b
  | .text a, .text b => a == b
  | .boolean a, .boolean b => a == b
  | .array as, .array bs => as.length == bs.length && equalEach as bs
  | .function i _, .function j _ => i == j
  | _, _ => false

/-- Equality of lists of values. -/
def equalEach : List Value → List Value → Bool
  | [], [] => true
  | a :: as, b :: bs => a.equal b && equalEach as bs
  | _, _ => false

end

/-- Lists of equal values have the same length. -/
theorem length_eq_of_equalEach
    {as bs : List Value} (h : equalEach as bs = true) :
    as.length = bs.length := by
  induction as generalizing bs with
  | nil =>
      cases bs with
      | nil => rfl
      | cons b bs => simp [equalEach] at h
  | cons a as ih =>
      cases bs with
      | nil => simp [equalEach] at h
      | cons b bs =>
          simp only [equalEach, Bool.and_eq_true] at h
          simp [ih h.2]

/-- Two arrays are equal when their elements are, one by one. -/
theorem equal_array
    (as bs : List Value) :
    (array as).equal (array bs) = equalEach as bs := by
  by_cases h : as.length = bs.length
  · simp [equal, h]
  · have hne : equalEach as bs ≠ true := fun heq => h (length_eq_of_equalEach heq)
    simp [equal, hne]

end Value
end ColonScript
