/-!
# Kinds

The five kinds of values.  A kind opens every declaration, annotates every parameter and is
recorded with every stored variable.
-/

namespace ColonScript

/-- The kinds of values and declarations. -/
inductive Kind where
  | fn
  | num
  | str
  | arr
  | bool
deriving DecidableEq, Repr

namespace Kind

/-- The word that names a kind in source text and in messages. -/
def word : Kind → String
  | fn => "fn"
  | num => "num"
  | str => "str"
  | arr => "arr"
  | bool => "bool"

/-- What a kind asks for, as worded in messages. -/
def requirement : Kind → String
  | fn => "a function"
  | num => "a valid number"
  | str => "a valid string"
  | arr => "an array"
  | bool => "a boolean"

end Kind
end ColonScript
