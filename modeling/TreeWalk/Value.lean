import TreeWalk.Token.Basic

/-!
The values of the language: numbers, strings, booleans and nil; which of them count as true,
when two are equal, and how they are shown.
-/
set_option autoImplicit false

namespace TreeWalk

inductive Value where
  | number (value : Float)
  | text (value : String)
  | boolean (value : Bool)
  | nil
  deriving DecidableEq

inductive ValueKind where
  | number
  | string
  | boolean
  | nil
  deriving DecidableEq, Repr

def ValueKind.name : ValueKind → String
  | .number => "Number"
  | .string => "String"
  | .boolean => "Boolean"
  | .nil => "Nil"

namespace Value

def kind : Value → ValueKind
  | number _ => .number
  | text _ => .string
  | boolean _ => .boolean
  | nil => .nil

def isTruthy : Value → Bool
  | nil => false
  | boolean value => value
  | _ => true

/-- Numbers are equal as IEEE 754 has it: NaN differs from itself, and both zeros are equal. -/
def equals : Value → Value → Bool
  | number left, number right => left == right
  | text left, text right => left = right
  | boolean left, boolean right => left = right
  | nil, nil => true
  | _, _ => false

/-- Whole numbers are shown without a fraction, and text without quotation marks. -/
def display : Value → String
  | number value => Number.shownText value
  | text value => value
  | boolean true => "true"
  | boolean false => "false"
  | nil => "nil"

def ofLiteral : Literal → Value
  | .number value => number value
  | .text value => text value

end Value

end TreeWalk
