import TreeWalk.IoFailure
import TreeWalk.Value

/-!
What can go wrong while a program runs, the token that raised it, and how it is told.
-/
set_option autoImplicit false

namespace TreeWalk

inductive FaultCause where
  | operandMustBeNumber (found : ValueKind)
  | operandsMustBeNumbers (left right : ValueKind)
  | invalidAddition (left right : ValueKind)
  | divisionByZero
  | undefinedVariable (name : String)
  | outputFailed (failure : IoFailure)
  deriving DecidableEq, Repr

structure Fault where
  cause : FaultCause
  token : Token
  deriving DecidableEq

def FaultCause.message : FaultCause → String
  | operandMustBeNumber _ => "Operand must be a number."
  | operandsMustBeNumbers _ _ => "Operands must be numbers."
  | invalidAddition _ _ => "Operands must be two numbers or two strings."
  | divisionByZero => "Cannot divide by zero."
  | undefinedVariable name => "Undefined variable '" ++ name ++ "'."
  | outputFailed failure => "Output failed: " ++ failure.message ++ "."

namespace Fault

def display (fault : Fault) : String :=
  fault.cause.message ++ "\n[line " ++ toString fault.token.line ++ "]"

/-- The text beside the marked token. -/
def label (fault : Fault) : String :=
  match fault.cause with
  | .undefinedVariable _ => "not defined in any enclosing scope"
  | .divisionByZero => "right operand is zero"
  | .outputFailed _ => "while printing this"
  | .operandMustBeNumber _ | .operandsMustBeNumbers _ _ | .invalidAddition _ _ =>
    "`" ++ fault.token.lexeme ++ "` applied here"

def foundBoth (left right : ValueKind) : String :=
  "Found `" ++ left.name ++ "` and `" ++ right.name ++ "`"

def notes (fault : Fault) : List String :=
  match fault.cause with
  | .operandMustBeNumber found => ["Found `" ++ found.name ++ "`"]
  | .operandsMustBeNumbers left right => [foundBoth left right]
  | .invalidAddition left right => [foundBoth left right]
  | .divisionByZero | .undefinedVariable _ | .outputFailed _ => []

end Fault

end TreeWalk
