import TreeWalk.Environment
import TreeWalk.Fault
import TreeWalk.Syntax.Tree

/-!
The value of an expression. Operands are evaluated from left to right and before either is
looked at; only an assignment changes the environment.
-/
set_option autoImplicit false

namespace TreeWalk

inductive Halt where
  | fault (fault : Fault)
  /-- A binary node with an operator that no rung of the grammar has. -/
  | stuck (operator : Token)
  | exhausted
  deriving DecidableEq

def Halt.raise (cause : FaultCause) (token : Token) : Halt := .fault ⟨cause, token⟩

namespace Operator

/-- Every operator but the negation of truth asks for a number. -/
def applyUnary (operator : Token) (right : Value) : Except Halt Value :=
  match operator.kind, right with
  | .bang, right => .ok (.boolean !right.isTruthy)
  | .minus, .number value => .ok (.number (-value))
  | _, right => .error (.raise (.operandMustBeNumber right.kind) operator)

/-- Two numbers are added; texts, or a text and a number, are joined as they are shown. -/
def add (operator : Token) (left right : Value) : Except Halt Value :=
  match left, right with
  | .number left, .number right => .ok (.number (left + right))
  | .text left, .text right => .ok (.text (left ++ right))
  | .text left, .number right => .ok (.text (left ++ Number.shownText right))
  | .number left, .text right => .ok (.text (Number.shownText left ++ right))
  | left, right => .error (.raise (.invalidAddition left.kind right.kind) operator)

def arithmetic (operator : Token) (left right : Float) : Except Halt Value :=
  match operator.kind with
  | .greater => .ok (.boolean (right < left))
  | .greaterEqual => .ok (.boolean (right ≤ left))
  | .less => .ok (.boolean (left < right))
  | .lessEqual => .ok (.boolean (left ≤ right))
  | .minus => .ok (.number (left - right))
  | .star => .ok (.number (left * right))
  | .slash =>
    if right == 0 then .error (.raise .divisionByZero operator) else .ok (.number (left / right))
  | _ => .error (.stuck operator)

def applyBinary (operator : Token) (left right : Value) : Except Halt Value :=
  match operator.kind with
  | .equalEqual => .ok (.boolean (left.equals right))
  | .bangEqual => .ok (.boolean !(left.equals right))
  | .plus => add operator left right
  | _ =>
    match left, right with
    | .number left, .number right => arithmetic operator left right
    | left, right => .error (.raise (.operandsMustBeNumbers left.kind right.kind) operator)

/-- Whether a logical operator leaves its right operand alone. -/
def stopsAt (operator : Token) (left : Value) : Bool :=
  if operator.kind = .keyOr then left.isTruthy else !left.isTruthy

end Operator

abbrev Evaluation (α : Type) := EStateM Halt Environment α

namespace Evaluation

def ofExcept {α : Type} : Except Halt α → Evaluation α
  | .ok value => fun environment => .ok value environment
  | .error halt => fun environment => .error halt environment

def read (name : Token) : Evaluation Value := fun environment =>
  match environment.get? name.lexeme with
  | some value => .ok value environment
  | none => .error (.raise (.undefinedVariable name.lexeme) name) environment

def write (name : Token) (value : Value) : Evaluation Unit := fun environment =>
  match environment.assign? name.lexeme value with
  | some changed => .ok () changed
  | none => .error (.raise (.undefinedVariable name.lexeme) name) environment

end Evaluation

def Expr.evaluate : Expr → Evaluation Value
  | literal value _ => pure value
  | grouping inner => inner.evaluate
  | reference name => Evaluation.read name
  | assign name value => do
    let value ← value.evaluate
    Evaluation.write name value
    pure value
  | unary operator right => do
    let right ← right.evaluate
    Evaluation.ofExcept (Operator.applyUnary operator right)
  | logical left operator right => do
    let left ← left.evaluate
    if Operator.stopsAt operator left then pure left else right.evaluate
  | binary left operator right => do
    let left ← left.evaluate
    let right ← right.evaluate
    Evaluation.ofExcept (Operator.applyBinary operator left right)

end TreeWalk
