import TreeWalk.Syntax.Parser

/-!
Reading expressions. Binary operators stand on a ladder of rungs, the loosest first; each rung
is a chain of operands from the rung above it and groups to the left. Prefix operators and
assignments group to the right.
-/
set_option autoImplicit false

namespace TreeWalk

structure Rung where
  operators : List Kind
  node : Expr → Token → Expr → Expr

def Rung.ladder : List Rung :=
  [ ⟨[.keyOr], .logical⟩,
    ⟨[.keyAnd], .logical⟩,
    ⟨[.bangEqual, .equalEqual], .binary⟩,
    ⟨[.greater, .greaterEqual, .less, .lessEqual], .binary⟩,
    ⟨[.minus, .plus], .binary⟩,
    ⟨[.slash, .star], .binary⟩ ]

namespace Rule

/-- Extends `left` by at most `count` operators of a rung, each with its operand. -/
def chain (rung : Rung) (operand : Rule Expr) : Nat → Expr → Rule Expr
  | 0, left => pure left
  | count + 1, left => do
    match ← accept? rung.operators with
    | none => pure left
    | some operator => do
      let right ← operand
      chain rung operand count (rung.node left operator right)

def climb : List Rung → Rule Expr → Rule Expr
  | [], operand => operand
  | rung :: tighter, operand => do
    let left ← climb tighter operand
    chain rung (climb tighter operand) (← bound) left

def prefixed (operand : Rule Expr) : Nat → Rule Expr
  | 0 => operand
  | count + 1 => do
    match ← accept? [.bang, .minus] with
    | none => operand
    | some operator => do
      let right ← prefixed operand count
      pure (.unary operator right)

/-- The value of a leaf; a number or string without one stands for nil. -/
def leafValue? (token : Token) : Option Value :=
  match token.kind with
  | .keyFalse => some (.boolean false)
  | .keyTrue => some (.boolean true)
  | .keyNil => some .nil
  | .number | .string => some ((token.literal.map Value.ofLiteral).getD .nil)
  | _ => none

def primary (inner : Rule Expr) : Rule Expr := do
  let token ← peek
  match leafValue? token with
  | some value => do
    step
    pure (.literal value token.span)
  | none =>
    match token.kind with
    | .identifier => do
      step
      pure (.reference token)
    | .leftParen => do
      step
      let expr ← inner
      let _ ← expect .rightParen "after expression"
      pure (.grouping expr)
    | _ => fail .expectedExpression

/-- An assignment to a name. Anything else in front of the equals sign is noted as a mistake
and stands for the whole. -/
def assigned (target : Expr) (equals : Token) (value : Expr) : Rule Expr :=
  match target with
  | .reference name => pure (.assign name value)
  | other => do
    note ⟨.invalidAssignmentTarget, equals⟩
    pure other

def expressionWithin : Nat → Rule Expr
  | 0 => fail .expectedExpression
  | depth + 1 => do
    let operand := do prefixed (primary (expressionWithin depth)) (← bound)
    let target ← climb Rung.ladder operand
    match ← accept? [.equal] with
    | none => pure target
    | some equals => do
      let value ← expressionWithin depth
      assigned target equals value

def expression : Rule Expr := do expressionWithin (← bound)

end Rule

end TreeWalk
