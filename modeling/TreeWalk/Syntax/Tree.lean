import TreeWalk.Value

/-!
Syntax trees. Operators and names keep their token, so that a fault can be told at the place
that raised it; an expression knows the part of the source that it was read from.
-/
set_option autoImplicit false

namespace TreeWalk

inductive Expr where
  | literal (value : Value) (span : Span)
  | grouping (inner : Expr)
  | unary (operator : Token) (right : Expr)
  | binary (left : Expr) (operator : Token) (right : Expr)
  | logical (left : Expr) (operator : Token) (right : Expr)
  | reference (name : Token)
  | assign (name : Token) (value : Expr)
  deriving DecidableEq

inductive Stmt where
  | expression (expr : Expr)
  | print (expr : Expr)
  | var (name : Token) (initializer : Option Expr)
  | block (body : List Stmt)
  | branch (condition : Expr) (onTrue : Stmt) (onFalse : Option Stmt)
  | loop (condition : Expr) (body : Stmt)

/-- From the first to the last token of the expression; enclosing parentheses are left out. -/
def Expr.location : Expr → Span
  | literal _ span => span
  | grouping inner => inner.location
  | unary operator right => operator.span.merge right.location
  | binary left _ right => left.location.merge right.location
  | logical left _ right => left.location.merge right.location
  | reference name => name.span
  | assign name value => name.span.merge value.location

end TreeWalk
