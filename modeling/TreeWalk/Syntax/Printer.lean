import TreeWalk.Syntax.Tree
import TreeWalk.Text.Quoted

/-!
Syntax trees as text, fully parenthesised and with the operator in front.
-/
set_option autoImplicit false

namespace TreeWalk

/-- Unlike a shown value, a string stands between quotation marks. -/
def Value.source : Value → String
  | .text value => Text.quoteString value
  | value => value.display

def Expr.display : Expr → String
  | literal value _ => value.source
  | grouping inner => "(group " ++ inner.display ++ ")"
  | unary operator right => "(" ++ operator.lexeme ++ " " ++ right.display ++ ")"
  | binary left operator right | logical left operator right =>
    "(" ++ operator.lexeme ++ " " ++ left.display ++ " " ++ right.display ++ ")"
  | reference name => name.lexeme
  | assign name value => "(= " ++ name.lexeme ++ " " ++ value.display ++ ")"

mutual

def Stmt.display : Stmt → String
  | expression expr => "(; " ++ expr.display ++ ")"
  | print expr => "(print " ++ expr.display ++ ")"
  | var name none => "(var " ++ name.lexeme ++ ")"
  | var name (some initializer) => "(var " ++ name.lexeme ++ " = " ++ initializer.display ++ ")"
  | block body => "(block" ++ displayEach body ++ ")"
  | branch condition onTrue none =>
    "(if " ++ condition.display ++ " " ++ onTrue.display ++ ")"
  | branch condition onTrue (some onFalse) =>
    "(if " ++ condition.display ++ " " ++ onTrue.display ++ " " ++ onFalse.display ++ ")"
  | loop condition body => "(while " ++ condition.display ++ " " ++ body.display ++ ")"

def Stmt.displayEach : List Stmt → String
  | [] => ""
  | statement :: rest => " " ++ statement.display ++ displayEach rest

end

end TreeWalk
