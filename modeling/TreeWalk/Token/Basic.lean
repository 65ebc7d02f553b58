import TreeWalk.Number.Notation
import TreeWalk.Span
import TreeWalk.Token.Kind

/-!
Tokens: a kind with its text, the value that a number or string carries, and where it stands.
-/
set_option autoImplicit false

namespace TreeWalk

inductive Literal where
  | number (value : Float)
  | text (value : String)
  deriving DecidableEq

/-- A number keeps its fraction here; text is not quoted. -/
def Literal.display : Literal → String
  | .number value => Number.exactText value
  | .text value => value

structure Token where
  kind : Kind
  lexeme : String
  literal : Option Literal
  line : Nat
  span : Span
  deriving DecidableEq

/-- The token that ends every sequence; it covers no text. -/
def Token.ending (line offset : Nat) : Token :=
  { kind := .eof, lexeme := "", literal := none, line := line, span := ⟨offset, offset⟩ }

def Token.isEnd (token : Token) : Bool := token.kind = .eof

def Token.display (token : Token) : String :=
  let head := token.kind.name ++ " " ++ token.lexeme
  match token.literal with
  | none => head
  | some literal => head ++ " " ++ literal.display

end TreeWalk
