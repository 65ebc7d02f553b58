import TreeWalk.Token.Basic

/-!
What can be wrong with a sequence of tokens, the token that shows it, and how it is told.
-/
set_option autoImplicit false

namespace TreeWalk

inductive SyntaxCause where
  | expectedExpression
  | expectedVariableName
  | invalidAssignmentTarget
  /-- `context` completes the sentence, as in "after value". -/
  | unexpectedToken (expected : Kind) (context : String)
  deriving DecidableEq, Repr

structure SyntaxError where
  cause : SyntaxCause
  token : Token
  deriving DecidableEq

def SyntaxCause.message : SyntaxCause → String
  | expectedExpression => "Expect expression."
  | expectedVariableName => "Expect variable name."
  | invalidAssignmentTarget => "Invalid assignment target."
  | unexpectedToken expected context =>
    "Expect '" ++ expected.spelling ++ "' " ++ context ++ "."

/-- How a message refers to a token that it did not expect. -/
def Token.described (token : Token) : String :=
  match token.kind with
  | .eof => "end of file"
  | .number => "a number"
  | .string => "a string"
  | .identifier => "the identifier `" ++ token.lexeme ++ "`"
  | kind =>
    if kind.isReserved then "the keyword `" ++ kind.spelling ++ "`"
    else "`" ++ kind.spelling ++ "`"

namespace SyntaxError

def location (error : SyntaxError) : String :=
  if error.token.isEnd then " at end" else " at '" ++ error.token.lexeme ++ "'"

def display (error : SyntaxError) : String :=
  "[line " ++ toString error.token.line ++ "] Error" ++ error.location ++ ": "
    ++ error.cause.message

/-- The text beside the marked token. -/
def label (error : SyntaxError) : String :=
  match error.cause with
  | .invalidAssignmentTarget => "cannot assign to this"
  | .unexpectedToken expected _ => "expected `" ++ expected.spelling ++ "`"
  | .expectedExpression | .expectedVariableName => "found " ++ error.token.described

def notes (error : SyntaxError) : List String :=
  match error.cause with
  | .invalidAssignmentTarget => ["Only variables can be assigned to"]
  | .unexpectedToken _ _ => ["Found " ++ error.token.described]
  | .expectedExpression | .expectedVariableName => []

end SyntaxError

end TreeWalk
