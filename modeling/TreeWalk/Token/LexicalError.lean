import TreeWalk.Span

/-!
What can be wrong with the characters of a source, and how it is told.
-/
set_option autoImplicit false

namespace TreeWalk

inductive LexicalCause where
  | unexpectedCharacter (found : Char)
  | unterminatedString
  deriving DecidableEq, Repr

structure LexicalError where
  cause : LexicalCause
  span : Span
  line : Nat
  deriving DecidableEq, Repr

def LexicalCause.title : LexicalCause → String
  | .unexpectedCharacter _ => "Unexpected character."
  | .unterminatedString => "Unterminated string."

def LexicalCause.notes : LexicalCause → List String
  | .unexpectedCharacter found => ["Found `" ++ found.toString ++ "`"]
  | .unterminatedString => ["Add a closing `\"`"]

def LexicalError.display (error : LexicalError) : String :=
  "[line " ++ toString error.line ++ "] Error: " ++ error.cause.title

end TreeWalk
