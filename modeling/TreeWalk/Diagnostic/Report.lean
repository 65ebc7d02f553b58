import TreeWalk.Diagnostic.Snippet
import TreeWalk.Fault
import TreeWalk.Syntax.SyntaxError
import TreeWalk.Token.LexicalError

/-!
Everything that is reported to the user: a problem at a place in a source, or a file that
could not be read. A report has a short form and a rendered one.
-/
set_option autoImplicit false

namespace TreeWalk.Diagnostic

inductive Problem where
  | lexical (error : LexicalError)
  | grammatical (error : SyntaxError)
  | runtime (fault : Fault)
  deriving DecidableEq

namespace Problem

def display : Problem → String
  | lexical error => error.display
  | grammatical error => error.display
  | runtime fault => fault.display

def title : Problem → String
  | lexical error => "Lexical error: " ++ error.cause.title
  | grammatical error => "Syntax error: " ++ error.cause.message
  | runtime fault => "Runtime error: " ++ fault.cause.message

def notes : Problem → List String
  | lexical error => error.cause.notes
  | grammatical error => error.notes
  | runtime fault => fault.notes

def span : Problem → Span
  | lexical error => error.span
  | grammatical error => error.token.span
  | runtime fault => fault.token.span

def label? : Problem → Option String
  | lexical _ => none
  | grammatical error => some error.label
  | runtime fault => some fault.label

end Problem

inductive Report where
  | inSource (path source : String) (problem : Problem)
  | unreadable (path : String) (failure : IoFailure)
  deriving DecidableEq

namespace Report

def display : Report → String
  | inSource _ _ problem => problem.display
  | unreadable _ failure => "IO operation failed: " ++ failure.message

def isRuntime : Report → Bool
  | inSource _ _ (.runtime _) => true
  | _ => false

def title : Report → String
  | inSource _ _ problem => problem.title
  | unreadable _ _ => "Standard IO error"

/-- What is said below the title and the snippet. -/
def text : Report → String
  | inSource _ _ problem => "\n".intercalate problem.notes
  | unreadable path failure => path ++ ": " ++ failure.message

/-- The title, with the snippet if there is a source. -/
def heading : Report → Styled
  | inSource path source problem =>
    Snippet.render problem.title ⟨path, source, problem.span, problem.label?.getD ""⟩
  | report@(unreadable _ _) =>
    [.turn .bareSeverity, .text "error", .turn .strong, .text (": " ++ report.title ++ "\n\n"),
      .turn .plain]

def render (report : Report) : Styled :=
  let below := if report.text.isEmpty then "" else report.text ++ "\n"
  report.heading ++ [.text (below ++ "\n")]

end Report

end TreeWalk.Diagnostic
