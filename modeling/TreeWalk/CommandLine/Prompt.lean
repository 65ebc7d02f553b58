import TreeWalk.CommandLine.Console
import TreeWalk.Syntax.Printer

/-!
The prompts: each reads a line, answers it, and goes on until the input ends or a line asks
it to stop. One runs its lines in a common session, the others show the tokens or the syntax
trees of each line by itself.
-/
set_option autoImplicit false

namespace TreeWalk.CommandLine

open Diagnostic (Reporter Style)

inductive Prompt where
  | running (session : Session)
  | tokens
  | trees

inductive Continuation where
  | proceed (prompt : Prompt)
  | leave (code : Nat)

namespace Prompt

def inputError : Nat := 74

def invitation : Prompt → String
  | running _ => "> "
  | tokens | trees => ">> "

def freshSession : Session := Session.start .counting .unfailing

/-- The line without its line break, and without one carriage return before it. -/
def withoutBreak (line : String) : String :=
  let chars := line.toList.reverse
  let unbroken := if chars.head? = some '\n' then chars.tail else chars
  let bare := if unbroken.head? = some '\r' then unbroken.tail else unbroken
  String.ofList bare.reverse

def itemText : Scanner.Item → String
  | .ok token => token.display ++ "\n"
  | .error error =>
    let notes := error.cause.notes
    let below := if notes.isEmpty then "" else "\t" ++ "\n\t".intercalate notes ++ "\n"
    "[at " ++ error.span.text ++ "] Lexical Error: " ++ error.cause.title ++ "\n" ++ below

def answerTokens (console : Console) (line : String) : List Output :=
  let items := (Scanner.ofSource line).all
  console.showEvents (Trace.ofTokens (Scan.ofItems items).tokens) ++
    items.map fun item => .answer (itemText item)

/-- Errors in characters come first, then the statements that could be read, then the errors
of the others. -/
def answerTrees (console : Console) (line : String) : List Output :=
  let scan := Scan.ofSource line
  let parsed := Parsed.ofTokens scan.tokens
  console.showEvents (Trace.ofTokens scan.tokens ++ Trace.ofRecoveries parsed.recoveries)
    ++ scan.errors.map (fun error => .answer (error.display ++ "\n"))
    ++ parsed.statements.map (fun statement => .answer (statement.display ++ "\n"))
    ++ parsed.errors.map fun error => .answer ("Parse error: " ++ error.display ++ "\n")

def answerRun (console : Console) (session : Session) (line : String) :
    List Output × Continuation :=
  match session.run Console.budget line with
  | none => ([], .leave Status.softwareError)
  | some (status, after) =>
    let finished := console.showEvents
      [.lineFinished status.hadError status.hadRuntimeError]
    (console.showRun session after ++ finished, .proceed (.running after))

def answer (console : Console) (line : String) (prompt : Prompt) : List Output × Continuation :=
  if line.isEmpty then ([], .proceed prompt)
  else if line = ".exit" then ([], .leave 0)
  else
    match prompt with
    | running session => answerRun console session line
    | tokens => (answerTokens console line, .proceed prompt)
    | trees => (answerTrees console line, .proceed prompt)

def notText : String := "stream did not contain valid UTF-8"

def answerLine (console : Console) (line : List UInt8) (prompt : Prompt) :
    List Output × Continuation :=
  match Text.Utf8.decode line with
  | .ok text => answer console (withoutBreak text) prompt
  | .error _ =>
    (console.showEvents [.promptTerminated notText] ++
      [console.progress .severity "Failed" notText], .leave inputError)

/-- The end of the input. Only the prompt that runs lines ends its own. -/
def farewell : Prompt → List Output
  | running _ => [.answer "\n"]
  | tokens | trees => []

def converse (console : Console) : List (List UInt8) → Prompt → List Output × Nat
  | [], prompt => (.answer prompt.invitation :: prompt.farewell, 0)
  | line :: rest, prompt =>
    let (outputs, continuation) := prompt.answerLine console line
    match continuation with
    | .leave code => (.answer prompt.invitation :: outputs, code)
    | .proceed next =>
      let (later, code) := converse console rest next
      (.answer prompt.invitation :: outputs ++ later, code)

end Prompt

def lineBreakByte : UInt8 := 10

/-- The lines of some input, each with its line break; `read` holds the start of the first
one in reverse. -/
def linesAfter (read : List UInt8) : List UInt8 → List (List UInt8)
  | [] => if read.isEmpty then [] else [read.reverse]
  | byte :: rest =>
    if byte = lineBreakByte then (byte :: read).reverse :: linesAfter [] rest
    else linesAfter (byte :: read) rest

def inputLines (input : List UInt8) : List (List UInt8) := linesAfter [] input

end TreeWalk.CommandLine
