import TreeWalk.Session

/-!
What is written to the terminal: the program's own output and the prompt on one stream,
reports, progress and events on the other.
-/
set_option autoImplicit false

namespace TreeWalk.CommandLine

open Diagnostic (Style Styled)

inductive Output where
  | answer (text : String)
  | aside (text : String)
  deriving DecidableEq, Repr

def answers (outputs : List Output) : String :=
  String.join (outputs.map fun
    | .answer text => text
    | .aside _ => "")

def asides (outputs : List Output) : String :=
  String.join (outputs.map fun
    | .answer _ => ""
    | .aside text => text)

structure Console where
  colours : Bool
  filter : Option Trace.Filter
  stamp : String
  deriving DecidableEq, Repr

namespace Console

/-- The settings of the environment: colours if they are asked for by any text at all, events
if there is a filter. -/
def ofSettings (forceColour traceFilter : Option String) (stamp : String) : Console :=
  { colours := forceColour.any fun text => !text.isEmpty
    filter := traceFilter.map Trace.Filter.ofText
    stamp := stamp }

/-- How many rounds a loop may take: more than any computer completes. -/
def budget : Nat := Nat.pow 2 62

def showStyled (console : Console) (styled : Styled) : Output :=
  .aside (styled.render console.colours)

def showOccurrence? (console : Console) (occurrence : Trace.Occurrence) : Option Output :=
  (console.filter.bind fun filter => filter.line? console.stamp occurrence).map .aside

def showEvents (console : Console) (events : List Trace.Event) : List Output :=
  events.filterMap fun event => console.showOccurrence? ⟨event, none⟩

def showNotice? (console : Console) : Notice → Option Output
  | .event occurrence => console.showOccurrence? occurrence
  | .report report => some (console.showStyled report.render)

def progressWidth : Nat := 11

def progress (console : Console) (style : Style) (word text : String) : Output :=
  console.showStyled
    [ .turn style, .text (Trace.padLeft progressWidth word), .turn .plain,
      .text (" " ++ text ++ "\n") ]

def showRun (console : Console) (before after : Session) : List Output :=
  let fresh := after.notices.take (after.notices.length - before.notices.length)
  let attempts := after.machine.sink.attempts
  let printed := attempts.take (attempts.length - before.machine.sink.attempts.length)
  fresh.reverse.filterMap console.showNotice? ++ [.answer (Sink.taken printed)]

end Console

end TreeWalk.CommandLine
