import TreeWalk.Diagnostic.Reporter
import TreeWalk.Execution
import TreeWalk.Text.Utf8
import TreeWalk.Trace.Filter
import TreeWalk.Trace.Reading

/-!
A session runs sources one after the other on one machine. A source with lexical or syntax
errors is reported and not run; a fault while it runs is reported once.
-/
set_option autoImplicit false

namespace TreeWalk

open Diagnostic (Problem Report Reporter)

structure Status where
  hadError : Bool
  hadRuntimeError : Bool
  deriving DecidableEq, Repr

namespace Status

def clean : Status := ⟨false, false⟩

def rejected : Status := ⟨true, false⟩

def faulted : Status := ⟨false, true⟩

def isOk (status : Status) : Bool := !status.hadError && !status.hadRuntimeError

def dataError : Nat := 65

def softwareError : Nat := 70

def exitCode (status : Status) : Nat :=
  if status.hadError then dataError
  else if status.hadRuntimeError then softwareError
  else 0

end Status

inductive Notice where
  | event (occurrence : Trace.Occurrence)
  | report (report : Report)
  deriving DecidableEq

structure Session where
  machine : Machine
  reporter : Reporter
  /-- Where the sources come from, as reports show it. -/
  path : String
  /-- The notices so far, the latest first. -/
  notices : List Notice

namespace Session

def start (reporter : Reporter) (sink : Sink) : Session :=
  { machine := .start sink, reporter := reporter, path := "<stdin>", notices := [] }

def output (session : Session) : String := session.machine.sink.output

def follow (session : Session) (events : List Trace.Event) : Session :=
  let fresh := events.map fun event => .event ⟨event, some session.path⟩
  { session with notices := fresh.reverse ++ session.notices }

def report (session : Session) (source : String) (problem : Problem) : Session :=
  let report := .inSource session.path source problem
  { session with
    reporter := session.reporter.emit report
    notices := .report report :: session.notices }

def reportAll (session : Session) (source : String) (problems : List Problem) : Session :=
  problems.foldl (fun session problem => session.report source problem) session

/-- The session with the machine as a run has left it, and the events of that run. -/
def absorb (session : Session) (machine : Machine) : Session :=
  { session with machine := { machine with journal := [] } }.follow machine.journal.reverse

/-- Runs a program that was read from a source. There is no answer if a loop uses up the
budget. -/
def execute (budget : Nat) (session : Session) (source : String) (program : List Stmt) :
    Option (Status × Session) :=
  match Machine.interpret budget program session.machine with
  | .ok _ machine => some (.clean, session.absorb machine)
  | .error (.fault fault) machine =>
    some (.faulted, (session.absorb machine).report source (.runtime fault))
  | .error _ _ => none

def run (budget : Nat) (session : Session) (source : String) : Option (Status × Session) :=
  let scan := Scan.ofSource source
  let parsed := Parsed.ofTokens scan.tokens
  let scanned := session.follow
    (Trace.ofTokens scan.tokens ++ [.scanned scan.tokens.length scan.errors.length])
  let read := (scanned.reportAll source (scan.errors.map .lexical)).follow
    (Trace.ofRecoveries parsed.recoveries)
  if parsed.isOk then
    if scan.errors.isEmpty then
      (read.follow [.parsed parsed.statements.length]).execute budget source parsed.statements
    else some (.rejected, read)
  else
    let failed := read.follow [.parseFailed parsed.errors.length]
    some (.rejected, failed.reportAll source (parsed.errors.map .grammatical))

def failureOf : Text.Utf8.Flaw → IoFailure
  | .truncated => .unexpectedEof
  | .malformed => .invalidData

def textOf (contents : Except IoFailure (List UInt8)) : Except IoFailure String := do
  (Text.Utf8.decode (← contents)).mapError failureOf

/-- Runs the contents of a file. A file that cannot be read leaves the session as it is; one
that can be read gives its path to this run and to those that follow. -/
def runFile (budget : Nat) (session : Session) (path : String)
    (contents : Except IoFailure (List UInt8)) : Except Report (Option (Status × Session)) :=
  match textOf contents with
  | .error failure => .error (.unreadable path failure)
  | .ok source => .ok ({ session with path := path }.run budget source)

end Session

end TreeWalk
