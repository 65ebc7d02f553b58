import TreeWalk.CommandLine.Console

/-!
Running a file: its path is announced, then it is run, then the outcome is told. A file that
cannot be read is reported instead.
-/
set_option autoImplicit false

namespace TreeWalk.CommandLine.Script

open Diagnostic (Reporter Style)

inductive Outcome where
  | ran (status : Status) (errorCount : Nat)
  | unreadable
  deriving DecidableEq, Repr

def noInput : Nat := 66

def announce (console : Console) (quiet : Bool) (path : String) : List Output :=
  if quiet then [] else [console.progress .success "Running" path]

def perform (console : Console) (path : String) (contents : Except IoFailure (List UInt8)) :
    Option (List Output × Outcome) :=
  let session := Session.start .counting .unfailing
  match session.runFile Console.budget path contents with
  | .error report => some ([console.showStyled report.render], .unreadable)
  | .ok none => none
  | .ok (some (status, after)) =>
    some (console.showRun session after, .ran status after.reporter.count)

/-- The closing line; the time taken is told only of a run without errors. -/
def conclude (console : Console) (quiet : Bool) (elapsed : String) : Outcome → List Output
  | .unreadable => []
  | .ran status errorCount =>
    if quiet then []
    else if status.isOk then [console.progress .success "Finished" ("in " ++ elapsed)]
    else
      let text := "with " ++ toString errorCount ++ " error(s)"
      [console.progress .severity "Failed" text]

def exitCode : Outcome → Nat
  | .ran status _ => status.exitCode
  | .unreadable => noInput

end TreeWalk.CommandLine.Script
