import TreeWalk.Diagnostic.Report

/-!
The place that reports go to. It counts them all; whether it also keeps them is its own
choice.
-/
set_option autoImplicit false

namespace TreeWalk.Diagnostic

structure Reporter where
  keeps : Bool
  count : Nat
  /-- The reports kept, the latest first. -/
  held : List Report
  deriving DecidableEq

namespace Reporter

def keeping : Reporter := { keeps := true, count := 0, held := [] }

def counting : Reporter := { keeps := false, count := 0, held := [] }

def emit (reporter : Reporter) (report : Report) : Reporter :=
  { reporter with
    count := reporter.count + 1
    held := if reporter.keeps then report :: reporter.held else reporter.held }

def resetCount (reporter : Reporter) : Reporter := { reporter with count := 0 }

/-- Gives up what is kept. The count goes on. -/
def clear (reporter : Reporter) : Reporter := { reporter with held := [] }

def reports (reporter : Reporter) : List Report := reporter.held.reverse

def pop (reporter : Reporter) : Option Report × Reporter :=
  (reporter.held.head?, { reporter with held := reporter.held.tail })

end Reporter

end TreeWalk.Diagnostic
