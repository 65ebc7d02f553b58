import TreeWalk.Syntax.Statement
import TreeWalk.Trace.Event

/-!
The events of scanning and of parsing.
-/
set_option autoImplicit false

namespace TreeWalk.Trace

/-- Strings and the end of the text are read without an event. -/
def ofTokens (tokens : List Token) : List Event :=
  (tokens.filter fun token => token.kind ≠ .string ∧ token.kind ≠ .eof).map fun token =>
    .lexedToken token.kind token.line

def ofRecovery (recovery : Recovery) : List Event :=
  [ .synchronizing recovery.error.token.line recovery.error.cause.message,
    .synchronized recovery.skipped ]

def ofRecoveries (recoveries : List Recovery) : List Event := recoveries.flatMap ofRecovery

end TreeWalk.Trace
