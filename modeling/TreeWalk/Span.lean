/-!
Byte ranges of a source text, from `start` up to but excluding `stop`.
-/
set_option autoImplicit false

namespace TreeWalk

structure Span where
  start : Nat
  stop : Nat
  deriving DecidableEq, Repr, Inhabited

def Span.merge (first second : Span) : Span :=
  { start := min first.start second.start, stop := max first.stop second.stop }

/-- The number of bytes; a reversed span has none. -/
def Span.size (span : Span) : Nat := span.stop - span.start

def Span.text (span : Span) : String := toString span.start ++ ".." ++ toString span.stop

def Span.clamp (span : Span) (limit : Nat) : Span :=
  { start := min span.start limit, stop := min span.stop limit }

end TreeWalk
