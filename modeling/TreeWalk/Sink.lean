import TreeWalk.IoFailure

/-!
The place that printed text goes to. A sink takes each text whole or refuses it; what it does
may depend on everything it was offered before.
-/
set_option autoImplicit false

namespace TreeWalk

structure Attempt where
  text : String
  refusal : Option IoFailure
  deriving DecidableEq, Repr

def Attempt.lineBreaks (attempt : Attempt) : Nat :=
  if attempt.refusal.isNone then attempt.text.toList.count '\n' else 0

structure Sink where
  /-- The texts offered so far, the latest first. -/
  attempts : List Attempt
  /-- How a text is refused after these attempts, if it is. -/
  refuses : List Attempt → String → Option IoFailure

namespace Sink

def unfailing : Sink := { attempts := [], refuses := fun _ _ => none }

def taken (attempts : List Attempt) : String :=
  String.join ((attempts.filter (·.refusal.isNone)).reverse.map Attempt.text)

def output (sink : Sink) : String := taken sink.attempts

def lineBreaksTaken (attempts : List Attempt) : Nat :=
  attempts.foldl (fun total attempt => total + attempt.lineBreaks) 0

/-- Takes text until it holds this many line breaks and refuses all text after that. -/
def failingAfter (count : Nat) (failure : IoFailure) : Sink :=
  { attempts := []
    refuses := fun attempts _ => if count ≤ lineBreaksTaken attempts then some failure else none }

/-- Offers a text. An empty text is not offered at all. -/
def write (sink : Sink) (text : String) : Option IoFailure × Sink :=
  if text.isEmpty then (none, sink)
  else
    let refusal := sink.refuses sink.attempts text
    (refusal, { sink with attempts := ⟨text, refusal⟩ :: sink.attempts })

end Sink

end TreeWalk
