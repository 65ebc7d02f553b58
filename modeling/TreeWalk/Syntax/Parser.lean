import TreeWalk.Syntax.SyntaxError
import TreeWalk.Syntax.Tree

/-!
The state of a parser and its steps. A parser stands between the tokens it has consumed and
those still ahead, which stop short of the first end token. A `Rule` reads a phrase or fails;
either way the parser keeps the place that was reached.
-/
set_option autoImplicit false

namespace TreeWalk

/-- How parsing went on after a syntax error. Places count the tokens before them. -/
structure Recovery where
  error : SyntaxError
  start : Nat
  failed : Nat
  resumed : Nat
  deriving DecidableEq

def Recovery.skipped (recovery : Recovery) : Nat := recovery.resumed - recovery.failed

structure Parser where
  /-- The tokens consumed so far, the latest first. -/
  consumed : List Token
  ahead : List Token
  /-- The end token, which is met again and again when nothing is ahead. -/
  ending : Token
  errors : List SyntaxError
  recoveries : List Recovery
  deriving DecidableEq

/-- The end token of a sequence that has none: it stands behind the last token. -/
def Token.endingAfter (tokens : List Token) : Token :=
  match tokens.getLast? with
  | none => .ending 1 0
  | some last => .ending last.line last.span.stop

abbrev Rule (α : Type) := EStateM SyntaxError Parser α

namespace Parser

def ofTokens (tokens : List Token) : Parser :=
  { consumed := []
    ahead := tokens.takeWhile fun token => !token.isEnd
    ending := (tokens.find? Token.isEnd).getD (Token.endingAfter tokens)
    errors := []
    recoveries := [] }

def tokens (parser : Parser) : List Token := parser.consumed.reverse ++ parser.ahead

def position (parser : Parser) : Nat := parser.consumed.length

def next (parser : Parser) : Token := parser.ahead.headD parser.ending

def step (parser : Parser) : Parser :=
  match parser.ahead with
  | [] => parser
  | token :: rest => { parser with consumed := token :: parser.consumed, ahead := rest }

@[simp] theorem tokens_step (parser : Parser) : parser.step.tokens = parser.tokens := by
  unfold step tokens
  split
  · rfl
  · next token rest split => simp [split]

theorem tokens_ofTokens (given : List Token) :
    (ofTokens given).tokens = given.takeWhile fun token => !token.isEnd := by
  simp [ofTokens, tokens]

end Parser

namespace Rule

def peek : Rule Token := fun parser => .ok parser.next parser

def fail {α : Type} (cause : SyntaxCause) : Rule α :=
  fun parser => .error ⟨cause, parser.next⟩ parser

def step : Rule Unit := fun parser => .ok () parser.step

def note (error : SyntaxError) : Rule Unit :=
  fun parser => .ok () { parser with errors := error :: parser.errors }

/-- Consumes the next token if it is of one of these kinds. The end is never consumed. -/
def accept? (kinds : List Kind) : Rule (Option Token) := fun parser =>
  match parser.ahead with
  | [] => .ok none parser
  | token :: _ =>
    if kinds.contains token.kind then .ok (some token) parser.step else .ok none parser

def sees (kind : Kind) : Rule Bool := fun parser =>
  .ok ((parser.ahead.head?.map Token.kind) = some kind) parser

def expect (kind : Kind) (context : String) : Rule Token := do
  match ← accept? [kind] with
  | some token => pure token
  | none => fail (.unexpectedToken kind context)

def expectName : Rule Token := do
  match ← accept? [.identifier] with
  | some token => pure token
  | none => fail .expectedVariableName

/-- A number above that of the tokens ahead, which bounds every loop and every nesting: both
consume a token each time. -/
def bound : Rule Nat := fun parser => .ok (parser.ahead.length + 1) parser

end Rule

end TreeWalk
