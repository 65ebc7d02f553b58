import TreeWalk.Token.Kind

/-!
The steps of a run that can be followed from outside: each has a level, the part of the
program it belongs to, and a text.
-/
set_option autoImplicit false

namespace TreeWalk.Trace

/-- From the most to the least severe. -/
inductive Level where
  | error
  | warn
  | info
  | debug
  | trace
  deriving DecidableEq, Repr

def Level.rank : Level → Nat
  | error => 1
  | warn => 2
  | info => 3
  | debug => 4
  | trace => 5

def Level.name : Level → String
  | error => "ERROR"
  | warn => "WARN"
  | info => "INFO"
  | debug => "DEBUG"
  | trace => "TRACE"

inductive Event where
  | lexedToken (kind : Kind) (line : Nat)
  | scanned (tokens errors : Nat)
  | synchronizing (line : Nat) (message : String)
  | synchronized (skipped : Nat)
  | parseFailed (errors : Nat)
  | parsed (statements : Nat)
  | enteredScope (depth : Nat)
  | leftScope (depth : Nat)
  | executingBlock (size : Nat)
  | runtimeError (line : Nat) (message : String)
  | lineFinished (hadError hadRuntimeError : Bool)
  | promptTerminated (message : String)
  deriving DecidableEq, Repr

namespace Event

def level : Event → Level
  | lexedToken _ _ | enteredScope _ | leftScope _ | executingBlock _ => .trace
  | scanned _ _ | synchronizing _ _ | synchronized _ | parseFailed _ | parsed _
  | runtimeError _ _ | lineFinished _ _ => .debug
  | promptTerminated _ => .error

def target : Event → String
  | lexedToken _ _ => "lox_core::lexer::lexer"
  | synchronizing _ _ | synchronized _ => "lox_core::parser::parser"
  | enteredScope _ | leftScope _ => "lox_core::environment::environment"
  | executingBlock _ | runtimeError _ _ => "lox_core::eval"
  | scanned _ _ | parseFailed _ | parsed _ => "lox_core::session"
  | lineFinished _ _ => "loxc::repl"
  | promptTerminated _ => "loxc"

def message : Event → String
  | lexedToken _ _ => "lexed token"
  | scanned _ _ => "scanned"
  | synchronizing _ _ => "syntax error, synchronizing"
  | synchronized _ => "synchronized"
  | parseFailed _ => "parse failed"
  | parsed _ => "parsed"
  | enteredScope _ => "entered scope"
  | leftScope _ => "left scope"
  | executingBlock _ => "executing block"
  | runtimeError _ _ => "runtime error"
  | lineFinished _ _ => "line finished"
  | promptTerminated _ => "prompt terminated"

/-- What an event says besides its message. -/
def fields : Event → List (String × String)
  | lexedToken kind line => [("kind", kind.name), ("line", toString line)]
  | scanned tokens errors => [("tokens", toString tokens), ("errors", toString errors)]
  | synchronizing line message => [("line", toString line), ("error", message)]
  | synchronized skipped => [("skipped", toString skipped)]
  | parseFailed errors => [("errors", toString errors)]
  | parsed statements => [("statements", toString statements)]
  | enteredScope depth | leftScope depth => [("depth", toString depth)]
  | executingBlock size => [("len", toString size)]
  | runtimeError line message => [("line", toString line), ("error", message)]
  | lineFinished hadError hadRuntimeError =>
    [("status", "Status \x7b had_error: " ++ toString hadError
        ++ ", had_runtime_error: " ++ toString hadRuntimeError ++ " \x7d")]
  | promptTerminated message => [("err", message)]

def text (event : Event) : String :=
  event.fields.foldl (fun line (key, value) => line ++ " " ++ key ++ "=" ++ value) event.message

end Event

end TreeWalk.Trace
