import TreeWalk.Evaluation
import TreeWalk.Sink
import TreeWalk.Trace.Event

/-!
Running statements on a machine: an environment, the sink that printed text goes to, and a
journal of what happened. The budget bounds the rounds of each loop; a run that finishes
within one budget finishes alike within any larger one.
-/
set_option autoImplicit false

namespace TreeWalk

structure Machine where
  environment : Environment
  sink : Sink
  /-- The events so far, the latest first. -/
  journal : List Trace.Event

def Machine.start (sink : Sink) : Machine :=
  { environment := .empty, sink := sink, journal := [] }

def Machine.enterScope (machine : Machine) : Machine :=
  let environment := machine.environment.push
  { machine with
    environment := environment
    journal := .enteredScope environment.depth :: machine.journal }

def Machine.leaveScope (machine : Machine) : Machine :=
  let environment := machine.environment.pop
  { machine with
    environment := environment
    journal := .leftScope environment.depth :: machine.journal }

abbrev Execution (α : Type) := EStateM Halt Machine α

namespace Execution

def note (event : Trace.Event) : Execution Unit := fun machine =>
  .ok () { machine with journal := event :: machine.journal }

def evaluate (expr : Expr) : Execution Value := fun machine =>
  match expr.evaluate machine.environment with
  | .ok value environment => .ok value { machine with environment := environment }
  | .error halt environment => .error halt { machine with environment := environment }

def define (name : Token) (value : Value) : Execution Unit := fun machine =>
  .ok () { machine with environment := machine.environment.define name.lexeme value }

/-- Offers text to the sink; a refusal is the fault of `blamed`. -/
def write (text : String) (blamed : Token) : Execution Unit := fun machine =>
  match machine.sink.write text with
  | (none, sink) => .ok () { machine with sink := sink }
  | (some failure, sink) =>
    .error (.raise (.outputFailed failure) blamed) { machine with sink := sink }

/-- Runs an action in a scope of its own, which is dropped however the action ends. -/
def inScope (action : Execution Unit) : Execution Unit := fun machine =>
  match action machine.enterScope with
  | .ok _ after => .ok () after.leaveScope
  | .error halt after => .error halt after.leaveScope

def iterate (test : Execution Value) (body : Execution Unit) : Nat → Execution Unit
  | 0 => throw .exhausted
  | rounds + 1 => do
    if (← test).isTruthy then
      body
      iterate test body rounds

end Execution

/-- The token that is blamed when a value cannot be printed. A literal has kept none. -/
def Expr.printToken : Expr → Token
  | reference name | assign name _ => name
  | unary operator _ | binary _ operator _ | logical _ operator _ => operator
  | grouping inner => inner.printToken
  | literal _ span =>
    { kind := .keyPrint, lexeme := "print", literal := none, line := 0, span := span }

mutual

def Stmt.execute (budget : Nat) : Stmt → Execution Unit
  | expression expr => do
    let _ ← Execution.evaluate expr
  | print expr => do
    let value ← Execution.evaluate expr
    Execution.write value.display expr.printToken
    Execution.write "\n" expr.printToken
  | var name none => Execution.define name .nil
  | var name (some initializer) => do
    let value ← Execution.evaluate initializer
    Execution.define name value
  | block body => Execution.inScope do
    Execution.note (.executingBlock body.length)
    executeAll budget body
  | branch condition onTrue none => do
    if (← Execution.evaluate condition).isTruthy then onTrue.execute budget
  | branch condition onTrue (some onFalse) => do
    if (← Execution.evaluate condition).isTruthy then onTrue.execute budget
    else onFalse.execute budget
  | loop condition body =>
    Execution.iterate (Execution.evaluate condition) (body.execute budget) budget

def Stmt.executeAll (budget : Nat) : List Stmt → Execution Unit
  | [] => pure ()
  | statement :: rest => do
    statement.execute budget
    executeAll budget rest

end

def Machine.interpret (budget : Nat) (program : List Stmt) : Execution Unit := fun machine =>
  match Stmt.executeAll budget program machine with
  | .ok _ after => .ok () after
  | .error (.fault fault) after =>
    .error (.fault fault)
      { after with
        journal := .runtimeError fault.token.line fault.cause.message :: after.journal }
  | .error halt after => .error halt after

end TreeWalk
