import TreeWalk.Execution
import TreeWalk.Proofs.Execution.Expressions

/-!
# Runs with checked scopes

An environment that is asked for a place without a scope just finds no name there.  The runs of
this module check every place before they use it, and they crash where it is outside of the scopes,
where the search for a name goes in circles, and where an operator gets stuck.  On the trees of the
grammar and from a well-formed environment none of this happens: a checked run never crashes, and
it does what the run without checks does.
-/

set_option autoImplicit false

namespace TreeWalk

open Semantics (exists_combines exists_negates)
open Stateful (Matched Simulates)

inductive Crash where
  | outside (place : Nat)
  /-- A search has come by more scopes than there are. -/
  | circling
  | stuck (operator : Token)
  deriving DecidableEq

/-- Why a checked run stops early. -/
inductive Stop where
  | fault (fault : Fault)
  | exhausted
  | crashed (crash : Crash)
  deriving DecidableEq

def Stop.ofHalt : Halt → Stop
  | .fault raised => .fault raised
  | .exhausted => .exhausted
  | .stuck operator => .crashed (.stuck operator)

/-- The search of `resolveFrom`, with a check of every place. -/
def Environment.search (environment : Environment) (name : String) :
    Nat → Nat → Except Crash (Option (Nat × Value))
  | 0, _ => .error .circling
  | count + 1, place =>
    match environment.scopes[place]? with
    | none => .error (.outside place)
    | some scope =>
      match scope.bindings.lookup name, scope.enclosing with
      | some value, _ => .ok (some (place, value))
      | none, none => .ok none
      | none, some outer => environment.search name count outer

/-! ## The checked interpreter -/

namespace Checked

section Actions

variable {σ α : Type}

def watch : EStateM.Result Halt σ α → EStateM.Result Stop σ α
  | .ok value after => .ok value after
  | .error halt after => .error (.ofHalt halt) after

/-- An action that looks at no scope. -/
def lift (action : EStateM Halt σ α) : EStateM Stop σ α := fun before => watch (action before)

end Actions

/-- The nearest binding of a name, and its place. -/
def find (name : Token) : EStateM Stop Environment (Nat × Value) := fun environment =>
  match environment.search name.lexeme environment.scopes.size environment.current with
  | .ok (some binding) => .ok binding environment
  | .ok none => .error (.fault ⟨.undefinedVariable name.lexeme, name⟩) environment
  | .error crash => .error (.crashed crash) environment

def read (name : Token) : EStateM Stop Environment Value := do
  let (_, value) ← find name
  pure value

def write (name : Token) (value : Value) : EStateM Stop Environment Unit := do
  let (place, _) ← find name
  modify fun environment => environment.bindAt place name.lexeme value

def define (name : Token) (value : Value) : EStateM Stop Environment Unit := fun environment =>
  if environment.current < environment.scopes.size then
    .ok () (environment.define name.lexeme value)
  else .error (.crashed (.outside environment.current)) environment

end Checked

def Expr.evaluateChecked : Expr → EStateM Stop Environment Value
  | literal value _ => pure value
  | grouping inner => inner.evaluateChecked
  | reference name => Checked.read name
  | assign name value => do
    let value ← value.evaluateChecked
    Checked.write name value
    pure value
  | unary operator right => do
    let right ← right.evaluateChecked
    Checked.lift (Evaluation.ofExcept (Operator.applyUnary operator right))
  | logical left operator right => do
    let left ← left.evaluateChecked
    if Operator.stopsAt operator left then pure left else right.evaluateChecked
  | binary left operator right => do
    let left ← left.evaluateChecked
    let right ← right.evaluateChecked
    Checked.lift (Evaluation.ofExcept (Operator.applyBinary operator left right))

namespace Checked

/-- An action on the environment of a machine. -/
def within {α : Type} (action : EStateM Stop Environment α) : EStateM Stop Machine α :=
  fun machine =>
    match action machine.environment with
    | .ok value environment => .ok value { machine with environment := environment }
    | .error stop environment => .error stop { machine with environment := environment }

def inScope (action : EStateM Stop Machine Unit) : EStateM Stop Machine Unit := fun machine =>
  match action machine.enterScope with
  | .ok _ after => .ok () after.leaveScope
  | .error stop after => .error stop after.leaveScope

def iterate (test : EStateM Stop Machine Value) (body : EStateM Stop Machine Unit) :
    Nat → EStateM Stop Machine Unit
  | 0 => throw .exhausted
  | rounds + 1 => do
    if (← test).isTruthy then
      body
      iterate test body rounds

end Checked

mutual

def Stmt.executeChecked (budget : Nat) : Stmt → EStateM Stop Machine Unit
  | expression expr => do
    let _ ← Checked.within expr.evaluateChecked
  | print expr => do
    let value ← Checked.within expr.evaluateChecked
    Checked.lift (Execution.write value.display expr.printToken)
    Checked.lift (Execution.write "\n" expr.printToken)
  | var name none => Checked.within (Checked.define name .nil)
  | var name (some initializer) => do
    let value ← Checked.within initializer.evaluateChecked
    Checked.within (Checked.define name value)
  | block body => Checked.inScope do
    Checked.lift (Execution.note (.executingBlock body.length))
    executeAllChecked budget body
  | branch condition onTrue none => do
    if (← Checked.within condition.evaluateChecked).isTruthy then onTrue.executeChecked budget
  | branch condition onTrue (some onFalse) => do
    if (← Checked.within condition.evaluateChecked).isTruthy then onTrue.executeChecked budget
    else onFalse.executeChecked budget
  | loop condition body =>
    Checked.iterate (Checked.within condition.evaluateChecked) (body.executeChecked budget) budget

def Stmt.executeAllChecked (budget : Nat) : List Stmt → EStateM Stop Machine Unit
  | [] => pure ()
  | statement :: rest => do
    statement.executeChecked budget
    executeAllChecked budget rest

end

def Machine.interpretChecked (budget : Nat) (program : List Stmt) : EStateM Stop Machine Unit :=
  fun machine =>
    match Stmt.executeAllChecked budget program machine with
    | .ok _ after => .ok () after
    | .error (.fault fault) after =>
      .error (.fault fault)
        { after with
          journal := .runtimeError fault.token.line fault.cause.message :: after.journal }
    | .error stop after => .error stop after

/-! ## The checks never fail -/

/-- Both runs end for the same reason, and that is not a crash. -/
inductive Stop.Same : Halt → Stop → Prop where
  | fault (raised : Fault) : Same (.fault raised) (.fault raised)
  | exhausted : Same .exhausted .exhausted

namespace Checked

section Safe

variable {σ α β : Type} {good : σ → Prop}

/-- From a good state the checked action does what the other one does, without a crash, and it
leaves a good state. -/
def Safe (good : σ → Prop) (action : EStateM Halt σ α) (checked : EStateM Stop σ α) : Prop :=
  Simulates Stop.Same (fun before other => other = before ∧ good before) Eq action checked

theorem Safe.pure (value : α) : Safe good (Pure.pure value) (Pure.pure value) :=
  Simulates.pure rfl

theorem Safe.bind {action : EStateM Halt σ α} {checked : EStateM Stop σ α}
    {next : α → EStateM Halt σ β} {nextChecked : α → EStateM Stop σ β}
    (early : Safe good action checked) (late : ∀ value, Safe good (next value) (nextChecked value)) :
    Safe good (action >>= next) (checked >>= nextChecked) := by
  apply Simulates.bind early
  intro value other same
  subst same
  exact late value

theorem Safe.ite {condition : Prop} [Decidable condition] {one other : EStateM Halt σ α}
    {oneChecked otherChecked : EStateM Stop σ α} (onTrue : Safe good one oneChecked)
    (onFalse : Safe good other otherChecked) :
    Safe good (if condition then one else other)
      (if condition then oneChecked else otherChecked) := by
  split
  · exact onTrue
  · exact onFalse

theorem Safe.intro {action : EStateM Halt σ α} {checked : EStateM Stop σ α}
    (safe : ∀ before, good before →
      Matched Stop.Same (fun before other => other = before ∧ good before) Eq (action before)
        (checked before)) :
    Safe good action checked := by
  intro before other ⟨same, start⟩
  subst same
  exact safe other start

theorem Safe.lift {action : EStateM Halt σ α}
    (keeps : ∀ before, good before → good (Stateful.left action before))
    (runs : ∀ before operator after, action before ≠ .error (.stuck operator) after) :
    Safe good action (Checked.lift action) := by
  apply Safe.intro
  intro before start
  have kept := keeps before start
  have unstuck := runs before
  unfold Checked.lift
  unfold Stateful.left at kept
  generalize action before = run at kept unstuck
  cases run with
  | ok value after => exact .ok rfl ⟨rfl, kept⟩
  | error halt after =>
      cases halt with
      | fault fault => exact .error (.fault fault) ⟨rfl, kept⟩
      | exhausted => exact .error .exhausted ⟨rfl, kept⟩
      | stuck operator => exact absurd rfl (unstuck operator after)

theorem Safe.watched {action : EStateM Halt σ α} {checked : EStateM Stop σ α}
    (safe : Safe good action checked) {before : σ} (start : good before) :
    checked before = watch (action before) ∧
      ∀ crash left, checked before ≠ .error (.crashed crash) left := by
  have same := safe before before ⟨rfl, start⟩
  generalize action before = run at same ⊢
  generalize checked before = watched at same ⊢
  cases same with
  | ok value left =>
      obtain ⟨rfl, -⟩ := left
      subst value
      exact ⟨rfl, by simp⟩
  | error stop left =>
      obtain ⟨rfl, -⟩ := left
      cases stop with
      | fault raised => exact ⟨rfl, by simp⟩
      | exhausted => exact ⟨rfl, by simp⟩

end Safe

end Checked

open Checked (Safe)

namespace Environment

/-- A search that starts at a scope comes by no place without one and is over in time. -/
theorem search_eq {environment : Environment} (formed : environment.WellFormed) (name : String)
    {place count : Nat} (inside : place < environment.scopes.size) (enough : place < count) :
    environment.search name count place = .ok (environment.resolveFrom name count place) := by
  induction place generalizing count with
  | zero =>
      cases count with
      | zero => omega
      | succ count =>
          have outermost := formed.enclosing_zero inside
          rw [search, resolveFrom, Array.getElem?_eq_getElem inside]
          cases bound : environment.scopes[0].bindings.lookup name with
          | some value => simp only [bound]
          | none => simp only [bound, outermost, Option.bind_none]
  | succ place ih =>
      cases count with
      | zero => omega
      | succ count =>
          have around := formed.enclosing_succ inside
          rw [search, resolveFrom, Array.getElem?_eq_getElem inside]
          cases bound : environment.scopes[place + 1].bindings.lookup name with
          | some value => simp only [bound]
          | none =>
              simp only [bound, around, Option.bind_some]
              exact ih (show place < environment.scopes.size by omega)
                (show place < count by omega)

theorem WellFormed.inside {environment : Environment} (formed : environment.WellFormed) :
    environment.current < environment.scopes.size := by
  have current := formed.current
  omega

theorem search_current {environment : Environment} (formed : environment.WellFormed)
    (name : String) :
    environment.search name environment.scopes.size environment.current =
      .ok (environment.resolve name) :=
  search_eq formed name formed.inside formed.inside

end Environment

/-! ### Expressions -/

namespace Checked

theorem safe_read (name : Token) :
    Safe Environment.WellFormed (Evaluation.read name) (read name) := by
  apply Safe.intro
  intro environment formed
  have found := Environment.search_current formed name.lexeme
  have looked : environment.get? name.lexeme = (environment.resolve name.lexeme).map Prod.snd := rfl
  simp only [Evaluation.read, read, find, bind, EStateM.bind, found, looked]
  cases environment.resolve name.lexeme with
  | none => exact .error (.fault _) ⟨rfl, formed⟩
  | some binding => exact .ok rfl ⟨rfl, formed⟩

theorem safe_write (name : Token) (value : Value) :
    Safe Environment.WellFormed (Evaluation.write name value) (write name value) := by
  apply Safe.intro
  intro environment formed
  have found := Environment.search_current formed name.lexeme
  have assigned : environment.assign? name.lexeme value =
      (environment.resolve name.lexeme).map fun binding =>
        environment.bindAt binding.1 name.lexeme value := rfl
  simp only [Evaluation.write, write, find, bind, EStateM.bind, found, assigned]
  cases environment.resolve name.lexeme with
  | none => exact .error (.fault _) ⟨rfl, formed⟩
  | some binding => exact .ok rfl ⟨rfl, formed.bindAt binding.1 name.lexeme value⟩

theorem safe_define (name : Token) (value : Value) {environment : Environment}
    (formed : environment.WellFormed) :
    define name value environment = .ok () (environment.define name.lexeme value) := by
  unfold define
  exact if_pos formed.inside

theorem safe_raised (operator : Token) (result : Except FaultCause Value) :
    Safe Environment.WellFormed (Evaluation.ofExcept (Operator.raised operator result))
      (lift (Evaluation.ofExcept (Operator.raised operator result))) := by
  apply Safe.lift
  · intro environment formed
    cases result <;> exact formed
  · intro environment stuck after run
    cases result <;> cases run

end Checked

theorem Expr.evaluate_safe {expr : Expr} (operated : expr.WellOperated) :
    Safe Environment.WellFormed expr.evaluate expr.evaluateChecked := by
  induction expr with
  | literal value span => exact .pure value
  | grouping inner ih => exact ih operated
  | reference name => exact Checked.safe_read name
  | assign name value ih =>
      apply (ih operated).bind
      intro result
      exact (Checked.safe_write name result).bind fun _ => .pure result
  | unary operator right ih =>
      obtain ⟨member, operated⟩ := operated
      apply (ih operated).bind
      intro value
      obtain ⟨result, negates⟩ := exists_negates member value
      rw [negates.computed]
      exact Checked.safe_raised operator result
  | logical left operator right leftIh rightIh =>
      obtain ⟨-, leftOperated, rightOperated⟩ := operated
      apply (leftIh leftOperated).bind
      intro value
      exact .ite (.pure value) (rightIh rightOperated)
  | binary left operator right leftIh rightIh =>
      obtain ⟨member, leftOperated, rightOperated⟩ := operated
      apply (leftIh leftOperated).bind
      intro one
      apply (rightIh rightOperated).bind
      intro other
      obtain ⟨result, combines⟩ := exists_combines member one other
      rw [combines.computed]
      exact Checked.safe_raised operator result

/-! ### Statements -/

def Machine.Formed (machine : Machine) : Prop := machine.environment.WellFormed

namespace Checked

theorem safe_evaluate {expr : Expr} (operated : expr.WellOperated) :
    Safe Machine.Formed (Execution.evaluate expr) (within expr.evaluateChecked) := by
  apply Safe.intro
  intro machine formed
  have same := Expr.evaluate_safe operated machine.environment machine.environment ⟨rfl, formed⟩
  unfold Execution.evaluate within
  generalize expr.evaluate machine.environment = run at same ⊢
  generalize expr.evaluateChecked machine.environment = checked at same ⊢
  cases same with
  | ok value left =>
      obtain ⟨rfl, kept⟩ := left
      exact .ok value ⟨rfl, kept⟩
  | error stop left =>
      obtain ⟨rfl, kept⟩ := left
      exact .error stop ⟨rfl, kept⟩

theorem safe_define_within (name : Token) (value : Value) :
    Safe Machine.Formed (Execution.define name value) (within (define name value)) := by
  apply Safe.intro
  intro machine formed
  unfold within
  rw [safe_define name value formed]
  exact .ok rfl ⟨rfl, formed.define name.lexeme value⟩

theorem safe_note (event : Trace.Event) :
    Safe Machine.Formed (Execution.note event) (lift (Execution.note event)) := by
  refine Safe.lift (fun _ formed => formed) ?_
  intro machine operator after run
  cases run

theorem safe_print (text : String) (blamed : Token) :
    Safe Machine.Formed (Execution.write text blamed) (lift (Execution.write text blamed)) := by
  apply Safe.lift
  · intro machine formed
    unfold Stateful.left Execution.write
    generalize machine.sink.write text = offered
    obtain ⟨refusal, sink⟩ := offered
    cases refusal <;> exact formed
  · intro machine operator after run
    unfold Execution.write at run
    split at run <;> cases run

theorem Safe.inScope {action : Execution Unit} {checked : EStateM Stop Machine Unit}
    (safe : Safe Machine.Formed action checked) :
    Safe Machine.Formed (Execution.inScope action) (inScope checked) := by
  apply Safe.intro
  intro machine formed
  have same := safe machine.enterScope machine.enterScope ⟨rfl, Environment.WellFormed.push formed⟩
  unfold Execution.inScope Checked.inScope
  generalize action machine.enterScope = run at same ⊢
  generalize checked machine.enterScope = other at same ⊢
  cases same with
  | ok value left =>
      obtain ⟨rfl, kept⟩ := left
      exact .ok rfl ⟨rfl, Environment.WellFormed.pop kept⟩
  | error stop left =>
      obtain ⟨rfl, kept⟩ := left
      exact .error stop ⟨rfl, Environment.WellFormed.pop kept⟩

theorem Safe.iterate {test : Execution Value} {body : Execution Unit}
    {testChecked : EStateM Stop Machine Value} {bodyChecked : EStateM Stop Machine Unit}
    (tests : Safe Machine.Formed test testChecked) (bodies : Safe Machine.Formed body bodyChecked)
    (rounds : Nat) :
    Safe Machine.Formed (Execution.iterate test body rounds)
      (iterate testChecked bodyChecked rounds) := by
  induction rounds with
  | zero => exact Safe.intro fun machine formed => .error .exhausted ⟨rfl, formed⟩
  | succ rounds ih => exact tests.bind fun _ => .ite (bodies.bind fun _ => ih) (.pure ())

end Checked

open Checked (safe_define_within safe_evaluate safe_note safe_print)

mutual

theorem Stmt.execute_safe (budget : Nat) : ∀ statement : Stmt, statement.WellOperated →
    Safe Machine.Formed (statement.execute budget) (statement.executeChecked budget)
  | .expression _, operated => (safe_evaluate operated).bind fun _ => .pure ()
  | .print _, operated =>
      (safe_evaluate operated).bind fun _ => (safe_print _ _).bind fun _ => safe_print _ _
  | .var name none, _ => safe_define_within name .nil
  | .var name (some _), operated =>
      (safe_evaluate operated).bind fun value => safe_define_within name value
  | .block body, operated =>
      have inner := executeAll_safe budget body operated
      Safe.inScope ((safe_note _).bind fun _ => inner)
  | .branch _ onTrue none, operated =>
      have taken := execute_safe budget onTrue operated.2
      (safe_evaluate operated.1).bind fun _ => .ite taken (.pure ())
  | .branch _ onTrue (some onFalse), operated =>
      have taken := execute_safe budget onTrue operated.2.1
      have refused := execute_safe budget onFalse operated.2.2
      (safe_evaluate operated.1).bind fun _ => .ite taken refused
  | .loop _ body, operated =>
      (safe_evaluate operated.1).iterate (execute_safe budget body operated.2) budget

theorem Stmt.executeAll_safe (budget : Nat) : ∀ statements : List Stmt,
    Stmt.AllWellOperated statements →
      Safe Machine.Formed (Stmt.executeAll budget statements)
        (Stmt.executeAllChecked budget statements)
  | [], _ => .pure ()
  | statement :: rest, operated =>
      (execute_safe budget statement operated.1).bind fun _ =>
        executeAll_safe budget rest operated.2

end

/-- A program whose operators are those of the grammar never crashes. -/
theorem Machine.interpret_safe (budget : Nat) {program : List Stmt}
    (operated : Stmt.AllWellOperated program) :
    Safe Machine.Formed (Machine.interpret budget program)
      (Machine.interpretChecked budget program) := by
  apply Safe.intro
  intro machine formed
  have same := Stmt.executeAll_safe budget program operated machine machine ⟨rfl, formed⟩
  unfold Machine.interpret Machine.interpretChecked
  generalize Stmt.executeAll budget program machine = run at same ⊢
  generalize Stmt.executeAllChecked budget program machine = checked at same ⊢
  cases same with
  | ok value left =>
      obtain ⟨rfl, kept⟩ := left
      exact .ok rfl ⟨rfl, kept⟩
  | error stop left =>
      obtain ⟨rfl, kept⟩ := left
      cases stop with
      | fault fault => exact .error (.fault fault) ⟨rfl, kept⟩
      | exhausted => exact .error .exhausted ⟨rfl, kept⟩

end TreeWalk
