import Mathlib.Data.Set.Basic
import TreeWalk.Proofs.Execution.Interpretation

/-!
# What evaluations and runs keep

Evaluation changes an environment only where it comes to an assignment.  A run of statements is
composed of evaluations, writes, declarations and scopes, and it may halt between any two of them.
`Upheld` asks of a relation of machines that each of these parts stays within it; then no run leads
out of it, however it ends.
-/

set_option autoImplicit false

namespace TreeWalk

open Stateful (Keeps left left_of_error left_of_ok)

/-! ## Expressions -/

/-- The names that an expression assigns to. -/
def Expr.assigned : Expr → List String
  | literal _ _ | reference _ => []
  | grouping inner => inner.assigned
  | unary _ right => right.assigned
  | binary left _ right | logical left _ right => left.assigned ++ right.assigned
  | assign name value => name.lexeme :: value.assigned

section Evaluations

variable {relation : Environment → Environment → Prop} [IsPreorder Environment relation]

namespace Evaluation

theorem keeps_ofExcept {α : Type} (result : Except Halt α) : Keeps relation (ofExcept result) := by
  intro environment
  cases result <;> exact refl_of relation environment

theorem keeps_read (name : Token) : Keeps relation (read name) := by
  intro environment
  unfold left read
  cases environment.get? name.lexeme <;> exact refl_of relation environment

theorem keeps_write {name : Token} {value : Value}
    (assigns : ∀ environment changed, environment.assign? name.lexeme value = some changed →
      relation environment changed) : Keeps relation (write name value) := by
  intro environment
  unfold left write
  cases assigned : environment.assign? name.lexeme value with
  | none => exact refl_of relation environment
  | some changed => exact assigns environment changed assigned

end Evaluation

theorem Expr.evaluate_keeps (expr : Expr)
    (assigns : ∀ name ∈ expr.assigned, ∀ value environment changed,
      environment.assign? name value = some changed → relation environment changed) :
    Keeps relation expr.evaluate := by
  induction expr with
  | literal value span => exact .pure value
  | grouping inner ih => exact ih assigns
  | reference name => exact Evaluation.keeps_read name
  | assign name value ih =>
      obtain ⟨target, inside⟩ := List.forall_mem_cons.mp assigns
      exact (ih inside).bind fun result =>
        (Evaluation.keeps_write (target result)).bind fun _ => .pure result
  | unary operator right ih => exact (ih assigns).bind fun _ => Evaluation.keeps_ofExcept _
  | binary one operator other firstIh secondIh =>
      obtain ⟨first, second⟩ := List.forall_mem_append.mp assigns
      exact (firstIh first).bind fun _ => (secondIh second).bind fun _ =>
        Evaluation.keeps_ofExcept _
  | logical one operator other firstIh secondIh =>
      obtain ⟨first, second⟩ := List.forall_mem_append.mp assigns
      exact (firstIh first).bind fun value => .ite (.pure value) (secondIh second)

end Evaluations

namespace Execution

theorem left_inScope (action : Execution Unit) (machine : Machine) :
    left (inScope action) machine = (left action machine.enterScope).leaveScope := by
  unfold left inScope
  cases action machine.enterScope <;> rfl

theorem keeps_iterate {relation : Machine → Machine → Prop} [IsPreorder Machine relation]
    {test : Execution Value} {body : Execution Unit} (tests : Keeps relation test)
    (bodies : Keeps relation body) (rounds : Nat) :
    Keeps relation (iterate test body rounds) := by
  induction rounds with
  | zero => exact fun machine => refl_of relation machine
  | succ rounds ih => exact tests.bind fun _ => .ite (bodies.bind fun _ => ih) (.pure ())

end Execution

/-! ## Statements -/

/-- The names that a statement declares outside of the blocks in it. -/
def Stmt.declared : Stmt → List String
  | .var name _ => [name.lexeme]
  | .expression _ | .print _ | .block _ => []
  | .branch _ onTrue none => onTrue.declared
  | .branch _ onTrue (some onFalse) => onTrue.declared ++ onFalse.declared
  | .loop _ body => body.declared

def Stmt.allDeclared (statements : List Stmt) : List String := statements.flatMap Stmt.declared

/-- All parts of a run stay within the relations, which may depend on the names that may be
declared.  Inside a scope of its own an action may declare any names. -/
structure Upheld (relation : Set String → Machine → Machine → Prop) : Prop where
  preorder : ∀ names, IsPreorder Machine (relation names)
  evaluate : ∀ names expr, Keeps (relation names) (Execution.evaluate expr)
  write : ∀ names text blamed, Keeps (relation names) (Execution.write text blamed)
  define : ∀ names name value, name.lexeme ∈ names →
    Keeps (relation names) (Execution.define name value)
  note : ∀ names event, Keeps (relation names) (Execution.note event)
  inScope : ∀ names {machine after}, relation Set.univ machine.enterScope after →
    relation names machine after.leaveScope

section Runs

variable {relation : Set String → Machine → Machine → Prop} (upheld : Upheld relation)

include upheld

theorem Upheld.block {action : Execution Unit} (keeps : Keeps (relation Set.univ) action)
    (names : Set String) : Keeps (relation names) (Execution.inScope action) := by
  intro machine
  rw [Execution.left_inScope]
  exact upheld.inScope names (keeps machine.enterScope)

mutual

theorem Stmt.execute_keeps (budget : Nat) (names : Set String) : ∀ statement : Stmt,
    (∀ name ∈ statement.declared, name ∈ names) → Keeps (relation names) (statement.execute budget)
  | .expression expr, _ =>
      have := upheld.preorder names
      (upheld.evaluate names expr).bind fun _ => .pure ()
  | .print expr, _ =>
      have := upheld.preorder names
      (upheld.evaluate names expr).bind fun _ =>
        (upheld.write names _ _).bind fun _ => upheld.write names _ _
  | .var name none, allowed => upheld.define names name _ (allowed _ List.mem_cons_self)
  | .var name (some expr), allowed =>
      have := upheld.preorder names
      (upheld.evaluate names expr).bind fun _ =>
        upheld.define names name _ (allowed _ List.mem_cons_self)
  | .block body, _ =>
      have := upheld.preorder Set.univ
      have inner := executeAll_keeps budget Set.univ body fun _ _ => Set.mem_univ _
      upheld.block ((upheld.note Set.univ _).bind fun _ => inner) names
  | .branch condition onTrue none, allowed =>
      have := upheld.preorder names
      (upheld.evaluate names condition).bind fun _ =>
        .ite (execute_keeps budget names onTrue allowed) (.pure ())
  | .branch condition onTrue (some onFalse), allowed =>
      have := upheld.preorder names
      have taken := execute_keeps budget names onTrue fun name member =>
        allowed name (List.mem_append_left _ member)
      have refused := execute_keeps budget names onFalse fun name member =>
        allowed name (List.mem_append_right _ member)
      (upheld.evaluate names condition).bind fun _ => .ite taken refused
  | .loop condition body, allowed =>
      have := upheld.preorder names
      Execution.keeps_iterate (upheld.evaluate names condition)
        (execute_keeps budget names body allowed) budget

theorem Stmt.executeAll_keeps (budget : Nat) (names : Set String) : ∀ statements : List Stmt,
    (∀ name ∈ Stmt.allDeclared statements, name ∈ names) →
      Keeps (relation names) (Stmt.executeAll budget statements)
  | [], _ =>
      have := upheld.preorder names
      .pure ()
  | statement :: rest, allowed =>
      have := upheld.preorder names
      have first := execute_keeps budget names statement fun name member =>
        allowed name (List.mem_append_left _ member)
      first.bind fun _ => executeAll_keeps budget names rest fun name member =>
        allowed name (List.mem_append_right _ member)

end

theorem Machine.interpret_keeps (budget : Nat) {names : Set String} {program : List Stmt}
    (allowed : ∀ name ∈ Stmt.allDeclared program, name ∈ names) :
    Keeps (relation names) (Machine.interpret budget program) := by
  intro machine
  have inner := Stmt.executeAll_keeps upheld budget names program allowed machine
  unfold left at inner ⊢
  unfold Machine.interpret
  generalize Stmt.executeAll budget program machine = run at inner ⊢
  cases run with
  | ok _ after => exact inner
  | error halt after =>
      cases halt with
      | fault fault =>
          have := upheld.preorder names
          exact trans_of (relation names) inner (upheld.note names _ after)
      | stuck operator => exact inner
      | exhausted => exact inner

theorem Machine.Ends.related {program : List Stmt} {machine left : Machine}
    {result : Option Fault} (ends : machine.Ends program result left) :
    relation {name | name ∈ Stmt.allDeclared program} machine left := by
  obtain ⟨budget, run⟩ := ends
  have keeps : Keeps (relation {name | name ∈ Stmt.allDeclared program})
      (Machine.interpret budget program) :=
    Machine.interpret_keeps upheld budget fun _ member => member
  have whole := keeps machine
  cases result with
  | none => rwa [left_of_ok run] at whole
  | some fault => rwa [left_of_error run] at whole

end Runs

end TreeWalk
