import TreeWalk.Proofs.Execution.Interpretation
import TreeWalk.Proofs.Resolution.Mentions

/-!
# Where faults come from

A fault of a run is raised by one of the expressions of the program: by its evaluation, or because
the sink refuses what is printed of it.  The fault of an evaluation carries the token of a name or
of an operator of the expression.
-/

set_option autoImplicit false

namespace TreeWalk

open Stateful (bind_eq_error)

/-! ## Expressions -/

/-- The names and operators of an expression, in the order of the source. -/
def Expr.tokens : Expr → List Token
  | literal _ _ => []
  | grouping inner => inner.tokens
  | unary operator right => operator :: right.tokens
  | binary left operator right | logical left operator right =>
      left.tokens ++ operator :: right.tokens
  | reference name => [name]
  | assign name value => name :: value.tokens

theorem Operator.applyUnary_raises {operator : Token} {right : Value} {fault : Fault}
    (failed : applyUnary operator right = .error (.fault fault)) : fault.token = operator := by
  unfold applyUnary Halt.raise at failed
  split at failed <;> cases failed
  rfl

theorem Operator.applyBinary_raises {operator : Token} {left right : Value} {fault : Fault}
    (failed : applyBinary operator left right = .error (.fault fault)) :
    fault.token = operator := by
  unfold applyBinary add arithmetic Halt.raise at failed
  repeat' split at failed
  all_goals cases failed
  all_goals rfl

theorem Expr.evaluate_raises {expr : Expr} {start left : Environment} {fault : Fault}
    (run : expr.evaluate start = .error (.fault fault) left) : fault.token ∈ expr.tokens := by
  induction expr generalizing start left with
  | literal value span => cases run
  | grouping inner ih => exact ih run
  | reference name =>
      unfold evaluate Evaluation.read at run
      split at run
      · cases run
      · cases run
        exact List.mem_singleton_self name
  | assign name value ih =>
      obtain inner | ⟨result, middle, -, run⟩ := bind_eq_error.mp run
      · exact List.mem_cons_of_mem _ (ih inner)
      · obtain written | ⟨_, _, _, run⟩ := bind_eq_error.mp run
        · obtain ⟨-, rfl⟩ := Evaluation.write_eq_error written
          exact List.mem_cons_self
        · cases run
  | unary operator right ih =>
      obtain inner | ⟨result, middle, -, run⟩ := bind_eq_error.mp run
      · exact List.mem_cons_of_mem _ (ih inner)
      · rw [Operator.applyUnary_raises (Evaluation.ofExcept_eq_error run)]
        exact List.mem_cons_self
  | binary one operator other oneIh otherIh =>
      obtain inner | ⟨result, middle, -, run⟩ := bind_eq_error.mp run
      · exact List.mem_append_left _ (oneIh inner)
      · refine List.mem_append_right _ ?_
        obtain inner | ⟨_, _, -, run⟩ := bind_eq_error.mp run
        · exact List.mem_cons_of_mem _ (otherIh inner)
        · rw [Operator.applyBinary_raises (Evaluation.ofExcept_eq_error run)]
          exact List.mem_cons_self
  | logical one operator other oneIh otherIh =>
      obtain inner | ⟨result, middle, -, run⟩ := bind_eq_error.mp run
      · exact List.mem_append_left _ (oneIh inner)
      · split at run
        · cases run
        · exact List.mem_append_right _ (List.mem_cons_of_mem _ (otherIh run))

/-! ## Statements -/

/-- An expression of a statement, and whether its value is printed. -/
structure Occurrence where
  expr : Expr
  printed : Bool

mutual

/-- The expressions of a statement, as they stand in its tree. -/
def Stmt.occurrences : Stmt → List Occurrence
  | expression expr | var _ (some expr) => [⟨expr, false⟩]
  | print expr => [⟨expr, true⟩]
  | var _ none => []
  | block body => allOccurrences body
  | branch condition onTrue none => ⟨condition, false⟩ :: onTrue.occurrences
  | branch condition onTrue (some onFalse) =>
      ⟨condition, false⟩ :: (onTrue.occurrences ++ onFalse.occurrences)
  | loop condition body => ⟨condition, false⟩ :: body.occurrences

def Stmt.allOccurrences : List Stmt → List Occurrence
  | [] => []
  | statement :: rest => statement.occurrences ++ allOccurrences rest

end

theorem Stmt.mem_allOccurrences {statements : List Stmt} {occurrence : Occurrence} :
    occurrence ∈ Stmt.allOccurrences statements ↔
      ∃ statement ∈ statements, occurrence ∈ statement.occurrences := by
  induction statements with
  | nil => simp [Stmt.allOccurrences]
  | cons statement rest ih => simp [Stmt.allOccurrences, ih]

/-- The expression fails, or it is printed to a sink that refuses the text. -/
def Occurrence.Raises (occurrence : Occurrence) (fault : Fault) : Prop :=
  (∃ start left, occurrence.expr.evaluate start = .error (.fault fault) left) ∨
    (occurrence.printed = true ∧ ∃ failure,
      fault = ⟨.outputFailed failure, occurrence.expr.printToken⟩)

namespace Execution

variable {α β : Type} {allowed : Fault → Prop}

/-- The action raises allowed faults only. -/
def Faults (allowed : Fault → Prop) (action : Execution α) : Prop :=
  ∀ machine left fault, action machine = .error (.fault fault) left → allowed fault

theorem Faults.bind {first : Execution α} {next : α → Execution β} (early : Faults allowed first)
    (late : ∀ value, Faults allowed (next value)) : Faults allowed (first >>= next) := by
  intro machine left fault run
  obtain failed | ⟨value, middle, -, run⟩ := bind_eq_error.mp run
  · exact early machine left fault failed
  · exact late value middle left fault run

theorem Faults.ite {condition : Prop} [Decidable condition] {one other : Execution α}
    (onTrue : Faults allowed one) (onFalse : Faults allowed other) :
    Faults allowed (if condition then one else other) := by
  split
  · exact onTrue
  · exact onFalse

theorem faults_pure (value : α) : Faults allowed (pure value : Execution α) := by
  intro machine left fault run
  cases run

theorem faults_note (event : Trace.Event) : Faults allowed (note event) := by
  intro machine left fault run
  cases run

theorem faults_define (name : Token) (value : Value) : Faults allowed (define name value) := by
  intro machine left fault run
  cases run

theorem faults_evaluate {expr : Expr} {printed : Bool}
    (raises : ∀ fault, Occurrence.Raises ⟨expr, printed⟩ fault → allowed fault) :
    Faults allowed (evaluate expr) := by
  intro machine left fault run
  unfold evaluate at run
  split at run
  · cases run
  · next failed =>
      cases run
      exact raises fault (Or.inl ⟨_, _, failed⟩)

theorem faults_write {expr : Expr}
    (raises : ∀ fault, Occurrence.Raises ⟨expr, true⟩ fault → allowed fault) (text : String) :
    Faults allowed (write text expr.printToken) := by
  intro machine left fault run
  unfold write at run
  split at run
  · cases run
  · cases run
    exact raises _ (Or.inr ⟨rfl, _, rfl⟩)

theorem Faults.inScope {action : Execution Unit} (faults : Faults allowed action) :
    Faults allowed (Execution.inScope action) := by
  intro machine left fault run
  unfold Execution.inScope at run
  split at run
  · cases run
  · next failed =>
      cases run
      exact faults _ _ fault failed

theorem Faults.iterate {test : Execution Value} {body : Execution Unit}
    (tests : Faults allowed test) (bodies : Faults allowed body) (rounds : Nat) :
    Faults allowed (Execution.iterate test body rounds) := by
  induction rounds with
  | zero =>
      intro machine left fault run
      cases run
  | succ rounds ih =>
      exact tests.bind fun _ => .ite (bodies.bind fun _ => ih) (faults_pure ())

end Execution

open Execution (Faults faults_define faults_evaluate faults_note faults_pure faults_write)

section Raises

variable {allowed : Fault → Prop}

mutual

theorem Stmt.execute_faults (budget : Nat) : ∀ statement : Stmt,
    (∀ occurrence ∈ statement.occurrences, ∀ fault, occurrence.Raises fault → allowed fault) →
      Faults allowed (statement.execute budget)
  | .expression _, raises =>
      (faults_evaluate (raises _ List.mem_cons_self)).bind fun _ => faults_pure ()
  | .print _, raises =>
      have printed := raises _ List.mem_cons_self
      (faults_evaluate printed).bind fun _ =>
        (faults_write printed _).bind fun _ => faults_write printed _
  | .var _ none, _ => faults_define _ _
  | .var _ (some _), raises =>
      (faults_evaluate (raises _ List.mem_cons_self)).bind fun _ => faults_define _ _
  | .block body, raises =>
      .inScope ((faults_note _).bind fun _ => executeAll_faults budget body raises)
  | .branch _ onTrue none, raises =>
      have taken := execute_faults budget onTrue fun _ member =>
        raises _ (List.mem_cons_of_mem _ member)
      (faults_evaluate (raises _ List.mem_cons_self)).bind fun _ => .ite taken (faults_pure ())
  | .branch _ onTrue (some onFalse), raises =>
      have taken := execute_faults budget onTrue fun _ member =>
        raises _ (List.mem_cons_of_mem _ (List.mem_append_left _ member))
      have refused := execute_faults budget onFalse fun _ member =>
        raises _ (List.mem_cons_of_mem _ (List.mem_append_right _ member))
      (faults_evaluate (raises _ List.mem_cons_self)).bind fun _ => .ite taken refused
  | .loop _ body, raises =>
      have round := execute_faults budget body fun _ member =>
        raises _ (List.mem_cons_of_mem _ member)
      (faults_evaluate (raises _ List.mem_cons_self)).iterate round budget

theorem Stmt.executeAll_faults (budget : Nat) : ∀ statements : List Stmt,
    (∀ occurrence ∈ Stmt.allOccurrences statements, ∀ fault, occurrence.Raises fault →
        allowed fault) →
      Faults allowed (Stmt.executeAll budget statements)
  | [], _ => faults_pure ()
  | statement :: rest, raises =>
      (execute_faults budget statement fun _ member =>
        raises _ (List.mem_append_left _ member)).bind fun _ =>
          executeAll_faults budget rest fun _ member => raises _ (List.mem_append_right _ member)

end

end Raises

/-- The fault that ends a run is raised by an expression of the program. -/
theorem Machine.Ends.raised {program : List Stmt} {machine left : Machine} {fault : Fault}
    (ends : machine.Ends program (some fault) left) :
    ∃ occurrence ∈ Stmt.allOccurrences program, occurrence.Raises fault := by
  obtain ⟨budget, run⟩ := ends
  obtain ⟨ended, inner, -, -⟩ := Machine.interpret_eq_finished run
  have faults : Faults
      (fun fault => ∃ occurrence ∈ Stmt.allOccurrences program, occurrence.Raises fault)
      (Stmt.executeAll budget program) :=
    Stmt.executeAll_faults budget program fun occurrence member _ raises =>
      ⟨occurrence, member, raises⟩
  exact faults machine ended fault inner

end TreeWalk
