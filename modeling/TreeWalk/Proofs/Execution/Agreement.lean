import TreeWalk.Proofs.Execution.Budgets
import TreeWalk.Proofs.Execution.Expressions

/-!
# Running statements

On a sink that takes every text the interpreter agrees with the semantics.  Each run that ends
within its budget is one that the semantics derives, and each derivation is a run that ends
within some budget.
-/

set_option autoImplicit false

namespace TreeWalk

open Semantics
open Stateful (bind_of_error bind_of_ok)

/-! ## Output -/

/-- The sink never refuses a text. -/
def Sink.Unfailing (sink : Sink) : Prop := ∀ attempts text, sink.refuses attempts text = none

theorem Sink.write_unfailing {sink : Sink} (unfailing : sink.Unfailing) (text : String) :
    ∃ after, sink.write text = (none, after) ∧ after.Unfailing ∧
      after.output = sink.output ++ text := by
  unfold Sink.write
  split
  · next empty =>
      rw [String.isEmpty_iff] at empty
      subst empty
      exact ⟨sink, rfl, unfailing, String.append_empty.symm⟩
  · rw [unfailing]
    refine ⟨_, rfl, unfailing, ?_⟩
    simp [Sink.output, Sink.taken, String.join_append, String.join_cons]

/-- A machine that another one has become after it printed this text. -/
structure Machine.Leaves (machine : Machine) (output : String) (left : Machine) : Prop where
  formed : left.environment.WellFormed
  unfailing : left.sink.Unfailing
  output : left.sink.output = machine.sink.output ++ output

theorem Machine.Leaves.trans {first second third : Machine} {output more : String}
    (early : first.Leaves output second) (late : second.Leaves more third) :
    first.Leaves (output ++ more) third := by
  refine ⟨late.formed, late.unfailing, ?_⟩
  rw [late.output, early.output, String.append_assoc]

theorem Machine.Leaves.silently {first second third : Machine} {output : String}
    (early : first.Leaves "" second) (late : second.Leaves output third) :
    first.Leaves output third := by
  have whole := early.trans late
  rwa [String.empty_append] at whole

theorem Machine.Leaves.stays {first second : Machine} {output : String}
    (leaves : first.Leaves output second) : second.Leaves "" second :=
  ⟨leaves.formed, leaves.unfailing, String.append_empty.symm⟩

namespace Execution

/-- The ends of actions with these outcomes. -/
def ended (left : Machine) : Except Fault Value → EStateM.Result Halt Machine Value
  | .ok value => .ok value left
  | .error fault => .error (.fault fault) left

def finished (left : Machine) : Option Fault → EStateM.Result Halt Machine Unit
  | none => .ok () left
  | some fault => .error (.fault fault) left

theorem finished_ne_exhausted (left other : Machine) (result : Option Fault) :
    finished left result ≠ .error .exhausted other := by
  cases result <;> simp [finished]

theorem finished_inj {left other : Machine} {result another : Option Fault}
    (same : finished left result = finished other another) :
    result = another ∧ left = other := by
  cases result <;> cases another <;> cases same <;> exact ⟨rfl, rfl⟩

theorem Stable.finished {action more : Execution Unit} (stable : Stable action more)
    {machine left : Machine} {result : Option Fault}
    (run : action machine = Execution.finished left result) :
    more machine = Execution.finished left result := by
  rw [stable machine fun other => run ▸ finished_ne_exhausted left other result]
  exact run

variable {machine : Machine}

theorem evaluate_computed {chain after : Chain} {expr : Expr} {result : Except Fault Value}
    (evaluates : Evaluates chain expr result after) (formed : machine.environment.WellFormed)
    (unfailing : machine.sink.Unfailing) (same : machine.environment.chain = chain) :
    ∃ left, evaluate expr machine = ended left result ∧ machine.Leaves "" left ∧
      left.environment.chain = after := by
  obtain ⟨environment, run, leftFormed, leftChain⟩ := evaluates.computed formed same
  refine ⟨{ machine with environment := environment }, ?_,
    ⟨leftFormed, unfailing, String.append_empty.symm⟩, leftChain⟩
  unfold evaluate
  rw [run]
  cases result <;> rfl

theorem evaluate_spec {expr : Expr} (operated : expr.WellOperated)
    (formed : machine.environment.WellFormed) (unfailing : machine.sink.Unfailing) :
    ∃ result left, evaluate expr machine = ended left result ∧ machine.Leaves "" left ∧
      Evaluates machine.environment.chain expr result left.environment.chain := by
  obtain ⟨result, after, evaluates⟩ := exists_evaluates operated machine.environment.chain
  obtain ⟨left, run, leaves, rfl⟩ := evaluate_computed evaluates formed unfailing rfl
  exact ⟨result, left, run, leaves, evaluates⟩

theorem write_spec (formed : machine.environment.WellFormed) (unfailing : machine.sink.Unfailing)
    (text : String) (blamed : Token) :
    ∃ left, write text blamed machine = .ok () left ∧ machine.Leaves text left ∧
      left.environment = machine.environment := by
  obtain ⟨sink, taken, leftUnfailing, output⟩ := Sink.write_unfailing unfailing text
  refine ⟨{ machine with sink := sink }, ?_, ⟨formed, leftUnfailing, output⟩, rfl⟩
  unfold write
  rw [taken]

theorem print_spec (formed : machine.environment.WellFormed) (unfailing : machine.sink.Unfailing)
    (value : Value) (blamed : Token) :
    ∃ left, (write value.display blamed >>= fun _ => write "\n" blamed) machine = .ok () left ∧
      machine.Leaves (value.display ++ "\n") left ∧ left.environment = machine.environment := by
  obtain ⟨middle, first, early, same⟩ := write_spec formed unfailing value.display blamed
  obtain ⟨left, second, late, kept⟩ := write_spec early.formed early.unfailing "\n" blamed
  exact ⟨left, (bind_of_ok _ first).trans second, early.trans late, kept.trans same⟩

theorem define_spec (formed : machine.environment.WellFormed) (unfailing : machine.sink.Unfailing)
    (name : Token) (value : Value) :
    ∃ left, define name value machine = .ok () left ∧ machine.Leaves "" left ∧
      left.environment.chain = machine.environment.chain.define name.lexeme value :=
  ⟨_, rfl, ⟨formed.define name.lexeme value, unfailing, String.append_empty.symm⟩,
    Environment.chain_define formed name.lexeme value⟩

/-- The machine in which the statements of a block start. -/
def enterBlock (length : Nat) (machine : Machine) : Machine :=
  let inner := machine.enterScope
  { inner with journal := .executingBlock length :: inner.journal }

theorem enterBlock_chain (formed : machine.environment.WellFormed) (length : Nat) :
    (enterBlock length machine).environment.WellFormed ∧
      (enterBlock length machine).environment.chain =
        .inside .empty machine.environment.chain :=
  ⟨formed.push, Environment.chain_push formed⟩

theorem block_run (budget : Nat) (body : List Stmt) :
    (Stmt.block body).execute budget machine =
      match Stmt.executeAll budget body (enterBlock body.length machine) with
      | .ok _ left => .ok () left.leaveScope
      | .error halt left => .error halt left.leaveScope := rfl

theorem block_finished {budget : Nat} {body : List Stmt} {result : Option Fault} {left : Machine}
    {output : String} {names : Names} {outer : Chain}
    (run : Stmt.executeAll budget body (enterBlock body.length machine) = finished left result)
    (leaves : (enterBlock body.length machine).Leaves output left)
    (inner : left.environment.chain = .inside names outer) :
    (Stmt.block body).execute budget machine = finished left.leaveScope result ∧
      machine.Leaves output left.leaveScope ∧ left.leaveScope.environment.chain = outer := by
  obtain ⟨formed, chain⟩ := Environment.pop_spec leaves.formed inner
  refine ⟨?_, ⟨formed, leaves.unfailing, leaves.output⟩, chain⟩
  rw [block_run, run]
  cases result <;> rfl

theorem loop_again {condition : Expr} {body : Stmt} {value : Value} {one more : Nat}
    {middle next left : Machine} {result : Option Fault}
    (tested : evaluate condition machine = .ok value middle) (truthy : Truthy value)
    (round : body.execute one middle = finished next none)
    (again : (Stmt.loop condition body).execute more next = finished left result) :
    (Stmt.loop condition body).execute (max one more + 1) machine = finished left result := by
  have bodyRun : body.execute (max one more + 1) middle = finished next none :=
    (body.execute_stable (show one ≤ max one more + 1 by omega)).finished round
  -- the rounds that are left need the larger budget for their bodies, but one round less
  have restRun : iterate (evaluate condition) (body.execute (max one more + 1)) (max one more)
      next = finished left result :=
    (Stable.iterate (body.execute_stable (show more ≤ max one more + 1 by omega))
      (show more ≤ max one more by omega)).finished again
  refine (bind_of_ok _ tested).trans ?_
  rw [if_pos (truthy_iff.mpr truthy)]
  exact (bind_of_ok _ bodyRun).trans restRun

end Execution

open Execution (ended finished)

/-- The action that runs a task. -/
def Semantics.Task.execute (budget : Nat) : Task → Execution Unit
  | one statement => statement.execute budget
  | all statements => Stmt.executeAll budget statements

/-! ## Derivations are runs -/

theorem Semantics.Runs.computed {chain after : Chain} {task : Task} {result : Option Fault}
    {output : String} (runs : Runs chain task result output after) {machine : Machine}
    (formed : machine.environment.WellFormed) (unfailing : machine.sink.Unfailing)
    (same : machine.environment.chain = chain) :
    ∃ budget left, task.execute budget machine = finished left result ∧
      machine.Leaves output left ∧ left.environment.chain = after := by
  induction runs generalizing machine with
  | expression evaluates =>
      obtain ⟨left, run, leaves, chain⟩ :=
        Execution.evaluate_computed evaluates formed unfailing same
      exact ⟨0, left, bind_of_ok _ run, leaves, chain⟩
  | expressionFails evaluates | printFails evaluates | initializerFails evaluates =>
      obtain ⟨left, run, leaves, chain⟩ :=
        Execution.evaluate_computed evaluates formed unfailing same
      exact ⟨0, left, bind_of_error _ run, leaves, chain⟩
  | @print _ _ expr value text evaluates shows =>
      obtain ⟨middle, run, early, chain⟩ :=
        Execution.evaluate_computed evaluates formed unfailing same
      obtain ⟨left, printed, late, kept⟩ :=
        Execution.print_spec early.formed early.unfailing value expr.printToken
      rw [shows_iff.mp shows] at late
      rw [← kept] at chain
      exact ⟨0, left, (bind_of_ok _ run).trans printed, early.silently late, chain⟩
  | bare name =>
      obtain ⟨left, run, leaves, chain⟩ := Execution.define_spec formed unfailing name .nil
      rw [same] at chain
      exact ⟨0, left, run, leaves, chain⟩
  | @initialized _ _ name _ value evaluates =>
      obtain ⟨middle, run, early, chain⟩ :=
        Execution.evaluate_computed evaluates formed unfailing same
      obtain ⟨left, defined, late, kept⟩ :=
        Execution.define_spec early.formed early.unfailing name value
      rw [chain] at kept
      exact ⟨0, left, (bind_of_ok _ run).trans defined, early.silently late, kept⟩
  | @block _ _ body _ _ _ _ ih =>
      obtain ⟨entered, inner⟩ := Execution.enterBlock_chain formed body.length
      rw [same] at inner
      obtain ⟨budget, left, run, leaves, chain⟩ := ih entered unfailing inner
      exact ⟨budget, left.leaveScope, Execution.block_finished run leaves chain⟩
  | @branchTrue _ _ _ _ _ onTrue onFalse _ _ tested truthy _ ih =>
      obtain ⟨middle, testRun, early, middleChain⟩ :=
        Execution.evaluate_computed tested formed unfailing same
      obtain ⟨budget, left, run, late, chain⟩ := ih early.formed early.unfailing middleChain
      refine ⟨budget, left, ?_, early.silently late, chain⟩
      cases onFalse with
      | none =>
          refine (bind_of_ok _ testRun).trans ?_
          rw [if_pos (truthy_iff.mpr truthy)]
          exact run
      | some onFalse =>
          refine (bind_of_ok _ testRun).trans ?_
          rw [if_pos (truthy_iff.mpr truthy)]
          exact run
  | branchFalse tested falsy _ ih =>
      obtain ⟨middle, testRun, early, middleChain⟩ :=
        Execution.evaluate_computed tested formed unfailing same
      obtain ⟨budget, left, run, late, chain⟩ := ih early.formed early.unfailing middleChain
      refine ⟨budget, left, (bind_of_ok _ testRun).trans ?_, early.silently late, chain⟩
      rw [if_neg (mt truthy_iff.mp falsy)]
      exact run
  | branchNone tested falsy =>
      obtain ⟨left, testRun, leaves, chain⟩ :=
        Execution.evaluate_computed tested formed unfailing same
      refine ⟨0, left, (bind_of_ok _ testRun).trans ?_, leaves, chain⟩
      rw [if_neg (mt truthy_iff.mp falsy)]
      rfl
  | @branchFails _ _ _ _ onFalse _ tested =>
      obtain ⟨left, testRun, leaves, chain⟩ :=
        Execution.evaluate_computed tested formed unfailing same
      refine ⟨0, left, ?_, leaves, chain⟩
      cases onFalse <;> exact bind_of_error _ testRun
  | loopDone tested falsy =>
      obtain ⟨left, testRun, leaves, chain⟩ :=
        Execution.evaluate_computed tested formed unfailing same
      refine ⟨1, left, (bind_of_ok _ testRun).trans ?_, leaves, chain⟩
      rw [if_neg (mt truthy_iff.mp falsy)]
      rfl
  | loopAgain tested truthy _ _ roundIh againIh =>
      obtain ⟨middle, testRun, early, middleChain⟩ :=
        Execution.evaluate_computed tested formed unfailing same
      obtain ⟨one, next, roundRun, round, nextChain⟩ :=
        roundIh early.formed early.unfailing middleChain
      obtain ⟨more, left, againRun, again, chain⟩ :=
        againIh round.formed round.unfailing nextChain
      exact ⟨_, left, Execution.loop_again testRun truthy roundRun againRun,
        (early.silently round).trans again, chain⟩
  | @loopBodyFails _ _ _ _ _ body _ _ tested truthy _ ih =>
      obtain ⟨middle, testRun, early, middleChain⟩ :=
        Execution.evaluate_computed tested formed unfailing same
      obtain ⟨budget, left, run, late, chain⟩ := ih early.formed early.unfailing middleChain
      have bodyRun := (body.execute_stable (Nat.le_succ budget)).finished run
      refine ⟨budget + 1, left, (bind_of_ok _ testRun).trans ?_, early.silently late, chain⟩
      rw [if_pos (truthy_iff.mpr truthy)]
      exact bind_of_error _ bodyRun
  | loopFails tested =>
      obtain ⟨left, testRun, leaves, chain⟩ :=
        Execution.evaluate_computed tested formed unfailing same
      exact ⟨1, left, bind_of_error _ testRun, leaves, chain⟩
  | done => exact ⟨0, machine, rfl, ⟨formed, unfailing, String.append_empty.symm⟩, same⟩
  | @next _ _ _ first rest _ _ _ _ _ headIh tailIh =>
      obtain ⟨one, middle, headRun, early, middleChain⟩ := headIh formed unfailing same
      obtain ⟨more, left, tailRun, late, chain⟩ :=
        tailIh early.formed early.unfailing middleChain
      have head : first.execute (max one more) machine = finished middle none :=
        (first.execute_stable (Nat.le_max_left one more)).finished headRun
      have tail := (Stmt.executeAll_stable (Nat.le_max_right one more) rest).finished tailRun
      exact ⟨max one more, left, (bind_of_ok _ head).trans tail, early.trans late, chain⟩
  | stops _ ih =>
      obtain ⟨budget, left, run, leaves, chain⟩ := ih formed unfailing same
      exact ⟨budget, left, bind_of_error _ run, leaves, chain⟩

/-! ## Runs are derivations -/

/-- The run of the action in this machine exhausts its budget, or is a derivation for the task that
starts in the chain. -/
def ReportsFrom (start : Chain) (task : Task) (action : Execution Unit) (machine : Machine) :
    Prop :=
  (∃ left, action machine = .error .exhausted left) ∨
    ∃ result output left, action machine = finished left result ∧ machine.Leaves output left ∧
      Runs start task result output left.environment.chain

def Reports (task : Task) (action : Execution Unit) : Prop :=
  ∀ machine, machine.environment.WellFormed → machine.sink.Unfailing →
    ReportsFrom machine.environment.chain task action machine

theorem ReportsFrom.mono {start chain : Chain} {task whole : Task} {action : Execution Unit}
    {machine : Machine} (reports : ReportsFrom chain task action machine)
    (grows : ∀ {result : Option Fault} {output : String} {after : Chain},
      Runs chain task result output after → Runs start whole result output after) :
    ReportsFrom start whole action machine := by
  rcases reports with exhausted | ⟨result, output, left, run, leaves, runs⟩
  · exact Or.inl exhausted
  · exact Or.inr ⟨result, output, left, run, leaves, grows runs⟩

theorem Reports.bind {start : Chain} {head tail whole : Task} {action next : Execution Unit}
    {machine : Machine} (reports : Reports head action) (again : Reports tail next)
    (formed : machine.environment.WellFormed) (unfailing : machine.sink.Unfailing)
    (stops : ∀ {fault : Fault} {output : String} {after : Chain},
      Runs machine.environment.chain head (some fault) output after →
        Runs start whole (some fault) output after)
    (goes : ∀ {result : Option Fault} {output more : String} {middle after : Chain},
      Runs machine.environment.chain head none output middle →
        Runs middle tail result more after → Runs start whole result (output ++ more) after) :
    ReportsFrom start whole (action >>= fun _ => next) machine := by
  rcases reports machine formed unfailing with ⟨left, run⟩ | ⟨result, output, middle, run, rest⟩
  · exact Or.inl ⟨left, bind_of_error _ run⟩
  · obtain ⟨early, first⟩ := rest
    cases result with
    | some fault =>
        exact Or.inr ⟨some fault, output, middle, bind_of_error _ run, early, stops first⟩
    | none =>
        unfold ReportsFrom
        rw [bind_of_ok _ run]
        rcases again middle early.formed early.unfailing with
          exhausted | ⟨result, more, left, rest, late, second⟩
        · exact Or.inl exhausted
        · exact Or.inr ⟨result, output ++ more, left, rest, early.trans late, goes first second⟩

section Tested

variable {condition : Expr} (operated : condition.WellOperated)

include operated

theorem reports_of_test {task : Task} {next : Value → Execution Unit}
    (fails : ∀ {chain after : Chain} {fault : Fault},
      Evaluates chain condition (.error fault) after → Runs chain task (some fault) "" after)
    (goes : ∀ (value : Value) (machine middle : Machine), machine.Leaves "" middle →
      Evaluates machine.environment.chain condition (.ok value) middle.environment.chain →
      ReportsFrom machine.environment.chain task (next value) middle) :
    Reports task (Execution.evaluate condition >>= next) := by
  intro machine formed unfailing
  obtain ⟨result, middle, testRun, early, tested⟩ :=
    Execution.evaluate_spec operated formed unfailing
  cases result with
  | error fault =>
      exact Or.inr ⟨some fault, "", middle, bind_of_error next testRun, early, fails tested⟩
  | ok value =>
      unfold ReportsFrom
      rw [bind_of_ok next testRun]
      rcases goes value machine middle early tested with exhausted | ⟨result, output, left, rest⟩
      · exact Or.inl exhausted
      · obtain ⟨run, late, runs⟩ := rest
        exact Or.inr ⟨result, output, left, run, early.silently late, runs⟩

theorem reports_iterate {body : Stmt} {action : Execution Unit}
    (reports : Reports (.one body) action) (rounds : Nat) :
    Reports (.one (.loop condition body))
      (Execution.iterate (Execution.evaluate condition) action rounds) := by
  induction rounds with
  | zero => exact fun machine _ _ => Or.inl ⟨machine, rfl⟩
  | succ rounds ih =>
      refine reports_of_test operated .loopFails fun value machine middle early tested => ?_
      by_cases truthy : Truthy value
      · rw [if_pos (truthy_iff.mpr truthy)]
        exact reports.bind ih early.formed early.unfailing (.loopBodyFails tested truthy)
          (.loopAgain tested truthy)
      · rw [if_neg (mt truthy_iff.mp truthy)]
        exact Or.inr ⟨none, "", middle, rfl, early.stays, .loopDone tested truthy⟩

end Tested

mutual

theorem Stmt.execute_reports (budget : Nat) :
    ∀ statement : Stmt, statement.WellOperated →
      Reports (.one statement) (statement.execute budget)
  | .expression expr, operated => by
      refine reports_of_test operated .expressionFails fun value machine middle early tested => ?_
      exact Or.inr ⟨none, "", middle, rfl, early.stays, .expression tested⟩
  | .print expr, operated => by
      refine reports_of_test operated .printFails fun value machine middle early tested => ?_
      obtain ⟨left, run, late, kept⟩ :=
        Execution.print_spec early.formed early.unfailing value expr.printToken
      refine Or.inr ⟨none, _, left, run, late, ?_⟩
      rw [kept]
      exact .print tested (shows_iff.mpr rfl)
  | .var name none, _ => by
      intro machine formed unfailing
      obtain ⟨left, run, leaves, chain⟩ := Execution.define_spec formed unfailing name .nil
      refine Or.inr ⟨none, "", left, run, leaves, ?_⟩
      rw [chain]
      exact .bare name
  | .var name (some expr), operated => by
      refine reports_of_test operated .initializerFails fun value machine middle early tested => ?_
      obtain ⟨left, run, leaves, chain⟩ :=
        Execution.define_spec early.formed early.unfailing name value
      refine Or.inr ⟨none, "", left, run, leaves, ?_⟩
      rw [chain]
      exact .initialized tested
  | .block body, operated => by
      intro machine formed unfailing
      obtain ⟨entered, chain⟩ := Execution.enterBlock_chain formed body.length
      rcases executeAll_reports budget body operated (Execution.enterBlock body.length machine)
        entered unfailing with ⟨left, run⟩ | ⟨result, output, left, run, leaves, inner⟩
      · refine Or.inl ⟨left.leaveScope, ?_⟩
        rw [Execution.block_run, run]
      · rw [chain] at inner
        obtain ⟨names, outer, shape⟩ := inner.inside
        obtain ⟨whole, closed, outside⟩ := Execution.block_finished run leaves shape
        rw [shape] at inner
        refine Or.inr ⟨result, output, left.leaveScope, whole, closed, ?_⟩
        rw [outside]
        exact .block inner
  | .branch condition onTrue none, operated => by
      refine reports_of_test operated.1 .branchFails fun value machine middle early tested => ?_
      by_cases truthy : Truthy value
      · rw [if_pos (truthy_iff.mpr truthy)]
        have taken := execute_reports budget onTrue operated.2 middle early.formed early.unfailing
        exact taken.mono (.branchTrue tested truthy)
      · rw [if_neg (mt truthy_iff.mp truthy)]
        exact Or.inr ⟨none, "", middle, rfl, early.stays, .branchNone tested truthy⟩
  | .branch condition onTrue (some onFalse), operated => by
      refine reports_of_test operated.1 .branchFails fun value machine middle early tested => ?_
      by_cases truthy : Truthy value
      · rw [if_pos (truthy_iff.mpr truthy)]
        have taken := execute_reports budget onTrue operated.2.1 middle early.formed early.unfailing
        exact taken.mono (.branchTrue tested truthy)
      · rw [if_neg (mt truthy_iff.mp truthy)]
        have taken := execute_reports budget onFalse operated.2.2 middle early.formed
          early.unfailing
        exact taken.mono (.branchFalse tested truthy)
  | .loop condition body, operated =>
      reports_iterate operated.1 (execute_reports budget body operated.2) budget

theorem Stmt.executeAll_reports (budget : Nat) :
    ∀ statements : List Stmt, Stmt.AllWellOperated statements →
      Reports (.all statements) (Stmt.executeAll budget statements)
  | [], _ => fun machine formed unfailing =>
      Or.inr ⟨none, "", machine, rfl, ⟨formed, unfailing, String.append_empty.symm⟩, .done⟩
  | statement :: rest, operated => fun _ formed unfailing =>
      (execute_reports budget statement operated.1).bind
        (executeAll_reports budget rest operated.2) formed unfailing .stops .next

end

end TreeWalk
