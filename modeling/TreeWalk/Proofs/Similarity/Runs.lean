import TreeWalk.Proofs.Execution.Interpretation
import TreeWalk.Proofs.Similarity.Trees

/-!
# Runs do not depend on places

Programs that differ in places only do the same with the same environment and the same sink, and
their faults differ in places only.  Only a value that cannot be printed tells more: the token
that is blamed for a literal stands on line zero whatever the alignment.
-/

set_option autoImplicit false

namespace TreeWalk

open Execution (finished)
open Semantics (Task)
open Stateful (Matched Simulates)

namespace Alignment

variable {alignment : Alignment}

inductive Halts (alignment : Alignment) : Halt → Halt → Prop
  | fault {fault fault' : Fault} (faults : alignment.Faults fault fault') :
      Halts alignment (.fault fault) (.fault fault')
  | stuck {operator operator' : Token} (operators : alignment.Tokens operator operator') :
      Halts alignment (.stuck operator) (.stuck operator')
  | exhausted : Halts alignment .exhausted .exhausted

theorem Halts.raise {token token' : Token} (cause : FaultCause)
    (tokens : alignment.Tokens token token') :
    alignment.Halts (.raise cause token) (.raise cause token') :=
  .fault ⟨rfl, tokens⟩

/-! ## Expressions -/

/-- In equal environments the evaluations yield equal values, or fail alike. -/
def Evaluations (alignment : Alignment) : Evaluation Value → Evaluation Value → Prop :=
  Simulates alignment.Halts Eq Eq

inductive Outcomes (alignment : Alignment) : Except Halt Value → Except Halt Value → Prop
  | ok (value : Value) : Outcomes alignment (.ok value) (.ok value)
  | error {halt halt' : Halt} (halts : alignment.Halts halt halt') :
      Outcomes alignment (.error halt) (.error halt')

theorem Outcomes.evaluations {left right : Except Halt Value}
    (alike : alignment.Outcomes left right) :
    alignment.Evaluations (Evaluation.ofExcept left) (Evaluation.ofExcept right) := by
  rintro start _ rfl
  cases alike with
  | ok value => exact .ok rfl rfl
  | error halts => exact .error halts rfl

theorem applyUnary {operator operator' : Token} (operators : alignment.Tokens operator operator')
    (value : Value) : alignment.Outcomes (Operator.applyUnary operator value)
      (Operator.applyUnary operator' value) := by
  unfold Operator.applyUnary
  rw [operators.kind]
  split
  · exact .ok _
  · exact .ok _
  · exact .error (.raise _ operators)

theorem applyBinary {operator operator' : Token} (operators : alignment.Tokens operator operator')
    (left right : Value) : alignment.Outcomes (Operator.applyBinary operator left right)
      (Operator.applyBinary operator' left right) := by
  unfold Operator.applyBinary
  rw [operators.kind]
  split
  · exact .ok _
  · exact .ok _
  · unfold Operator.add
    split
    · exact .ok _
    · exact .ok _
    · exact .ok _
    · exact .ok _
    · exact .error (.raise _ operators)
  · split
    · unfold Operator.arithmetic
      rw [operators.kind]
      split
      all_goals try exact .ok _
      · split
        · exact .error (.raise _ operators)
        · exact .ok _
      · exact .error (.stuck operators)
    · exact .error (.raise _ operators)

theorem stopsAt {operator operator' : Token} (operators : alignment.Tokens operator operator')
    (value : Value) : Operator.stopsAt operator value = Operator.stopsAt operator' value := by
  unfold Operator.stopsAt
  rw [operators.kind]

theorem read {name name' : Token} (names : alignment.Tokens name name') :
    alignment.Evaluations (Evaluation.read name) (Evaluation.read name') := by
  rintro start _ rfl
  unfold Evaluation.read
  rw [names.lexeme]
  split
  · exact .ok rfl rfl
  · exact .error (.raise _ names) rfl

theorem write {name name' : Token} (names : alignment.Tokens name name') (value : Value) :
    Simulates alignment.Halts Eq Eq (Evaluation.write name value)
      (Evaluation.write name' value) := by
  rintro start _ rfl
  unfold Evaluation.write
  rw [names.lexeme]
  split
  · exact .ok rfl rfl
  · exact .error (.raise _ names) rfl

theorem Exprs.evaluations {left right : Expr} (alike : alignment.Exprs left right) :
    alignment.Evaluations left.evaluate right.evaluate := by
  induction alike with
  | literal value spans => exact .pure rfl
  | grouping inside ih => exact ih
  | reference names => exact read names
  | assign names _ ih =>
      refine ih.bind ?_
      rintro value _ rfl
      exact (write names value).bind fun _ _ _ => .pure rfl
  | unary operators _ ih =>
      refine ih.bind ?_
      rintro value _ rfl
      exact (applyUnary operators value).evaluations
  | logical _ operators _ firstIh secondIh =>
      refine firstIh.bind ?_
      rintro value _ rfl
      rw [stopsAt operators value]
      split
      · exact .pure rfl
      · exact secondIh
  | binary _ operators _ firstIh secondIh =>
      refine firstIh.bind ?_
      rintro one _ rfl
      refine secondIh.bind ?_
      rintro other _ rfl
      exact (applyBinary operators one other).evaluations

/-! ## Statements -/

/-- Machines with the same environment and the same sink.  Either the sink takes every text, or
blaming line zero is no difference. -/
structure Machines (alignment : Alignment) (left right : Machine) : Prop where
  environment : left.environment = right.environment
  sink : left.sink = right.sink
  blame : alignment.lines 0 0 ∨ left.sink.Unfailing

def Executions {α : Type} (alignment : Alignment) : Execution α → Execution α → Prop :=
  Simulates alignment.Halts alignment.Machines Eq

theorem Exprs.printToken {left right : Expr} (alike : alignment.Exprs left right)
    (zero : alignment.lines 0 0) : alignment.Tokens left.printToken right.printToken := by
  induction alike with
  | literal value spans => exact ⟨rfl, rfl, rfl, zero, spans⟩
  | grouping _ ih => exact ih
  | reference names | assign names => exact names
  | unary operators | binary _ operators | logical _ operators => exact operators

section Actions

variable {left right : Machine} (machines : alignment.Machines left right)

include machines

theorem Machines.withEnvironment (environment : Environment) :
    alignment.Machines { left with environment := environment }
      { right with environment := environment } :=
  ⟨rfl, machines.sink, machines.blame⟩

theorem Machines.enterBlock (length : Nat) :
    alignment.Machines (Execution.enterBlock length left) (Execution.enterBlock length right) :=
  ⟨congrArg Environment.push machines.environment, machines.sink, machines.blame⟩

theorem Machines.leaveScope : alignment.Machines left.leaveScope right.leaveScope :=
  ⟨congrArg Environment.pop machines.environment, machines.sink, machines.blame⟩

end Actions

theorem Exprs.executions {left right : Expr} (alike : alignment.Exprs left right) :
    alignment.Executions (Execution.evaluate left) (Execution.evaluate right) := by
  intro machine machine' machines
  have evaluated := alike.evaluations machine.environment machine'.environment machines.environment
  unfold Execution.evaluate
  generalize left.evaluate machine.environment = one at evaluated ⊢
  generalize right.evaluate machine'.environment = other at evaluated ⊢
  cases evaluated with
  | ok same after =>
      cases after
      exact .ok same (machines.withEnvironment _)
  | error halts after =>
      cases after
      exact .error halts (machines.withEnvironment _)

theorem executions_write (text : String) {blamed blamed' : Token}
    (tokens : alignment.lines 0 0 → alignment.Tokens blamed blamed') :
    alignment.Executions (Execution.write text blamed) (Execution.write text blamed') := by
  intro machine machine' machines
  unfold Execution.write
  rw [← machines.sink]
  -- the blamed tokens need not correspond if nothing is refused
  rcases machines.blame with zero | unfailing
  · cases machine.sink.write text with
    | mk refusal sink =>
        cases refusal with
        | none => exact .ok rfl ⟨machines.environment, rfl, Or.inl zero⟩
        | some failure =>
            exact .error (.raise _ (tokens zero)) ⟨machines.environment, rfl, Or.inl zero⟩
  · obtain ⟨sink, taken, still, -⟩ := Sink.write_unfailing unfailing text
    rw [taken]
    exact .ok rfl ⟨machines.environment, rfl, Or.inr still⟩

theorem executions_define {name name' : Token} (names : alignment.Tokens name name')
    (value : Value) :
    alignment.Executions (Execution.define name value) (Execution.define name' value) := by
  intro machine machine' machines
  unfold Execution.define
  rw [names.lexeme, machines.environment]
  exact .ok rfl (machines.withEnvironment _)

theorem executions_iterate {test test' : Execution Value} {body body' : Execution Unit}
    (tests : alignment.Executions test test') (bodies : alignment.Executions body body')
    (rounds : Nat) :
    alignment.Executions (Execution.iterate test body rounds)
      (Execution.iterate test' body' rounds) := by
  induction rounds with
  | zero => exact fun machine machine' machines => .error .exhausted machines
  | succ rounds ih =>
      refine tests.bind ?_
      rintro value _ rfl
      split
      · exact bodies.bind fun _ _ _ => ih
      · exact .pure rfl

theorem Tasks.executions {left right : Task} (alike : alignment.Tasks left right) (budget : Nat) :
    alignment.Executions (left.execute budget) (right.execute budget) := by
  induction alike with
  | expression exprs => exact exprs.executions.bind fun _ _ _ => .pure rfl
  | print exprs =>
      refine exprs.executions.bind ?_
      rintro value _ rfl
      exact (executions_write _ exprs.printToken).bind fun _ _ _ =>
        executions_write _ exprs.printToken
  | bare names => exact executions_define names .nil
  | initialized names exprs =>
      refine exprs.executions.bind ?_
      rintro value _ rfl
      exact executions_define names value
  | @block body body' inside ih =>
      intro machine machine' machines
      have run := ih _ _ (machines.enterBlock body.length)
      change Matched _ _ _ ((Stmt.block body).execute budget machine)
        ((Stmt.block body').execute budget machine')
      rw [Execution.block_run, Execution.block_run, ← length_eq inside]
      simp only [Task.execute] at run
      generalize Stmt.executeAll budget body _ = one at run ⊢
      generalize Stmt.executeAll budget body' _ = other at run ⊢
      cases run with
      | ok same after => exact .ok rfl after.leaveScope
      | error halts after => exact .error halts after.leaveScope
  | branch conditions _ ih =>
      refine conditions.executions.bind ?_
      rintro value _ rfl
      split
      · exact ih
      · exact .pure rfl
  | either conditions _ _ takenIh refusedIh =>
      refine conditions.executions.bind ?_
      rintro value _ rfl
      split
      · exact takenIh
      · exact refusedIh
  | loop conditions _ ih => exact executions_iterate conditions.executions ih budget
  | nothing => exact .pure rfl
  | next _ _ headIh tailIh => exact headIh.bind fun _ _ _ => tailIh

/-! ## Programs -/

variable {program program' : List Stmt} {machine machine' : Machine}

theorem Tasks.interpret (programs : alignment.Tasks (.all program) (.all program'))
    (budget : Nat) :
    alignment.Executions (Machine.interpret budget program)
      (Machine.interpret budget program') := by
  intro machine machine' machines
  have run := programs.executions budget machine machine' machines
  simp only [Task.execute] at run
  unfold Machine.interpret
  generalize Stmt.executeAll budget program machine = one at run ⊢
  generalize Stmt.executeAll budget program' machine' = other at run ⊢
  cases run with
  | ok same after => exact .ok rfl after
  | error halts after =>
      cases halts with
      | fault faults => exact .error (.fault faults) ⟨after.environment, after.sink, after.blame⟩
      | stuck operators => exact .error (.stuck operators) after
      | exhausted => exact .error .exhausted after

theorem finished_of_matched {one other : EStateM.Result Halt Machine Unit}
    (matched : Matched alignment.Halts alignment.Machines Eq one other) :
    (∀ result left, one = finished left result → ∃ result' left', other = finished left' result' ∧
        Option.Rel alignment.Faults result result' ∧ alignment.Machines left left') ∧
      ∀ result' left', other = finished left' result' → ∃ result left,
        one = finished left result ∧ Option.Rel alignment.Faults result result' ∧
          alignment.Machines left left' := by
  cases matched with
  | ok same machines =>
      constructor
      · rintro (_ | fault) left ⟨⟩
        exact ⟨none, _, rfl, .none, machines⟩
      · rintro (_ | fault) left ⟨⟩
        exact ⟨none, _, rfl, .none, machines⟩
  | error halts machines =>
      constructor
      · rintro (_ | fault) left ⟨⟩
        cases halts with
        | fault faults => exact ⟨some _, _, rfl, .some faults, machines⟩
      · rintro (_ | fault) left ⟨⟩
        cases halts with
        | fault faults => exact ⟨some _, _, rfl, .some faults, machines⟩

/-- Similar programs end together, with similar faults and in similar machines. -/
theorem Tasks.ends (programs : alignment.Tasks (.all program) (.all program'))
    (machines : alignment.Machines machine machine') :
    (∀ result left, machine.Ends program result left → ∃ result' left',
        machine'.Ends program' result' left' ∧ Option.Rel alignment.Faults result result' ∧
          alignment.Machines left left') ∧
      ∀ result' left', machine'.Ends program' result' left' → ∃ result left,
        machine.Ends program result left ∧ Option.Rel alignment.Faults result result' ∧
          alignment.Machines left left' := by
  have matched (budget : Nat) :=
    finished_of_matched (programs.interpret budget machine machine' machines)
  constructor
  · rintro result left ⟨budget, run⟩
    obtain ⟨result', left', run', alike⟩ := (matched budget).1 result left run
    exact ⟨result', left', ⟨budget, run'⟩, alike⟩
  · rintro result' left' ⟨budget, run'⟩
    obtain ⟨result, left, run, alike⟩ := (matched budget).2 result' left' run'
    exact ⟨result, left, ⟨budget, run⟩, alike⟩

end Alignment

end TreeWalk
