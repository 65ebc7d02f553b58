import TreeWalk.Proofs.Execution.CutRuns

/-!
# Refused writes

A run ends with the first write that is refused, and a statement begins only as long as nothing has
been refused.  Set beside the same program on a sink that takes every text, the run differs in
nothing but that it is cut short.
-/

set_option autoImplicit false

namespace TreeWalk

open Execution (Cuts cuts_evaluate)
open Machine (Printed Twin)
open Semantics (Task)
open Stateful (bind_eq_error left left_of_error left_of_ok)

/-! ## Statements that begin -/

/-- When the machine is set to a task, this statement begins in the machine that it has become by
then.  A loop begins again with each round. -/
inductive Machine.Begins : Machine → Task → Stmt → Machine → Prop where
  | here {machine : Machine} {statement : Stmt} : Begins machine (.one statement) statement machine
  | block {machine inside reached : Machine} {body : List Stmt} {statement : Stmt}
      (opened : Execution.note (.executingBlock body.length) machine.enterScope = .ok () inside)
      (inner : Begins inside (.all body) statement reached) :
      Begins machine (.one (.block body)) statement reached
  | branchTrue {machine tested reached : Machine} {condition : Expr} {value : Value}
      {onTrue statement : Stmt} {onFalse : Option Stmt}
      (test : Execution.evaluate condition machine = .ok value tested)
      (truthy : value.isTruthy = true) (inner : Begins tested (.one onTrue) statement reached) :
      Begins machine (.one (.branch condition onTrue onFalse)) statement reached
  | branchFalse {machine tested reached : Machine} {condition : Expr} {value : Value}
      {onTrue onFalse statement : Stmt}
      (test : Execution.evaluate condition machine = .ok value tested)
      (falsy : value.isTruthy = false) (inner : Begins tested (.one onFalse) statement reached) :
      Begins machine (.one (.branch condition onTrue (some onFalse))) statement reached
  | loopBody {machine tested reached : Machine} {condition : Expr} {value : Value}
      {body statement : Stmt} (test : Execution.evaluate condition machine = .ok value tested)
      (truthy : value.isTruthy = true) (inner : Begins tested (.one body) statement reached) :
      Begins machine (.one (.loop condition body)) statement reached
  | loopAgain {machine tested after reached : Machine} {condition : Expr} {value : Value}
      {body statement : Stmt} {budget : Nat}
      (test : Execution.evaluate condition machine = .ok value tested)
      (truthy : value.isTruthy = true) (ran : body.execute budget tested = .ok () after)
      (inner : Begins after (.one (.loop condition body)) statement reached) :
      Begins machine (.one (.loop condition body)) statement reached
  | first {machine reached : Machine} {first statement : Stmt} {rest : List Stmt}
      (inner : Begins machine (.one first) statement reached) :
      Begins machine (.all (first :: rest)) statement reached
  | next {machine after reached : Machine} {first statement : Stmt} {rest : List Stmt}
      {budget : Nat} (ran : first.execute budget machine = .ok () after)
      (inner : Begins after (.all rest) statement reached) :
      Begins machine (.all (first :: rest)) statement reached

/-- Only in a machine that has had nothing refused does a statement begin. -/
theorem Machine.Begins.printed {machine reached : Machine} {task : Task} {statement : Stmt}
    (begins : machine.Begins task statement reached) :
    ∃ offered, machine.Printed offered reached := by
  induction begins with
  | here => exact ⟨[], .nothing rfl⟩
  | block opened _ ih =>
      cases opened
      obtain ⟨_, later⟩ := ih
      exact ⟨_, later.congr rfl rfl⟩
  | branchTrue test _ _ ih | branchFalse test _ _ ih | loopBody test _ _ ih =>
      obtain ⟨_, tested⟩ := (cuts_evaluate _).printed test
      obtain ⟨_, later⟩ := ih
      exact ⟨_, tested.trans later⟩
  | loopAgain test _ ran _ ih =>
      obtain ⟨_, tested⟩ := (cuts_evaluate _).printed test
      obtain ⟨_, done⟩ := (Stmt.execute_cuts _ _).printed ran
      obtain ⟨_, later⟩ := ih
      exact ⟨_, (tested.trans done).trans later⟩
  | first _ ih => exact ih
  | next ran _ ih =>
      obtain ⟨_, done⟩ := (Stmt.execute_cuts _ _).printed ran
      obtain ⟨_, later⟩ := ih
      exact ⟨_, done.trans later⟩

/-! ## Prints that are refused -/

namespace Execution

/-- A write of the action that is refused belongs to a print statement that has begun by then. -/
def Owns (task : Task) (action : Execution Unit) : Prop :=
  ∀ machine after failure blamed,
    action machine = .error (.raise (.outputFailed failure) blamed) after →
      ∃ expr reached, machine.Begins task (.print expr) reached ∧ expr.printToken = blamed

theorem evaluate_not_refused {expr : Expr} {machine after : Machine} {failure : IoFailure}
    {blamed : Token} :
    evaluate expr machine ≠ .error (.raise (.outputFailed failure) blamed) after := by
  intro run
  unfold evaluate at run
  split at run
  · cases run
  · next failed =>
      cases run
      cases expr.evaluate_silent _ _ _ failed

theorem blamed_of_write {text : String} {token blamed : Token} {machine after : Machine}
    {failure : IoFailure}
    (run : write text token machine = .error (.raise (.outputFailed failure) blamed) after) :
    token = blamed := by
  unfold write at run
  split at run
  · cases run
  · cases run
    rfl

theorem refused_behind_test {condition : Expr} {next : Value → Execution Unit}
    {machine after : Machine} {failure : IoFailure} {blamed : Token}
    (run : (evaluate condition >>= next) machine =
      .error (.raise (.outputFailed failure) blamed) after) :
    ∃ value tested, evaluate condition machine = .ok value tested ∧
      next value tested = .error (.raise (.outputFailed failure) blamed) after := by
  obtain failed | ⟨value, tested, test, run⟩ := bind_eq_error.mp run
  · exact absurd failed evaluate_not_refused
  · exact ⟨value, tested, test, run⟩

theorem owns_print (expr : Expr) (budget : Nat) :
    Owns (.one (.print expr)) ((Stmt.print expr).execute budget) := by
  intro machine after failure blamed run
  refine ⟨expr, machine, .here, ?_⟩
  obtain ⟨value, tested, -, run⟩ := refused_behind_test run
  obtain failed | ⟨_, last, -, failed⟩ := bind_eq_error.mp run
  · exact blamed_of_write failed
  · exact blamed_of_write failed

theorem owns_block {body : List Stmt} {budget : Nat}
    (inner : Owns (.all body) (Stmt.executeAll budget body)) :
    Owns (.one (.block body)) ((Stmt.block body).execute budget) := by
  intro machine after failure blamed run
  unfold Stmt.execute inScope at run
  split at run
  · cases run
  · next failed =>
      cases run
      obtain noted | ⟨_, inside, opened, failed⟩ := bind_eq_error.mp failed
      · cases noted
      · obtain ⟨expr, reached, begins, blame⟩ := inner _ _ _ _ failed
        exact ⟨expr, reached, .block opened begins, blame⟩

theorem owns_branch {condition : Expr} {onTrue : Stmt} {onFalse : Option Stmt} {budget : Nat}
    (taken : Owns (.one onTrue) (onTrue.execute budget))
    (refused : ∀ statement, onFalse = some statement →
      Owns (.one statement) (statement.execute budget)) :
    Owns (.one (.branch condition onTrue onFalse))
      ((Stmt.branch condition onTrue onFalse).execute budget) := by
  intro machine after failure blamed run
  cases onFalse with
  | none =>
      obtain ⟨value, tested, test, run⟩ := refused_behind_test run
      split at run
      · next truthy =>
          obtain ⟨expr, reached, begins, blame⟩ := taken _ _ _ _ run
          exact ⟨expr, reached, .branchTrue test truthy begins, blame⟩
      · cases run
  | some statement =>
      obtain ⟨value, tested, test, run⟩ := refused_behind_test run
      split at run
      · next truthy =>
          obtain ⟨expr, reached, begins, blame⟩ := taken _ _ _ _ run
          exact ⟨expr, reached, .branchTrue test truthy begins, blame⟩
      · next falsy =>
          obtain ⟨expr, reached, begins, blame⟩ := refused statement rfl _ _ _ _ run
          exact ⟨expr, reached, .branchFalse test (by simpa using falsy) begins, blame⟩

theorem owns_sequence {first : Stmt} {rest : List Stmt} {budget : Nat}
    (head : Owns (.one first) (first.execute budget))
    (tail : Owns (.all rest) (Stmt.executeAll budget rest)) :
    Owns (.all (first :: rest)) (Stmt.executeAll budget (first :: rest)) := by
  intro machine after failure blamed run
  obtain failed | ⟨_, middle, ran, run⟩ := bind_eq_error.mp run
  · obtain ⟨expr, reached, begins, blame⟩ := head _ _ _ _ failed
    exact ⟨expr, reached, .first begins, blame⟩
  · obtain ⟨expr, reached, begins, blame⟩ := tail _ _ _ _ run
    exact ⟨expr, reached, .next ran begins, blame⟩

theorem owns_unwritten {task : Task} {expr : Expr} {next : Value → Execution Unit}
    (silent : ∀ value machine, ∃ after, next value machine = .ok () after) :
    Owns task (evaluate expr >>= next) := by
  intro machine after failure blamed run
  obtain ⟨value, tested, -, run⟩ := refused_behind_test run
  obtain ⟨other, done⟩ := silent value tested
  rw [done] at run
  cases run

theorem owns_loop {condition : Expr} {body : Stmt} {budget : Nat}
    (inner : Owns (.one body) (body.execute budget)) (rounds : Nat) :
    Owns (.one (.loop condition body))
      (iterate (evaluate condition) (body.execute budget) rounds) := by
  induction rounds with
  | zero =>
      intro machine after failure blamed run
      cases run
  | succ rounds ih =>
      intro machine after failure blamed run
      obtain ⟨value, tested, test, run⟩ := refused_behind_test run
      split at run
      · next truthy =>
          obtain failed | ⟨_, middle, ran, run⟩ := bind_eq_error.mp run
          · obtain ⟨expr, reached, begins, blame⟩ := inner _ _ _ _ failed
            exact ⟨expr, reached, .loopBody test truthy begins, blame⟩
          · obtain ⟨expr, reached, begins, blame⟩ := ih _ _ _ _ run
            exact ⟨expr, reached, .loopAgain test truthy ran begins, blame⟩
      · cases run

end Execution

open Execution (Owns owns_block owns_branch owns_loop owns_print owns_sequence owns_unwritten)

mutual

theorem Stmt.execute_owns (budget : Nat) : ∀ statement : Stmt,
    Owns (.one statement) (statement.execute budget)
  | .expression _ => owns_unwritten fun _ _ => ⟨_, rfl⟩
  | .print expr => owns_print expr budget
  | .var _ none => fun _ _ _ _ run => by cases run
  | .var _ (some _) => owns_unwritten fun _ _ => ⟨_, rfl⟩
  | .block body => owns_block (executeAll_owns budget body)
  | .branch _ onTrue none => owns_branch (execute_owns budget onTrue) (by simp)
  | .branch _ onTrue (some onFalse) =>
      have refused := execute_owns budget onFalse
      owns_branch (execute_owns budget onTrue) (by simpa using refused)
  | .loop condition body => owns_loop (execute_owns budget body) budget

theorem Stmt.executeAll_owns (budget : Nat) : ∀ statements : List Stmt,
    Owns (.all statements) (Stmt.executeAll budget statements)
  | [] => fun _ _ _ _ run => by cases run
  | statement :: rest => owns_sequence (execute_owns budget statement) (executeAll_owns budget rest)

end

/-! ## Programs -/

namespace Execution

theorem finished_eq_ok {left after : Machine} {result : Option Fault}
    (same : finished left result = .ok () after) :
    left = after ∧ ∀ other, finished other result = .ok () other := by
  cases result with
  | none =>
      cases same
      exact ⟨rfl, fun _ => rfl⟩
  | some fault => cases same

theorem finished_eq_error {left after : Machine} {result : Option Fault} {halt : Halt}
    (same : finished left result = .error halt after) :
    left = after ∧ ∀ other, finished other result = .error halt other := by
  cases result with
  | none => cases same
  | some fault =>
      cases same
      exact ⟨rfl, fun _ => rfl⟩

end Execution

namespace Machine

open Execution (finished_eq_error finished_eq_ok)

theorem interpret_of_error {budget : Nat} {program : List Stmt} {machine after : Machine}
    {halt : Halt} (run : Stmt.executeAll budget program machine = .error halt after) :
    ∃ noted, interpret budget program machine = .error halt noted ∧
      noted.environment = after.environment ∧ noted.sink = after.sink := by
  unfold interpret
  rw [run]
  cases halt <;> exact ⟨_, rfl, rfl, rfl⟩

theorem interpret_of_ok {budget : Nat} {program : List Stmt} {machine after : Machine}
    (run : Stmt.executeAll budget program machine = .ok () after) :
    interpret budget program machine = .ok () after := by
  unfold interpret
  rw [run]

theorem interpret_cuts (budget : Nat) (program : List Stmt) : Cuts (interpret budget program) := by
  intro machine whole twin
  cases Stmt.executeAll_cuts budget program machine whole twin with
  | returned run other printed also twin =>
      exact .returned (interpret_of_ok run) (interpret_of_ok other) printed also twin
  | halted run other unrelated printed also twin =>
      obtain ⟨noted, same, environment, sink⟩ := interpret_of_error run
      obtain ⟨noted', same', environment', sink'⟩ := interpret_of_error other
      refine .halted same same' unrelated (printed.congr rfl sink) (also.congr rfl sink') ⟨?_, ?_⟩
      · rw [environment, environment', twin.environment]
      · rw [sink']
        exact twin.unfailing
  | refused run printed also attempts goesOn =>
      obtain ⟨noted, same, -, sink⟩ := interpret_of_error run
      refine .refused same printed also (by rw [sink, attempts]) ?_
      cases other : Stmt.executeAll budget program whole with
      | ok value final =>
          rw [left_of_ok other] at goesOn
          rwa [left_of_ok (interpret_of_ok other)]
      | error halt final =>
          obtain ⟨noted', same', -, sink'⟩ := interpret_of_error other
          rw [left_of_error other] at goesOn
          rwa [left_of_error same', sink']

/-- At some moment of its run the program has a text refused. -/
def Refuses (program : List Stmt) (machine : Machine) (failure : IoFailure) : Prop :=
  ∃ budget offered, (left (interpret budget program) machine).sink.attempts =
      offered ++ machine.sink.attempts ∧
    ∃ attempt ∈ offered, attempt.refusal = some failure

/-- The two runs have left the same environment and have printed the same texts. -/
def Alike (machine after whole final : Machine) : Prop :=
  final.environment = after.environment ∧
    ∃ offered, machine.Printed offered after ∧ whole.Printed offered final

/-- A run has been cut short at a text.  Beside it, the other run is given the texts before it and
then the same text, whatever it is given later. -/
structure CutShort (program : List Stmt) (machine whole : Machine) (failure : IoFailure)
    (blamed : Token) (text : String) (offered : List Attempt) (after : Machine) : Prop where
  begun : ∃ expr reached,
    machine.Begins (.all program) (.print expr) reached ∧ expr.printToken = blamed
  taken : ∀ attempt ∈ offered, attempt.refusal = none
  last : after.sink.attempts = ⟨text, some failure⟩ :: (offered ++ machine.sink.attempts)
  front : ∃ budget, ∀ more, budget ≤ more →
    ⟨text, none⟩ :: (offered ++ whole.sink.attempts) <:+
      (left (interpret more program) whole).sink.attempts

section Program

variable {program : List Stmt} {machine whole : Machine} (twin : machine.Twin whole)

include twin

theorem cut_of_error {budget : Nat} {failure : IoFailure} {blamed : Token} {after : Machine}
    (run : interpret budget program machine =
      .error (.raise (.outputFailed failure) blamed) after) :
    ∃ text offered, (∀ attempt ∈ offered, attempt.refusal = none) ∧
      after.sink.attempts = ⟨text, some failure⟩ :: (offered ++ machine.sink.attempts) ∧
      ⟨text, none⟩ :: (offered ++ whole.sink.attempts) <:+
        (left (interpret budget program) whole).sink.attempts := by
  cases interpret_cuts budget program machine whole twin with
  | returned run' =>
      rw [run] at run'
      cases run'
  | halted run' _ unrelated =>
      rw [run] at run'
      cases run'
      cases unrelated
  | refused run' printed also attempts goesOn =>
      rw [run] at run'
      cases run'
      refine ⟨_, _, printed.taken, by rw [attempts, printed.attempts], ?_⟩
      rwa [← also.attempts]

theorem refuses_of_error {budget : Nat} {failure : IoFailure} {blamed : Token} {after : Machine}
    (run : interpret budget program machine =
      .error (.raise (.outputFailed failure) blamed) after) :
    machine.Refuses program failure := by
  obtain ⟨text, offered, -, attempts, -⟩ := cut_of_error twin run
  refine ⟨budget, ⟨text, some failure⟩ :: offered, ?_, _, List.mem_cons_self, rfl⟩
  rw [left_of_error run, attempts]
  rfl

section Taken

variable (taken : ∀ failure, ¬ machine.Refuses program failure)

include taken

theorem Ends.forth {result : Option Fault} {after : Machine}
    (ends : machine.Ends program result after) :
    ∃ final, whole.Ends program result final ∧ Alike machine after whole final := by
  obtain ⟨budget, run⟩ := ends
  cases interpret_cuts budget program machine whole twin with
  | returned run' other printed also twin =>
      obtain ⟨rfl, same⟩ := finished_eq_ok (run.symm.trans run')
      exact ⟨_, ⟨budget, other.trans (same _).symm⟩, twin.environment, _, printed, also⟩
  | halted run' other unrelated printed also twin =>
      obtain ⟨rfl, same⟩ := finished_eq_error (run.symm.trans run')
      exact ⟨_, ⟨budget, other.trans (same _).symm⟩, twin.environment, _, printed, also⟩
  | refused run' => exact absurd (refuses_of_error twin run') (taken _)

theorem Ends.back {result : Option Fault} {final : Machine}
    (ends : whole.Ends program result final) :
    ∃ after, machine.Ends program result after ∧ Alike machine after whole final := by
  obtain ⟨budget, other⟩ := ends
  cases interpret_cuts budget program machine whole twin with
  | returned run other' printed also twin =>
      obtain ⟨rfl, same⟩ := finished_eq_ok (other.symm.trans other')
      exact ⟨_, ⟨budget, run.trans (same _).symm⟩, twin.environment, _, printed, also⟩
  | halted run other' unrelated printed also twin =>
      obtain ⟨rfl, same⟩ := finished_eq_error (other.symm.trans other')
      exact ⟨_, ⟨budget, run.trans (same _).symm⟩, twin.environment, _, printed, also⟩
  | refused run => exact absurd (refuses_of_error twin run) (taken _)

end Taken

theorem Ends.cut {failure : IoFailure} {blamed : Token} {after : Machine}
    (ends : machine.Ends program (some ⟨.outputFailed failure, blamed⟩) after) :
    ∃ text offered, CutShort program machine whole failure blamed text offered after := by
  obtain ⟨budget, run⟩ := ends
  obtain ⟨ended, inner, -, -⟩ := interpret_eq_finished run
  obtain ⟨text, offered, taken, attempts, -⟩ := cut_of_error twin run
  refine ⟨text, offered, Stmt.executeAll_owns budget program _ _ _ _ inner, taken, attempts,
    budget, fun more within => ?_⟩
  -- within more rounds the run ends alike, so the refused text is the same one
  have again := (interpret_stable within program).finished run
  obtain ⟨text', offered', -, attempts', goesOn⟩ := cut_of_error twin again
  obtain ⟨same, front⟩ := List.cons.inj (attempts.symm.trans attempts')
  cases same
  rwa [List.append_cancel_right front]

theorem ends_of_refuses {failure : IoFailure} (refuses : machine.Refuses program failure) :
    ∃ blamed after, machine.Ends program (some ⟨.outputFailed failure, blamed⟩) after := by
  obtain ⟨budget, offered, attempts, attempt, member, refusal⟩ := refuses
  cases interpret_cuts budget program machine whole twin with
  | returned run other printed also twin =>
      rw [left_of_ok run] at attempts
      exact absurd (printed.taken_of_attempts attempts attempt member) (by simp [refusal])
  | halted run other unrelated printed also twin =>
      rw [left_of_error run] at attempts
      exact absurd (printed.taken_of_attempts attempts attempt member) (by simp [refusal])
  | @refused failure' blamed text after middle stage earlier run printed also all =>
      rw [left_of_error run, all, printed.attempts, ← List.cons_append] at attempts
      rw [← List.append_cancel_right attempts] at member
      rcases List.mem_cons.mp member with rfl | early
      · cases refusal
        exact ⟨blamed, after, budget, run⟩
      · exact absurd (printed.taken attempt early) (by simp [refusal])

end Program

/-- A sink that refuses a text only cuts the output of a run short.  Beside a run from the same
environment on a sink that takes every text: if nothing is refused, one run ends exactly when the
other does, with the same result, environment and texts.  A text is refused exactly when the run
ends with the fault that tells so; it is then the last text that was offered, and those before it
are what the other sink is given first.  No statement begins when a text has been refused. -/
theorem cut_short_by_refusal (program : List Stmt) {machine whole : Machine}
    (twin : machine.Twin whole) :
    ((∀ failure, ¬ machine.Refuses program failure) → ∀ result,
        (∀ after, machine.Ends program result after →
          ∃ final, whole.Ends program result final ∧ Alike machine after whole final) ∧
        (∀ final, whole.Ends program result final →
          ∃ after, machine.Ends program result after ∧ Alike machine after whole final)) ∧
      (∀ failure, machine.Refuses program failure ↔
        ∃ blamed after, machine.Ends program (some ⟨.outputFailed failure, blamed⟩) after) ∧
      (∀ failure blamed after,
        machine.Ends program (some ⟨.outputFailed failure, blamed⟩) after →
          ∃ text offered, CutShort program machine whole failure blamed text offered after) ∧
      (∀ statement reached, machine.Begins (.all program) statement reached →
        ∃ offered, machine.Printed offered reached) := by
  refine ⟨fun taken result => ⟨fun _ ends => ends.forth twin taken, fun _ ends =>
    ends.back twin taken⟩, fun failure => ⟨ends_of_refuses twin, ?_⟩, fun _ _ _ ends =>
    ends.cut twin, fun _ _ begins => begins.printed⟩
  rintro ⟨blamed, after, budget, run⟩
  exact refuses_of_error twin run

/-- `print nil;` on a sink that takes no text. -/
theorem cut_short_by_refusal_printNil :
    (start (.failingAfter 0 .other)).Twin (start .unfailing) ∧
      (start (.failingAfter 0 .other)).Refuses [.print (.literal .nil ⟨6, 9⟩)] .other ∧
      ∃ blamed after, (start (.failingAfter 0 .other)).Ends [.print (.literal .nil ⟨6, 9⟩)]
        (some ⟨.outputFailed .other, blamed⟩) after := by
  have twin : (start (.failingAfter 0 .other)).Twin (start .unfailing) := ⟨rfl, fun _ _ => rfl⟩
  have refuses : (start (.failingAfter 0 .other)).Refuses [.print (.literal .nil ⟨6, 9⟩)]
      .other := ⟨0, [⟨"nil", some .other⟩], rfl, _, List.mem_singleton_self _, rfl⟩
  have whole := cut_short_by_refusal [.print (.literal .nil ⟨6, 9⟩)] twin
  exact ⟨twin, refuses, (whole.2.1 .other).mp refuses⟩

end Machine

end TreeWalk
