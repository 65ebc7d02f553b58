import TreeWalk.Proofs.Execution.Agreement

/-!
# Names that are looked up

A mention is a place in a tree where a name is looked up: a variable, or the target of an
assignment.  A run reaches a mention in some environment, or in several if there is a loop around
it.  It ends with an undefined variable exactly when it reaches a mention whose name is unbound,
and the fault carries the token of that mention.
-/

set_option autoImplicit false

namespace TreeWalk

open Execution (finished)
open Semantics (Task Truthy truthy_iff)
open Stateful (bind_eq_error bind_of_error bind_of_ok)

/-- What is raised by a name without a binding. -/
def Fault.undefined (name : Token) : Fault := ⟨.undefinedVariable name.lexeme, name⟩

def Fault.TellsName (fault : Fault) : Prop := ∃ name, fault.cause = .undefinedVariable name

/-! ## Mentions in expressions -/

inductive Expr.Mention : Expr → Type
  | reference (name : Token) : Mention (.reference name)
  | target (name : Token) (value : Expr) : Mention (.assign name value)
  | assigned (name : Token) {value : Expr} (mention : Mention value) :
      Mention (.assign name value)
  | grouped {inner : Expr} (mention : Mention inner) : Mention (.grouping inner)
  | operand (operator : Token) {right : Expr} (mention : Mention right) :
      Mention (.unary operator right)
  | left (operator : Token) {left : Expr} (right : Expr) (mention : Mention left) :
      Mention (.binary left operator right)
  | right (operator : Token) (left : Expr) {right : Expr} (mention : Mention right) :
      Mention (.binary left operator right)
  | first (operator : Token) {left : Expr} (right : Expr) (mention : Mention left) :
      Mention (.logical left operator right)
  | second (operator : Token) (left : Expr) {right : Expr} (mention : Mention right) :
      Mention (.logical left operator right)

namespace Expr.Mention

def name : {expr : Expr} → expr.Mention → Token
  | _, reference name | _, target name _ => name
  | _, assigned _ mention | _, grouped mention | _, operand _ mention => mention.name
  | _, left _ _ mention | _, right _ _ mention => mention.name
  | _, first _ _ mention | _, second _ _ mention => mention.name

/-- Evaluation in one environment comes to look the name up in another one: the target of an
assignment behind its value, a right operand behind the left one and only if it is needed. -/
def Reached : {expr : Expr} → expr.Mention → Environment → Environment → Prop
  | _, reference _, start, there => there = start
  | _, target _ value, start, there => ∃ result, value.evaluate start = .ok result there
  | _, assigned _ mention, start, there | _, grouped mention, start, there
  | _, operand _ mention, start, there | _, left _ _ mention, start, there
  | _, first _ _ mention, start, there => mention.Reached start there
  | _, right _ one mention, start, there =>
      ∃ value middle, one.evaluate start = .ok value middle ∧ mention.Reached middle there
  | _, second operator one mention, start, there =>
      ∃ value middle, one.evaluate start = .ok value middle ∧
        Operator.stopsAt operator value = false ∧ mention.Reached middle there

theorem fails {expr : Expr} (mention : expr.Mention) {start there : Environment}
    (reached : mention.Reached start there) (free : there.get? mention.name.lexeme = none) :
    ∃ left, expr.evaluate start = .error (.fault (.undefined mention.name)) left := by
  induction mention generalizing start with
  | reference name =>
      cases reached
      refine ⟨there, ?_⟩
      unfold evaluate Evaluation.read
      rw [show there.get? name.lexeme = none from free]
      rfl
  | target name value =>
      obtain ⟨result, run⟩ := reached
      have unbound : there.resolve name.lexeme = none := Option.map_eq_none_iff.mp free
      refine ⟨there, (bind_of_ok _ run).trans (bind_of_error _ ?_)⟩
      unfold Evaluation.write Environment.assign?
      rw [unbound]
      rfl
  | grouped mention ih => exact ih reached free
  | assigned name mention ih =>
      obtain ⟨left, run⟩ := ih reached free
      exact ⟨left, bind_of_error _ run⟩
  | operand operator mention ih =>
      obtain ⟨left, run⟩ := ih reached free
      exact ⟨left, bind_of_error _ run⟩
  | left operator right mention ih =>
      obtain ⟨left, run⟩ := ih reached free
      exact ⟨left, bind_of_error _ run⟩
  | first operator right mention ih =>
      obtain ⟨left, run⟩ := ih reached free
      exact ⟨left, bind_of_error _ run⟩
  | right operator left mention ih =>
      obtain ⟨value, middle, early, late⟩ := reached
      obtain ⟨left, run⟩ := ih late free
      exact ⟨left, (bind_of_ok _ early).trans (bind_of_error _ run)⟩
  | second operator left mention ih =>
      obtain ⟨value, middle, early, continues, late⟩ := reached
      obtain ⟨left, run⟩ := ih late free
      refine ⟨left, (bind_of_ok _ early).trans ?_⟩
      rw [continues]
      exact run

end Expr.Mention

/-! ## Where a fault comes from -/

namespace Operator

theorem applyUnary_not_tellsName {operator : Token} {right : Value} {fault : Fault}
    (failed : applyUnary operator right = .error (.fault fault)) : ¬ fault.TellsName := by
  rintro ⟨name, tells⟩
  unfold applyUnary Halt.raise at failed
  split at failed <;> cases failed
  cases tells

theorem applyBinary_not_tellsName {operator : Token} {left right : Value} {fault : Fault}
    (failed : applyBinary operator left right = .error (.fault fault)) : ¬ fault.TellsName := by
  rintro ⟨name, tells⟩
  unfold applyBinary add arithmetic Halt.raise at failed
  repeat' split at failed
  all_goals cases failed
  all_goals cases tells

end Operator

namespace Evaluation

theorem ofExcept_eq_error {α : Type} {result : Except Halt α} {halt : Halt}
    {start left : Environment} (run : ofExcept result start = .error halt left) :
    result = .error halt := by
  cases result <;> cases run
  rfl

theorem ofExcept_eq_ok {α : Type} {result : Except Halt α} {value : α} {start left : Environment}
    (run : ofExcept result start = .ok value left) : start = left := by
  cases result <;> cases run
  rfl

theorem write_eq_error {name : Token} {value : Value} {start left : Environment} {fault : Fault}
    (run : write name value start = .error (.fault fault) left) :
    start.get? name.lexeme = none ∧ fault = .undefined name := by
  unfold write at run
  split at run
  · cases run
  · next unassigned =>
      cases run
      have unbound : start.resolve name.lexeme = none := Option.map_eq_none_iff.mp unassigned
      exact ⟨Option.map_eq_none_iff.mpr unbound, rfl⟩

end Evaluation

/-- The fault is that of a name which evaluation looks up where it has no binding. -/
def Expr.Blames (expr : Expr) (start : Environment) (fault : Fault) : Prop :=
  ∃ (mention : expr.Mention) (there : Environment), mention.Reached start there ∧
    there.get? mention.name.lexeme = none ∧ fault = .undefined mention.name

theorem Expr.blames_of_fails {expr : Expr} {start left : Environment} {fault : Fault}
    (run : expr.evaluate start = .error (.fault fault) left) (tells : fault.TellsName) :
    expr.Blames start fault := by
  induction expr generalizing start left with
  | literal value span => cases run
  | grouping inner ih =>
      obtain ⟨mention, found⟩ := ih run
      exact ⟨.grouped mention, found⟩
  | reference name =>
      refine ⟨.reference name, start, by rw [Mention.Reached], ?_⟩
      unfold evaluate Evaluation.read at run
      split at run
      · cases run
      · next free =>
          cases run
          exact ⟨free, rfl⟩
  | assign name value ih =>
      obtain inner | ⟨result, middle, inner, run⟩ := bind_eq_error.mp run
      · obtain ⟨mention, found⟩ := ih inner
        exact ⟨.assigned name mention, found⟩
      · obtain written | ⟨_, _, _, run⟩ := bind_eq_error.mp run
        · obtain ⟨free, same⟩ := Evaluation.write_eq_error written
          exact ⟨.target name value, middle, ⟨result, inner⟩, free, same⟩
        · cases run
  | unary operator right ih =>
      obtain inner | ⟨result, middle, _, run⟩ := bind_eq_error.mp run
      · obtain ⟨mention, found⟩ := ih inner
        exact ⟨.operand operator mention, found⟩
      · exact absurd tells
          (Operator.applyUnary_not_tellsName (Evaluation.ofExcept_eq_error run))
  | binary one operator other firstIh secondIh =>
      obtain inner | ⟨result, middle, first, run⟩ := bind_eq_error.mp run
      · obtain ⟨mention, found⟩ := firstIh inner
        exact ⟨.left operator other mention, found⟩
      · obtain inner | ⟨_, _, _, run⟩ := bind_eq_error.mp run
        · obtain ⟨mention, there, reached, found⟩ := secondIh inner
          exact ⟨.right operator one mention, there, ⟨result, middle, first, reached⟩, found⟩
        · exact absurd tells
            (Operator.applyBinary_not_tellsName (Evaluation.ofExcept_eq_error run))
  | logical one operator other firstIh secondIh =>
      obtain inner | ⟨result, middle, first, run⟩ := bind_eq_error.mp run
      · obtain ⟨mention, found⟩ := firstIh inner
        exact ⟨.first operator other mention, found⟩
      · cases stops : Operator.stopsAt operator result with
        | true =>
            rw [stops] at run
            cases run
        | false =>
            rw [stops] at run
            obtain ⟨mention, there, reached, found⟩ := secondIh run
            exact ⟨.second operator one mention, there,
              ⟨result, middle, first, stops, reached⟩, found⟩

/-! ## Mentions in statements -/

/-- From a test of a loop to itself or to a later one. -/
inductive Execution.Rounds (condition : Expr) (body : Stmt) (first : Machine) : Machine → Prop
  | none : Rounds condition body first first
  | again {last middle next : Machine} {value : Value} {budget : Nat}
      (earlier : Rounds condition body first last)
      (tested : evaluate condition last = .ok value middle) (truthy : Truthy value)
      (round : body.execute budget middle = .ok () next) : Rounds condition body first next

namespace Semantics.Task

inductive Mention : Task → Type
  | expression {expr : Expr} (mention : expr.Mention) : Mention (.one (.expression expr))
  | print {expr : Expr} (mention : expr.Mention) : Mention (.one (.print expr))
  | initializer (name : Token) {expr : Expr} (mention : expr.Mention) :
      Mention (.one (.var name (some expr)))
  | block {body : List Stmt} (mention : Mention (.all body)) : Mention (.one (.block body))
  | choice {condition : Expr} (onTrue : Stmt) (onFalse : Option Stmt)
      (mention : condition.Mention) : Mention (.one (.branch condition onTrue onFalse))
  | onTrue (condition : Expr) {onTrue : Stmt} (onFalse : Option Stmt)
      (mention : Mention (.one onTrue)) : Mention (.one (.branch condition onTrue onFalse))
  | onFalse (condition : Expr) (onTrue : Stmt) {onFalse : Stmt}
      (mention : Mention (.one onFalse)) : Mention (.one (.branch condition onTrue (some onFalse)))
  | test {condition : Expr} (body : Stmt) (mention : condition.Mention) :
      Mention (.one (.loop condition body))
  | round (condition : Expr) {body : Stmt} (mention : Mention (.one body)) :
      Mention (.one (.loop condition body))
  | head {statement : Stmt} (rest : List Stmt) (mention : Mention (.one statement)) :
      Mention (.all (statement :: rest))
  | tail (statement : Stmt) {rest : List Stmt} (mention : Mention (.all rest)) :
      Mention (.all (statement :: rest))

namespace Mention

def name : {task : Task} → task.Mention → Token
  | _, expression mention | _, print mention | _, initializer _ mention
  | _, choice _ _ mention | _, test _ mention => Expr.Mention.name mention
  | _, block mention | _, onTrue _ _ mention | _, onFalse _ _ mention
  | _, round _ mention | _, head _ mention | _, tail _ mention => mention.name

/-- A run on a machine comes to look the name up in an environment. -/
def Reached : {task : Task} → task.Mention → Machine → Environment → Prop
  | _, expression mention, machine, there | _, print mention, machine, there
  | _, initializer _ mention, machine, there | _, choice _ _ mention, machine, there =>
      Expr.Mention.Reached mention machine.environment there
  | _, @block body mention, machine, there =>
      mention.Reached (Execution.enterBlock body.length machine) there
  | _, onTrue condition _ mention, machine, there =>
      ∃ value middle, Execution.evaluate condition machine = .ok value middle ∧ Truthy value ∧
        mention.Reached middle there
  | _, onFalse condition _ mention, machine, there =>
      ∃ value middle, Execution.evaluate condition machine = .ok value middle ∧ ¬ Truthy value ∧
        mention.Reached middle there
  | _, @test condition body mention, machine, there =>
      ∃ last, Execution.Rounds condition body machine last ∧
        Expr.Mention.Reached mention last.environment there
  | _, @round condition body mention, machine, there =>
      ∃ last value middle, Execution.Rounds condition body machine last ∧
        Execution.evaluate condition last = .ok value middle ∧ Truthy value ∧
        mention.Reached middle there
  | _, head _ mention, machine, there => mention.Reached machine there
  | _, tail statement mention, machine, there =>
      ∃ budget middle, statement.execute budget machine = .ok () middle ∧
        mention.Reached middle there

end Mention

end Semantics.Task

namespace Execution

variable {condition : Expr} {body : Stmt} {machine last : Machine}

theorem evaluate_of_error {expr : Expr} {halt : Halt} {left : Environment}
    (run : expr.evaluate machine.environment = .error halt left) :
    evaluate expr machine = .error halt { machine with environment := left } := by
  unfold evaluate
  rw [run]

theorem Rounds.finished (rounds : Rounds condition body machine last) {budget : Nat}
    {left : Machine} {result : Option Fault}
    (run : (Stmt.loop condition body).execute budget last = finished left result) :
    ∃ budget, (Stmt.loop condition body).execute budget machine = finished left result := by
  induction rounds generalizing budget with
  | none => exact ⟨budget, run⟩
  | again _ tested truthy round ih => exact ih (loop_again tested truthy round run)

end Execution

namespace Semantics.Task.Mention

theorem evaluate_fails {expr : Expr} (mention : expr.Mention) {machine : Machine}
    {there : Environment} (reached : mention.Reached machine.environment there)
    (free : there.get? mention.name.lexeme = none) :
    ∃ left, Execution.evaluate expr machine = .error (.fault (.undefined mention.name)) left := by
  obtain ⟨left, run⟩ := mention.fails reached free
  exact ⟨_, Execution.evaluate_of_error run⟩

theorem fails {task : Task} (mention : task.Mention) {machine : Machine} {there : Environment}
    (reached : mention.Reached machine there) (free : there.get? mention.name.lexeme = none) :
    ∃ budget left,
      task.execute budget machine = finished left (some (.undefined mention.name)) := by
  induction mention generalizing machine with
  | expression mention | print mention | initializer name mention =>
      obtain ⟨left, run⟩ := evaluate_fails mention reached free
      exact ⟨0, left, bind_of_error _ run⟩
  | block mention ih =>
      obtain ⟨budget, left, run⟩ := ih reached free
      refine ⟨budget, left.leaveScope, ?_⟩
      change (Stmt.block _).execute budget machine = _
      rw [Execution.block_run, show Stmt.executeAll _ _ _ = _ from run]
      rfl
  | choice onTrue onFalse mention =>
      obtain ⟨left, run⟩ := evaluate_fails mention reached free
      refine ⟨0, left, ?_⟩
      cases onFalse <;> exact bind_of_error _ run
  | onTrue condition onFalse mention ih =>
      obtain ⟨value, middle, tested, truthy, taken⟩ := reached
      obtain ⟨budget, left, run⟩ := ih taken free
      refine ⟨budget, left, ?_⟩
      cases onFalse with
      | none =>
          refine (bind_of_ok _ tested).trans ?_
          rw [if_pos (truthy_iff.mpr truthy)]
          exact run
      | some onFalse =>
          refine (bind_of_ok _ tested).trans ?_
          rw [if_pos (truthy_iff.mpr truthy)]
          exact run
  | onFalse condition onTrue mention ih =>
      obtain ⟨value, middle, tested, falsy, taken⟩ := reached
      obtain ⟨budget, left, run⟩ := ih taken free
      refine ⟨budget, left, (bind_of_ok _ tested).trans ?_⟩
      rw [if_neg (mt truthy_iff.mp falsy)]
      exact run
  | test body mention =>
      obtain ⟨last, rounds, reached⟩ := reached
      obtain ⟨left, run⟩ := evaluate_fails mention reached free
      have loop : (Stmt.loop _ body).execute 1 last =
          finished left (some (.undefined mention.name)) := bind_of_error _ run
      obtain ⟨budget, run⟩ := rounds.finished loop
      exact ⟨budget, left, run⟩
  | @round condition body mention ih =>
      obtain ⟨last, value, middle, rounds, tested, truthy, reached⟩ := reached
      obtain ⟨budget, left, run⟩ := ih reached free
      -- one budget bounds the rounds and the body, so it must allow for one round
      have again := (body.execute_stable (Nat.le_succ budget)).finished run
      have loop : (Stmt.loop condition body).execute (budget + 1) last =
          finished left (some (.undefined mention.name)) := by
        refine (bind_of_ok _ tested).trans ?_
        rw [if_pos (truthy_iff.mpr truthy)]
        exact bind_of_error _ again
      obtain ⟨budget, run⟩ := rounds.finished loop
      exact ⟨budget, left, run⟩
  | head rest mention ih =>
      obtain ⟨budget, left, run⟩ := ih reached free
      exact ⟨budget, left, bind_of_error _ run⟩
  | @tail statement rest mention ih =>
      obtain ⟨one, middle, head, reached⟩ := reached
      obtain ⟨more, left, run⟩ := ih reached free
      have first : statement.execute (max one more) machine = finished middle none :=
        (statement.execute_stable (Nat.le_max_left one more)).finished head
      have second := (Stmt.executeAll_stable (Nat.le_max_right one more) rest).finished run
      exact ⟨max one more, left, (bind_of_ok _ first).trans second⟩

end Semantics.Task.Mention

/-! ## Where a fault of a run comes from -/

/-- The fault is that of a name which a run on the machine looks up where it has no binding. -/
def Semantics.Task.Blames (task : Task) (machine : Machine) (fault : Fault) : Prop :=
  ∃ (mention : task.Mention) (there : Environment), mention.Reached machine there ∧
    there.get? mention.name.lexeme = none ∧ fault = .undefined mention.name

/-- The faults of an action that tell a name are those of the task. -/
def Semantics.Task.Accounts (task : Task) (action : Execution Unit) : Prop :=
  ∀ machine left fault, action machine = .error (.fault fault) left → fault.TellsName →
    task.Blames machine fault

section Accounts

variable {machine left : Machine} {fault : Fault} (tells : fault.TellsName)

include tells

theorem Execution.evaluate_eq_error {expr : Expr}
    (run : evaluate expr machine = .error (.fault fault) left) :
    expr.Blames machine.environment fault := by
  unfold evaluate at run
  split at run
  · cases run
  · next failed =>
      cases run
      exact Expr.blames_of_fails failed tells

theorem Execution.write_not_eq_error {text : String} {blamed : Token} :
    write text blamed machine ≠ .error (.fault fault) left := by
  intro run
  obtain ⟨name, tells⟩ := tells
  unfold write Halt.raise at run
  split at run
  · cases run
  · cases run
    cases tells

end Accounts

namespace Semantics.Task

theorem accounts_branch {condition : Expr} {onTrue : Stmt} {onFalse : Option Stmt}
    {taken refused : Execution Unit} (accounts : (one onTrue).Accounts taken)
    (otherwise : ∀ machine value middle left fault,
      Execution.evaluate condition machine = .ok value middle → ¬ Truthy value →
      refused middle = .error (.fault fault) left → fault.TellsName →
      (one (.branch condition onTrue onFalse)).Blames machine fault) :
    (one (.branch condition onTrue onFalse)).Accounts
      (Execution.evaluate condition >>= fun value =>
        if value.isTruthy then taken else refused) := by
  intro machine left fault run tells
  obtain failed | ⟨value, middle, tested, run⟩ := bind_eq_error.mp run
  · obtain ⟨mention, found⟩ := Execution.evaluate_eq_error tells failed
    exact ⟨.choice onTrue onFalse mention, found⟩
  · by_cases truthy : Truthy value
    · rw [if_pos (truthy_iff.mpr truthy)] at run
      obtain ⟨mention, there, reached, found⟩ := accounts middle left fault run tells
      exact ⟨.onTrue condition onFalse mention, there, ⟨value, middle, tested, truthy, reached⟩,
        found⟩
    · rw [if_neg (mt truthy_iff.mp truthy)] at run
      exact otherwise machine value middle left fault tested truthy run tells

theorem accounts_iterate {condition : Expr} {body : Stmt} {budget : Nat}
    (accounts : (one body).Accounts (body.execute budget)) (rounds : Nat)
    {first machine left : Machine} {fault : Fault}
    (earlier : Execution.Rounds condition body first machine)
    (run : Execution.iterate (Execution.evaluate condition) (body.execute budget) rounds machine =
      .error (.fault fault) left)
    (tells : fault.TellsName) : (one (.loop condition body)).Blames first fault := by
  -- on the rounds that are left; `earlier` collects those behind, back to the first machine
  induction rounds generalizing machine with
  | zero => cases run
  | succ rounds ih =>
      obtain failed | ⟨value, middle, tested, run⟩ := bind_eq_error.mp run
      · obtain ⟨mention, there, reached, found⟩ := Execution.evaluate_eq_error tells failed
        exact ⟨.test body mention, there, ⟨machine, earlier, reached⟩, found⟩
      · by_cases truthy : Truthy value
        · rw [if_pos (truthy_iff.mpr truthy)] at run
          obtain failed | ⟨_, next, round, run⟩ := bind_eq_error.mp run
          · obtain ⟨mention, there, reached, found⟩ := accounts middle left fault failed tells
            exact ⟨.round condition mention, there,
              ⟨machine, value, middle, earlier, tested, truthy, reached⟩, found⟩
          · exact ih (earlier.again tested truthy round) run
        · rw [if_neg (mt truthy_iff.mp truthy)] at run
          cases run

end Semantics.Task

mutual

theorem Stmt.execute_accounts (budget : Nat) :
    ∀ statement : Stmt, (Task.one statement).Accounts (statement.execute budget)
  | .expression expr => by
      intro machine left fault run tells
      obtain failed | ⟨value, middle, tested, run⟩ := bind_eq_error.mp run
      · obtain ⟨mention, found⟩ := Execution.evaluate_eq_error tells failed
        exact ⟨.expression mention, found⟩
      · cases run
  | .print expr => by
      intro machine left fault run tells
      obtain failed | ⟨value, middle, tested, run⟩ := bind_eq_error.mp run
      · obtain ⟨mention, found⟩ := Execution.evaluate_eq_error tells failed
        exact ⟨.print mention, found⟩
      · obtain failed | ⟨_, next, _, failed⟩ := bind_eq_error.mp run
        · exact absurd failed (Execution.write_not_eq_error tells)
        · exact absurd failed (Execution.write_not_eq_error tells)
  | .var name none => by
      intro machine left fault run
      cases run
  | .var name (some expr) => by
      intro machine left fault run tells
      obtain failed | ⟨value, middle, tested, run⟩ := bind_eq_error.mp run
      · obtain ⟨mention, found⟩ := Execution.evaluate_eq_error tells failed
        exact ⟨.initializer name mention, found⟩
      · cases run
  | .block body => by
      intro machine left fault run tells
      rw [Execution.block_run] at run
      split at run
      · cases run
      · next failed =>
          cases run
          obtain ⟨mention, found⟩ := executeAll_accounts budget body _ _ fault failed tells
          exact ⟨.block mention, found⟩
  | .branch condition onTrue none => by
      refine Task.accounts_branch (execute_accounts budget onTrue) ?_
      intro machine value middle left fault tested falsy run
      cases run
  | .branch condition onTrue (some onFalse) => by
      refine Task.accounts_branch (execute_accounts budget onTrue) ?_
      intro machine value middle left fault tested falsy run tells
      obtain ⟨mention, there, reached, found⟩ :=
        execute_accounts budget onFalse middle left fault run tells
      exact ⟨.onFalse condition onTrue mention, there,
        ⟨value, middle, tested, falsy, reached⟩, found⟩
  | .loop condition body => fun machine left fault run tells =>
      Task.accounts_iterate (execute_accounts budget body) budget .none run tells

theorem Stmt.executeAll_accounts (budget : Nat) :
    ∀ statements : List Stmt, (Task.all statements).Accounts (Stmt.executeAll budget statements)
  | [] => by
      intro machine left fault run
      cases run
  | statement :: rest => by
      intro machine left fault run tells
      obtain failed | ⟨_, middle, first, run⟩ := bind_eq_error.mp run
      · obtain ⟨mention, found⟩ := execute_accounts budget statement machine left fault failed tells
        exact ⟨.head rest mention, found⟩
      · obtain ⟨mention, there, reached, found⟩ :=
          executeAll_accounts budget rest middle left fault run tells
        exact ⟨.tail statement mention, there, ⟨budget, middle, first, reached⟩, found⟩

end

end TreeWalk
