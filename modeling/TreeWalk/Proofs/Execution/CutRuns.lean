import TreeWalk.Proofs.Execution.Keeping
import TreeWalk.Proofs.Resolution.Mentions

/-!
# Runs that are cut short

A sink may refuse a text at any moment of a run.  `Cut` sets the run of an action beside one on a
sink that takes every text: up to the first refusal both go the same way, and with the refusal the
run ends.
-/

set_option autoImplicit false

namespace TreeWalk

open Stateful (bind_eq_error bind_of_error bind_of_ok left left_bind_of_ok left_of_error
  left_of_ok)

/-! ## Halts and machines -/

/-- How a text was refused, if that is why a run has stopped. -/
def Halt.refusal? : Halt → Option IoFailure
  | .fault ⟨.outputFailed failure, _⟩ => some failure
  | _ => none

/-- Between the two machines these texts were offered, the latest first, and all were taken. -/
structure Machine.Printed (before : Machine) (offered : List Attempt) (after : Machine) : Prop where
  attempts : after.sink.attempts = offered ++ before.sink.attempts
  taken : ∀ attempt ∈ offered, attempt.refusal = none

/-- The other machine has the same environment and takes every text. -/
structure Machine.Twin (machine whole : Machine) : Prop where
  environment : whole.environment = machine.environment
  unfailing : whole.sink.Unfailing

namespace Machine

theorem Printed.nothing {before after : Machine} (same : after.sink = before.sink) :
    before.Printed [] after :=
  ⟨by rw [same]; rfl, by simp⟩

theorem Printed.congr {before after start final : Machine} {offered : List Attempt}
    (printed : before.Printed offered after) (first : start.sink = before.sink)
    (last : final.sink = after.sink) : start.Printed offered final :=
  ⟨by rw [first, last, printed.attempts], printed.taken⟩

theorem Printed.trans {first second third : Machine} {early late : List Attempt}
    (before : first.Printed early second) (after : second.Printed late third) :
    first.Printed (late ++ early) third := by
  refine ⟨?_, ?_⟩
  · rw [after.attempts, before.attempts, List.append_assoc]
  · exact List.forall_mem_append.mpr ⟨after.taken, before.taken⟩

theorem twin_unfailing (machine : Machine) : machine.Twin { machine with sink := .unfailing } :=
  ⟨rfl, fun _ _ => rfl⟩

theorem Printed.taken_of_attempts {before after : Machine} {offered given : List Attempt}
    (printed : before.Printed offered after)
    (attempts : after.sink.attempts = given ++ before.sink.attempts) :
    ∀ attempt ∈ given, attempt.refusal = none := by
  have same := List.append_cancel_right (printed.attempts.symm.trans attempts)
  rw [← same]
  exact printed.taken

end Machine

open Machine (Printed Twin)

/-! ## Expressions -/

theorem Operator.applyUnary_refusal? {operator : Token} {right : Value} {halt : Halt}
    (failed : applyUnary operator right = .error halt) : halt.refusal? = none := by
  unfold applyUnary Halt.raise at failed
  split at failed <;> cases failed
  rfl

theorem Operator.applyBinary_refusal? {operator : Token} {left right : Value} {halt : Halt}
    (failed : applyBinary operator left right = .error halt) : halt.refusal? = none := by
  unfold applyBinary add arithmetic Halt.raise at failed
  repeat' split at failed
  all_goals cases failed
  all_goals rfl

namespace Evaluation

variable {α β : Type}

/-- Nothing is printed, so it is for another reason if the action fails. -/
def Silent (action : Evaluation α) : Prop :=
  ∀ start halt left, action start = .error halt left → halt.refusal? = none

theorem Silent.bind {first : Evaluation α} {next : α → Evaluation β} (early : Silent first)
    (late : ∀ value, Silent (next value)) : Silent (first >>= next) := by
  intro start halt left run
  obtain failed | ⟨value, middle, -, run⟩ := bind_eq_error.mp run
  · exact early start halt left failed
  · exact late value middle halt left run

theorem silent_pure (value : α) : Silent (pure value : Evaluation α) := by
  intro start halt left run
  cases run

theorem silent_ofExcept {result : Except Halt α}
    (unrelated : ∀ halt, result = .error halt → halt.refusal? = none) :
    Silent (ofExcept result) :=
  fun _ halt _ run => unrelated halt (ofExcept_eq_error run)

theorem silent_read (name : Token) : Silent (read name) := by
  intro start halt left run
  unfold read at run
  split at run <;> cases run
  rfl

theorem silent_write (name : Token) (value : Value) : Silent (write name value) := by
  intro start halt left run
  unfold write at run
  split at run <;> cases run
  rfl

end Evaluation

open Evaluation (Silent silent_ofExcept silent_pure silent_read silent_write) in
theorem Expr.evaluate_silent (expr : Expr) : Silent expr.evaluate := by
  induction expr with
  | literal value span => exact silent_pure value
  | grouping inner ih => exact ih
  | reference name => exact silent_read name
  | assign name value ih =>
      exact ih.bind fun value => (silent_write name value).bind fun _ => silent_pure value
  | unary operator right ih =>
      exact ih.bind fun _ => silent_ofExcept fun _ => Operator.applyUnary_refusal?
  | logical one operator other oneIh otherIh =>
      refine oneIh.bind fun value => ?_
      split
      · exact silent_pure value
      · exact otherIh
  | binary one operator other oneIh otherIh =>
      exact oneIh.bind fun _ => otherIh.bind fun _ =>
        silent_ofExcept fun _ => Operator.applyBinary_refusal?

/-! ## Runs side by side -/

namespace Execution

variable {α β : Type}

/-- Beside a run on a sink that takes every text, a run goes the same way, or it is cut short where
a text is refused. -/
inductive Cut (action : Execution α) (machine whole : Machine) : Prop
  | returned {value : α} {after final : Machine} {offered : List Attempt}
      (run : action machine = .ok value after) (other : action whole = .ok value final)
      (printed : machine.Printed offered after) (also : whole.Printed offered final)
      (twin : Twin after final)
  | halted {halt : Halt} {after final : Machine} {offered : List Attempt}
      (run : action machine = .error halt after) (other : action whole = .error halt final)
      (unrelated : halt.refusal? = none) (printed : machine.Printed offered after)
      (also : whole.Printed offered final) (twin : Twin after final)
  | refused {failure : IoFailure} {blamed : Token} {text : String} {after middle stage : Machine}
      {offered : List Attempt}
      (run : action machine = .error (.raise (.outputFailed failure) blamed) after)
      (printed : machine.Printed offered middle) (also : whole.Printed offered stage)
      (attempts : after.sink.attempts = ⟨text, some failure⟩ :: middle.sink.attempts)
      (goesOn : ⟨text, none⟩ :: stage.sink.attempts <:+ (left action whole).sink.attempts)

/-- A refusal does nothing to the action but cut it short. -/
def Cuts (action : Execution α) : Prop :=
  ∀ machine whole, Twin machine whole → Cut action machine whole

/-- Attempts are never taken back. -/
theorem Cuts.grows {action : Execution α} (cuts : Cuts action) (machine : Machine) :
    machine.sink.attempts <:+ (left action machine).sink.attempts := by
  cases cuts machine _ machine.twin_unfailing with
  | returned run _ printed =>
      rw [left_of_ok run, printed.attempts]
      exact List.suffix_append _ _
  | halted run _ _ printed =>
      rw [left_of_error run, printed.attempts]
      exact List.suffix_append _ _
  | refused run printed _ attempts =>
      rw [left_of_error run, attempts, printed.attempts]
      exact (List.suffix_append _ _).trans (List.suffix_cons _ _)

theorem Cuts.printed {action : Execution α} (cuts : Cuts action)
    {machine after : Machine} {value : α} (run : action machine = .ok value after) :
    ∃ offered, machine.Printed offered after := by
  cases cuts machine _ machine.twin_unfailing with
  | returned run' _ printed =>
      rw [run] at run'
      cases run'
      exact ⟨_, printed⟩
  | halted run' =>
      rw [run] at run'
      cases run'
  | refused run' =>
      rw [run] at run'
      cases run'

theorem Cuts.bind {first : Execution α} {next : α → Execution β} (early : Cuts first)
    (late : ∀ value, Cuts (next value)) : Cuts (first >>= next) := by
  intro machine whole twin
  cases early machine whole twin with
  | halted run other unrelated printed also twin =>
      exact .halted (bind_of_error next run) (bind_of_error next other) unrelated printed also twin
  | refused run printed also attempts goesOn =>
      -- the other run goes on with the second action, which adds to its attempts only
      refine .refused (bind_of_error next run) printed also attempts (goesOn.trans ?_)
      cases other : first whole with
      | ok value final =>
          rw [left_of_ok other, left_bind_of_ok next other]
          exact (late value).grows final
      | error halt final =>
          simp [left_of_error other, left_of_error (bind_of_error next other)]
  | @returned value after final offered run other printed also twin =>
      have same := bind_of_ok next run
      have same' := bind_of_ok next other
      cases late value after final twin with
      | returned run' other' printed' also' twin' =>
          exact .returned (same.trans run') (same'.trans other') (printed.trans printed')
            (also.trans also') twin'
      | halted run' other' unrelated printed' also' twin' =>
          exact .halted (same.trans run') (same'.trans other') unrelated (printed.trans printed')
            (also.trans also') twin'
      | refused run' printed' also' attempts goesOn =>
          refine .refused (same.trans run') (printed.trans printed') (also.trans also') attempts ?_
          rwa [left_bind_of_ok next other]

theorem Cuts.ite {condition : Prop} [Decidable condition] {one other : Execution α}
    (onTrue : Cuts one) (onFalse : Cuts other) : Cuts (if condition then one else other) := by
  split
  · exact onTrue
  · exact onFalse

theorem cuts_pure (value : α) : Cuts (pure value : Execution α) :=
  fun _ _ twin => .returned rfl rfl (.nothing rfl) (.nothing rfl) twin

theorem cuts_note (event : Trace.Event) : Cuts (note event) :=
  fun _ _ twin => .returned rfl rfl (.nothing rfl) (.nothing rfl)
    ⟨twin.environment, twin.unfailing⟩

theorem cuts_define (name : Token) (value : Value) : Cuts (define name value) :=
  fun _ _ twin => .returned rfl rfl (.nothing rfl) (.nothing rfl)
    ⟨by simp only [twin.environment], twin.unfailing⟩

theorem cuts_evaluate (expr : Expr) : Cuts (evaluate expr) := by
  intro machine whole twin
  cases result : expr.evaluate machine.environment with
  | ok value environment =>
      have run (any : Machine) (same : any.environment = machine.environment) :
          evaluate expr any = .ok value { any with environment := environment } := by
        simp [evaluate, same, result]
      exact .returned (run machine rfl) (run whole twin.environment) (.nothing rfl) (.nothing rfl)
        ⟨rfl, twin.unfailing⟩
  | error halt environment =>
      have run (any : Machine) (same : any.environment = machine.environment) :
          evaluate expr any = .error halt { any with environment := environment } := by
        simp [evaluate, same, result]
      exact .halted (run machine rfl) (run whole twin.environment)
        (expr.evaluate_silent _ _ _ result) (.nothing rfl) (.nothing rfl) ⟨rfl, twin.unfailing⟩

/-- The machine when this attempt has been made. -/
def attempted (machine : Machine) (attempt : Attempt) : Machine :=
  { machine with sink := { machine.sink with attempts := attempt :: machine.sink.attempts } }

section Write

variable {machine : Machine} {text : String} (blamed : Token)

theorem write_empty (empty : text.isEmpty = true) : write text blamed machine = .ok () machine := by
  simp [write, Sink.write, empty]

variable (nonempty : text.isEmpty = false)

include nonempty

theorem write_of_taken (taken : machine.sink.refuses machine.sink.attempts text = none) :
    write text blamed machine = .ok () (attempted machine ⟨text, none⟩) := by
  simp [write, Sink.write, nonempty, taken, attempted]

theorem write_of_refused {failure : IoFailure}
    (refused : machine.sink.refuses machine.sink.attempts text = some failure) :
    write text blamed machine =
      .error (.raise (.outputFailed failure) blamed)
        (attempted machine ⟨text, some failure⟩) := by
  simp [write, Sink.write, nonempty, refused, attempted]

end Write

theorem printed_attempted (machine : Machine) (text : String) :
    machine.Printed [⟨text, none⟩] (attempted machine ⟨text, none⟩) :=
  ⟨rfl, by simp⟩

theorem cuts_write (text : String) (blamed : Token) : Cuts (write text blamed) := by
  intro machine whole twin
  by_cases empty : text.isEmpty = true
  · exact .returned (write_empty blamed empty) (write_empty blamed empty) (.nothing rfl)
      (.nothing rfl) twin
  have nonempty : text.isEmpty = false := by simpa using empty
  have other := write_of_taken blamed nonempty (twin.unfailing whole.sink.attempts text)
  cases offer : machine.sink.refuses machine.sink.attempts text with
  | none =>
      exact .returned (write_of_taken blamed nonempty offer) other (printed_attempted machine text)
        (printed_attempted whole text) ⟨twin.environment, twin.unfailing⟩
  | some failure =>
      refine .refused (write_of_refused blamed nonempty offer) (.nothing rfl) (.nothing rfl) rfl ?_
      rw [left_of_ok other]
      exact List.suffix_refl _

theorem inScope_of_ok {action : Execution Unit} {machine after : Machine}
    (run : action machine.enterScope = .ok () after) :
    Execution.inScope action machine = .ok () after.leaveScope := by
  simp [Execution.inScope, run]

theorem inScope_of_error {action : Execution Unit} {machine after : Machine} {halt : Halt}
    (run : action machine.enterScope = .error halt after) :
    Execution.inScope action machine = .error halt after.leaveScope := by
  simp [Execution.inScope, run]

theorem Cuts.inScope {action : Execution Unit} (cuts : Cuts action) :
    Cuts (Execution.inScope action) := by
  intro machine whole twin
  have enters : Twin machine.enterScope whole.enterScope :=
    ⟨congrArg Environment.push twin.environment, twin.unfailing⟩
  have leaves {after final : Machine} (same : Twin after final) :
      Twin after.leaveScope final.leaveScope :=
    ⟨congrArg Environment.pop same.environment, same.unfailing⟩
  cases cuts _ _ enters with
  | returned run other printed also same =>
      exact .returned (inScope_of_ok run) (inScope_of_ok other) (printed.congr rfl rfl)
        (also.congr rfl rfl) (leaves same)
  | halted run other unrelated printed also same =>
      exact .halted (inScope_of_error run) (inScope_of_error other) unrelated
        (printed.congr rfl rfl) (also.congr rfl rfl) (leaves same)
  | refused run printed also attempts goesOn =>
      refine .refused (inScope_of_error run) (printed.congr rfl rfl) (also.congr rfl rfl)
        attempts ?_
      rwa [left_inScope]

theorem Cuts.iterate {test : Execution Value} {body : Execution Unit} (tests : Cuts test)
    (bodies : Cuts body) (rounds : Nat) : Cuts (Execution.iterate test body rounds) := by
  induction rounds with
  | zero =>
      exact fun _ _ twin => .halted rfl rfl rfl (.nothing rfl) (.nothing rfl) twin
  | succ rounds ih => exact tests.bind fun _ => .ite (bodies.bind fun _ => ih) (cuts_pure ())

end Execution

/-! ## Statements -/

open Execution (Cuts cuts_define cuts_evaluate cuts_note cuts_pure cuts_write)

mutual

theorem Stmt.execute_cuts (budget : Nat) : ∀ statement : Stmt, Cuts (statement.execute budget)
  | .expression expr => (cuts_evaluate expr).bind fun _ => cuts_pure ()
  | .print expr =>
      (cuts_evaluate expr).bind fun _ => (cuts_write _ _).bind fun _ => cuts_write _ _
  | .var name none => cuts_define name _
  | .var name (some expr) => (cuts_evaluate expr).bind fun _ => cuts_define name _
  | .block body => .inScope ((cuts_note _).bind fun _ => executeAll_cuts budget body)
  | .branch condition onTrue none =>
      (cuts_evaluate condition).bind fun _ => .ite (execute_cuts budget onTrue) (cuts_pure ())
  | .branch condition onTrue (some onFalse) =>
      (cuts_evaluate condition).bind fun _ =>
        .ite (execute_cuts budget onTrue) (execute_cuts budget onFalse)
  | .loop condition body => (cuts_evaluate condition).iterate (execute_cuts budget body) budget

theorem Stmt.executeAll_cuts (budget : Nat) :
    ∀ statements : List Stmt, Cuts (Stmt.executeAll budget statements)
  | [] => cuts_pure ()
  | statement :: rest =>
      (execute_cuts budget statement).bind fun _ => executeAll_cuts budget rest

end

end TreeWalk
