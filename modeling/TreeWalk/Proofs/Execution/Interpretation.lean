import TreeWalk.Proofs.Execution.Agreement
import TreeWalk.Proofs.Syntax.Recognition

/-!
# The interpreter agrees with the semantics

For the statements that a parse yields, a run of the interpreter and a derivation of the semantics
are the same thing: one ends with a result, an output and a chain if and only if the other does.
-/

set_option autoImplicit false

namespace TreeWalk

open Semantics (Chain Runs)
open Execution (finished)

namespace Machine

def Ends (program : List Stmt) (machine : Machine) (result : Option Fault) (left : Machine) :
    Prop :=
  ∃ budget, interpret budget program machine = finished left result

/-- A run ends in one way only. -/
theorem Ends.unique {program : List Stmt} {machine left other : Machine}
    {result another : Option Fault} (one : machine.Ends program result left)
    (two : machine.Ends program another other) : result = another ∧ left = other := by
  obtain ⟨budget, run⟩ := one
  obtain ⟨more, again⟩ := two
  have first := (interpret_stable (Nat.le_max_left budget more) program).finished run
  have second := (interpret_stable (Nat.le_max_right budget more) program).finished again
  rw [first] at second
  exact Execution.finished_inj second

theorem interpret_eq_finished {budget : Nat} {program : List Stmt} {machine left : Machine}
    {result : Option Fault} (run : interpret budget program machine = finished left result) :
    ∃ ended, Stmt.executeAll budget program machine = finished ended result ∧
      ended.environment = left.environment ∧ ended.sink = left.sink := by
  unfold interpret at run
  cases result with
  | none =>
      split at run
      · next inner =>
          cases run
          exact ⟨left, inner, rfl, rfl⟩
      · cases run
      · cases run
  | some fault =>
      split at run
      · cases run
      · next raised after inner =>
          cases run
          exact ⟨after, inner, rfl, rfl⟩
      · next halt after other inner =>
          cases run
          exact absurd rfl (other fault)

theorem interpret_of_finished {budget : Nat} {program : List Stmt} {machine ended : Machine}
    {result : Option Fault} (run : Stmt.executeAll budget program machine = finished ended result) :
    ∃ left, interpret budget program machine = finished left result ∧
      left.environment = ended.environment ∧ left.sink = ended.sink := by
  unfold interpret
  rw [run]
  cases result with
  | none => exact ⟨ended, rfl, rfl, rfl⟩
  | some fault => exact ⟨_, rfl, rfl, rfl⟩

section Derivations

variable {program : List Stmt} {machine : Machine} {result : Option Fault}

theorem Ends.derived {left : Machine} (ends : machine.Ends program result left)
    (operated : Stmt.AllWellOperated program) (formed : machine.environment.WellFormed)
    (unfailing : machine.sink.Unfailing) :
    ∃ output, left.sink.output = machine.sink.output ++ output ∧ left.environment.WellFormed ∧
      Runs machine.environment.chain (.all program) result output left.environment.chain := by
  obtain ⟨budget, run⟩ := ends
  obtain ⟨ended, inner, environment, sink⟩ := interpret_eq_finished run
  rw [← environment, ← sink]
  rcases Stmt.executeAll_reports budget program operated machine formed unfailing
    with ⟨other, exhausted⟩ | ⟨another, output, other, again, leaves, runs⟩
  · rw [inner] at exhausted
    exact absurd exhausted (Execution.finished_ne_exhausted ended other result)
  · rw [inner] at again
    obtain ⟨rfl, rfl⟩ := Execution.finished_inj again
    exact ⟨output, leaves.output, leaves.formed, runs⟩

theorem ends_of_runs {output : String} {final : Chain}
    (runs : Runs machine.environment.chain (.all program) result output final)
    (formed : machine.environment.WellFormed) (unfailing : machine.sink.Unfailing) :
    ∃ left, machine.Ends program result left ∧
      left.sink.output = machine.sink.output ++ output ∧ left.environment.WellFormed ∧
      left.environment.chain = final := by
  obtain ⟨budget, ended, run, leaves, chain⟩ := runs.computed formed unfailing rfl
  obtain ⟨left, whole, environment, sink⟩ := interpret_of_finished run
  refine ⟨left, ⟨budget, whole⟩, ?_⟩
  rw [environment, sink]
  exact ⟨leaves.output, leaves.formed, chain⟩

end Derivations

end Machine

theorem Parsed.wellOperated (tokens : List Token) :
    Stmt.AllWellOperated (Parsed.ofTokens tokens).statements := by
  refine Stmt.allWellOperated_iff.mpr fun statement member => ?_
  obtain ⟨read, noted, -, reads⟩ := Parsed.trees_ofTokens tokens member
  exact reads.wellOperated

/-- On a well-formed environment and a sink that takes every text, a run of parsed statements ends
with a result, an output and an environment exactly when the semantics derives them. -/
theorem interpret_iff_runs (tokens : List Token) {machine : Machine}
    (formed : machine.environment.WellFormed) (unfailing : machine.sink.Unfailing)
    (result : Option Fault) (output : String) (final : Chain) :
    (∃ left, machine.Ends (Parsed.ofTokens tokens).statements result left ∧
        left.sink.output = machine.sink.output ++ output ∧
        left.environment.WellFormed ∧ left.environment.chain = final) ↔
      Runs machine.environment.chain (.all (Parsed.ofTokens tokens).statements) result output
        final := by
  constructor
  · rintro ⟨left, ends, printed, -, rfl⟩
    obtain ⟨text, same, -, runs⟩ := ends.derived (Parsed.wellOperated tokens) formed unfailing
    obtain rfl := (String.append_right_inj _).mp (same.symm.trans printed)
    exact runs
  · intro runs
    exact Machine.ends_of_runs runs formed unfailing

/-- `print nil;` prints one line and changes no name. -/
theorem runs_printNil :
    Environment.empty.WellFormed ∧ Sink.unfailing.Unfailing ∧
      Runs Environment.empty.chain
        (.all (Parsed.ofTokens (Parsed.printNil ++ [Token.ending 1 10])).statements) none "nil\n"
        Environment.empty.chain := by
  have formed := Environment.wellFormed_empty
  have unfailing : Sink.unfailing.Unfailing := fun _ _ => rfl
  have agrees := interpret_iff_runs (Parsed.printNil ++ [Token.ending 1 10])
    (show (Machine.start .unfailing).environment.WellFormed from formed) unfailing none "nil\n"
    Environment.empty.chain
  exact ⟨formed, unfailing, agrees.mp ⟨_, ⟨0, rfl⟩, rfl, formed, rfl⟩⟩

end TreeWalk
