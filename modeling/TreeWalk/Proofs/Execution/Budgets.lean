import TreeWalk.Execution
import TreeWalk.Proofs.Stateful

/-!
# Budgets

A run that ends within one budget ends alike within every larger one.  So the budget only stands
for how long a run is watched, and "the run ends" means that it ends within some budget.
-/

set_option autoImplicit false

namespace TreeWalk

open Stateful (bind_of_error bind_of_ok)

/-- Whenever the first action ends for another reason than its budget, the second one ends
alike. -/
def Execution.Stable {α : Type} (action more : Execution α) : Prop :=
  ∀ machine, (∀ left, action machine ≠ .error .exhausted left) → more machine = action machine

namespace Execution.Stable

variable {α β : Type}

theorem refl (action : Execution α) : Stable action action := fun _ _ => rfl

theorem bind {first more : Execution α} {next longer : α → Execution β}
    (early : Stable first more) (late : ∀ value, Stable (next value) (longer value)) :
    Stable (first >>= next) (more >>= longer) := by
  intro machine ends
  cases run : first machine with
  | ok value middle =>
      have same := early machine (by simp [run])
      rw [run] at same
      rw [bind_of_ok next run] at ends ⊢
      rw [bind_of_ok longer same]
      exact late value middle ends
  | error halt left =>
      rw [bind_of_error next run] at ends ⊢
      have same := early machine (by simpa [run] using ends)
      rw [run] at same
      exact bind_of_error longer same

theorem ite {condition : Prop} [Decidable condition] {one more other longer : Execution α}
    (onTrue : Stable one more) (onFalse : Stable other longer) :
    Stable (if condition then one else other) (if condition then more else longer) := by
  split
  · exact onTrue
  · exact onFalse

theorem inScope {action more : Execution Unit} (stable : Stable action more) :
    Stable (Execution.inScope action) (Execution.inScope more) := by
  intro machine ends
  have inner : ∀ left, action machine.enterScope ≠ .error .exhausted left := by
    intro left run
    exact ends left.leaveScope (by simp [Execution.inScope, run])
  simp only [Execution.inScope, stable machine.enterScope inner]

theorem iterate {test : Execution Value} {body more : Execution Unit} (stable : Stable body more)
    {rounds further : Nat} (within : rounds ≤ further) :
    Stable (Execution.iterate test body rounds) (Execution.iterate test more further) := by
  induction rounds generalizing further with
  | zero =>
      intro machine ends
      exact absurd rfl (ends machine)
  | succ rounds ih =>
      cases further with
      | zero => omega
      | succ further =>
          exact (refl test).bind fun value =>
            ite (stable.bind fun _ => ih (show rounds ≤ further by omega)) (refl _)

end Execution.Stable

open Execution (Stable)

mutual

theorem Stmt.execute_stable {budget more : Nat} (within : budget ≤ more) :
    ∀ statement : Stmt, Stable (statement.execute budget) (statement.execute more)
  | .expression _ | .print _ | .var _ none | .var _ (some _) => .refl _
  | .block body => .inScope ((Stable.refl _).bind fun _ => executeAll_stable within body)
  | .branch _ onTrue none =>
      (Stable.refl _).bind fun _ => .ite (execute_stable within onTrue) (.refl _)
  | .branch _ onTrue (some onFalse) =>
      (Stable.refl _).bind fun _ =>
        .ite (execute_stable within onTrue) (execute_stable within onFalse)
  | .loop _ body => .iterate (execute_stable within body) within

theorem Stmt.executeAll_stable {budget more : Nat} (within : budget ≤ more) :
    ∀ statements : List Stmt,
      Stable (Stmt.executeAll budget statements) (Stmt.executeAll more statements)
  | [] => .refl _
  | statement :: rest =>
      (execute_stable within statement).bind fun _ => executeAll_stable within rest

end

theorem Machine.interpret_stable {budget more : Nat} (within : budget ≤ more)
    (program : List Stmt) : Stable (Machine.interpret budget program)
      (Machine.interpret more program) := by
  intro machine ends
  have inner : ∀ left, Stmt.executeAll budget program machine ≠ .error .exhausted left := by
    intro left run
    exact ends left (by simp [Machine.interpret, run])
  simp only [Machine.interpret, Stmt.executeAll_stable within program machine inner]

end TreeWalk
