import TreeWalk.Proofs.Execution.Keeping

/-!
# Sinks stay what they are

A sink notes what it was offered.  How it refuses texts is settled from the start, so a sink that
takes every text still does so after a run, however the run has ended.
-/

set_option autoImplicit false

namespace TreeWalk

namespace Execution

variable {α : Type}

/-- The machine that an action leaves behind, also when it halts. -/
def left (action : Execution α) (before : Machine) : Machine :=
  match action before with
  | .ok _ after | .error _ after => after

/-- However the action ends, its sink refuses texts as before. -/
def Steady (action : Execution α) : Prop :=
  ∀ machine, (left action machine).sink.refuses = machine.sink.refuses

theorem Steady.keeps {action : Execution α} (steady : Steady action) :
    Stateful.Keeps (fun before after => after.sink.refuses = before.sink.refuses) action := by
  intro machine
  have kept := steady machine
  unfold left at kept
  unfold Stateful.left
  generalize action machine = run at kept ⊢
  cases run <;> exact kept

theorem steady_evaluate (expr : Expr) : Steady (evaluate expr) := by
  intro machine
  unfold left evaluate
  cases expr.evaluate machine.environment <;> rfl

theorem steady_write (text : String) (blamed : Token) : Steady (write text blamed) := by
  intro machine
  have kept : (machine.sink.write text).2.refuses = machine.sink.refuses := by
    unfold Sink.write
    split
    · rfl
    · rfl
  unfold left write
  generalize machine.sink.write text = offered at kept ⊢
  obtain ⟨refusal, sink⟩ := offered
  cases refusal <;> exact kept

theorem upheld_refuses :
    Upheld fun _ before after => after.sink.refuses = before.sink.refuses where
  preorder _ := { refl := fun _ => rfl, trans := fun _ _ _ early late => late.trans early }
  evaluate _ expr := (steady_evaluate expr).keeps
  write _ text blamed := (steady_write text blamed).keeps
  define _ _ _ _ _ := rfl
  note _ _ _ := rfl
  inScope _ _ _ kept := kept

end Execution

theorem Machine.Ends.unfailing {program : List Stmt} {machine left : Machine}
    {result : Option Fault} (ends : machine.Ends program result left)
    (unfailing : machine.sink.Unfailing) : left.sink.Unfailing := by
  intro attempts text
  rw [ends.related Execution.upheld_refuses]
  exact unfailing attempts text

end TreeWalk
