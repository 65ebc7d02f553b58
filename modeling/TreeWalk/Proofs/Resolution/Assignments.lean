import TreeWalk.Proofs.Diagnosis.Origins
import TreeWalk.Proofs.Resolution.RestoredScopes

/-!
# Expressions touch what they assign

Evaluating an expression writes nothing, opens no scope and binds no new name.  It can give another
value to the nearest bindings of the names that the expression assigns to, also when a fault ends
it, and to no other binding.  Without assignments it leaves the machine as it was, so that a second
evaluation ends as the first one did.
-/

set_option autoImplicit false

namespace TreeWalk

open Stateful (Keeps left_of_error left_of_ok)

namespace Environment

/-- From `start` outward, the scope at a place is the first one that binds the name. -/
inductive Nearest (environment : Environment) (name : String) : Nat → Nat → Prop where
  | here {start : Nat} (bound : name ∈ environment.boundAt start) :
      Nearest environment name start start
  | outward {start outer place : Nat} (free : name ∉ environment.boundAt start)
      (around : environment.scopes[start]?.map Scope.enclosing = some (some outer))
      (further : Nearest environment name outer place) : Nearest environment name start place

/-- The scopes, their nesting and their names are the same, and a binding that has another value is
the nearest one of one of these names. -/
structure Touches (names : Set String) (before after : Environment) : Prop where
  depth : after.depth = before.depth
  current : after.current = before.current
  enclosing : ∀ place : Nat, after.scopes[place]?.map Scope.enclosing =
    before.scopes[place]?.map Scope.enclosing
  bound : ∀ place, after.boundAt place = before.boundAt place
  changed : ∀ place name, after.namesAt place name ≠ before.namesAt place name →
    name ∈ names ∧ before.Nearest name before.current place

variable {names : Set String} {first second third : Environment}

theorem Touches.refl (names : Set String) (environment : Environment) :
    environment.Touches names environment :=
  ⟨rfl, rfl, fun _ => rfl, fun _ => rfl, fun _ _ other => absurd rfl other⟩

theorem Touches.nearest (touches : first.Touches names second) {name : String}
    {start place : Nat} (nearest : second.Nearest name start place) :
    first.Nearest name start place := by
  induction nearest with
  | @here start bound =>
      rw [touches.bound] at bound
      exact .here bound
  | @outward start outer _ free around _ ih =>
      rw [touches.bound] at free
      rw [touches.enclosing] at around
      exact .outward free around ih

theorem Touches.trans (early : first.Touches names second) (late : second.Touches names third) :
    first.Touches names third := by
  refine ⟨late.depth.trans early.depth, late.current.trans early.current,
    fun place => (late.enclosing place).trans (early.enclosing place),
    fun place => (late.bound place).trans (early.bound place), fun place name other => ?_⟩
  by_cases changed : third.namesAt place name = second.namesAt place name
  · rw [changed] at other
    exact early.changed place name other
  · obtain ⟨allowed, nearest⟩ := late.changed place name changed
    rw [early.current] at nearest
    exact ⟨allowed, early.nearest nearest⟩

instance (names : Set String) : IsPreorder Environment (Touches names) where
  refl := Touches.refl names
  trans _ _ _ := Touches.trans

theorem nearest_of_resolveFrom {environment : Environment} {name : String}
    {count start place : Nat} {value : Value}
    (found : environment.resolveFrom name count start = some (place, value)) :
    environment.Nearest name start place := by
  induction count generalizing start with
  | zero => cases found
  | succ count ih =>
      unfold resolveFrom at found
      split at found
      · cases found
      · next scope here =>
          split at found
          · next bound =>
              cases found
              refine .here fun free => ?_
              simp [namesAt, here, bound] at free
          · next unbound =>
              obtain ⟨outer, around, further⟩ := Option.bind_eq_some_iff.mp found
              refine .outward (fun bound => bound ?_) ?_ (ih further)
              · simp [namesAt, here, unbound]
              · rw [here, Option.map_some, around]

theorem touches_assign? {environment changed : Environment} {name : String} {value : Value}
    (assigned : environment.assign? name value = some changed) (allowed : name ∈ names) :
    environment.Touches names changed := by
  obtain ⟨⟨place, old⟩, found, rfl⟩ := Option.map_eq_some_iff.mp assigned
  have known := mem_boundAt_of_resolveFrom found
  have inside := lt_size_of_mem_boundAt known
  refine ⟨size_bindAt environment place name value, rfl,
    fun other => enclosing_bindAt environment place other name value, fun other => ?_,
    fun other wanted differs => ?_⟩
  · by_cases same : place = other
    · subst same
      rw [boundAt_bindAt_self inside, Set.insert_eq_of_mem known]
    · exact boundAt_bindAt_of_ne environment same name value
  · by_cases same : place = other
    · subst same
      rw [namesAt_bindAt_self inside] at differs
      by_cases target : wanted = name
      · subst target
        exact ⟨allowed, nearest_of_resolveFrom found⟩
      · exact absurd (if_neg target) differs
    · rw [namesAt_bindAt_of_ne environment same] at differs
      exact absurd rfl differs

end Environment

/-! ## Evaluations -/

theorem Expr.keeps_touches (expr : Expr) :
    Keeps (Environment.Touches {name | name ∈ expr.assigned}) expr.evaluate :=
  expr.evaluate_keeps fun _ member _ _ _ assigned => Environment.touches_assign? assigned member

theorem Expr.evaluate_stays {expr : Expr} (none : expr.assigned = []) :
    Keeps Eq expr.evaluate := by
  refine expr.evaluate_keeps fun name member => ?_
  rw [none] at member
  cases member

namespace Execution

/-- An evaluation that has ended with a value or a fault. -/
def returned (machine : Machine) : Except Fault Value → EStateM.Result Halt Machine Value
  | .ok value => .ok value machine
  | .error fault => .error (.fault fault) machine

theorem evaluate_eq_returned {expr : Expr} {machine : Machine} {left : Environment}
    {result : Except Fault Value}
    (run : expr.evaluate machine.environment = Evaluation.ended left result) :
    evaluate expr machine = returned { machine with environment := left } result := by
  unfold evaluate
  rw [run]
  cases result <;> rfl

theorem left_ended (environment : Environment) (result : Except Fault Value)
    {action : Evaluation Value} {start : Environment}
    (run : action start = Evaluation.ended environment result) :
    Stateful.left action start = environment := by
  cases result with
  | ok value => exact left_of_ok run
  | error fault => exact left_of_error run

/-- An expression of a parsed program evaluates to a value or a fault.  Either way nothing is
written, and only the nearest bindings of the names that it assigns to are touched.  Without
assignments the machine stays as it was, and a second evaluation ends alike. -/
theorem evaluate_touches {tokens : List Token} {expr : Expr}
    (parsed : expr ∈ Stmt.allNodes (Parsed.ofTokens tokens).statements) {machine : Machine}
    (formed : machine.environment.WellFormed) :
    ∃ result after, evaluate expr machine = returned after result ∧
      after.sink = machine.sink ∧ after.journal = machine.journal ∧
      machine.environment.Touches {name | name ∈ expr.assigned} after.environment ∧
      (expr.assigned = [] → after.environment = machine.environment ∧
        evaluate expr after = returned after result) := by
  have operated := (Parsed.origin_of_node parsed).wellOperated
  obtain ⟨result, left, run, -, -⟩ := Expr.evaluate_spec operated formed
  have touched := expr.keeps_touches machine.environment
  rw [left_ended left result run] at touched
  refine ⟨result, _, evaluate_eq_returned run, rfl, rfl, touched, fun none => ?_⟩
  have stays := Expr.evaluate_stays none machine.environment
  rw [left_ended left result run] at stays
  subst stays
  exact ⟨rfl, evaluate_eq_returned run⟩

/-- The left operand gives the inner `a` a text before the operator fails; the outer one keeps its
value. -/
theorem evaluate_touches_shadowed :
    ∃ expr ∈ Stmt.allNodes
        (Parsed.ofTokens (Scan.ofSource "(a = \"x\") - nil;").tokens).statements,
      expr.assigned = ["a"] ∧
      ((Environment.empty.define "a" .nil).push.define "a" .nil).WellFormed ∧
      ∃ after, evaluate expr
          ⟨(Environment.empty.define "a" .nil).push.define "a" .nil, .unfailing, []⟩ =
            returned after
              (.error ⟨.operandsMustBeNumbers .string .nil, ⟨.minus, "-", none, 1, ⟨10, 11⟩⟩⟩) ∧
        after.sink.attempts = [] ∧
        ((Environment.empty.define "a" .nil).push.define "a" .nil).Touches
          {name | name ∈ expr.assigned} after.environment ∧
        after.environment.namesAt 1 "a" = some (.text "x") ∧
        after.environment.namesAt 0 "a" = some .nil := by
  have formed := ((Environment.wellFormed_empty.define "a" .nil).push).define "a" .nil
  obtain ⟨expr, same, parsed⟩ : ∃ expr : Expr, expr =
      .binary
        (.grouping (.assign ⟨.identifier, "a", none, 1, ⟨1, 2⟩⟩ (.literal (.text "x") ⟨5, 8⟩)))
        ⟨.minus, "-", none, 1, ⟨10, 11⟩⟩ (.literal .nil ⟨12, 15⟩) ∧
      expr ∈ Stmt.allNodes
        (Parsed.ofTokens (Scan.ofSource "(a = \"x\") - nil;").tokens).statements :=
    ⟨_, rfl, List.mem_cons_self⟩
  obtain ⟨result, after, run, sink, -, touches, -⟩ := evaluate_touches parsed
    (show (Machine.mk ((Environment.empty.define "a" .nil).push.define "a" .nil) .unfailing
      []).environment.WellFormed from formed)
  have known : evaluate expr
      ⟨(Environment.empty.define "a" .nil).push.define "a" .nil, .unfailing, []⟩ =
        returned ⟨⟨#[⟨[("a", .nil)], none⟩, ⟨[("a", .text "x")], some 0⟩], 1⟩, .unfailing, []⟩
          (.error ⟨.operandsMustBeNumbers .string .nil, ⟨.minus, "-", none, 1, ⟨10, 11⟩⟩⟩) := by
    rw [same]
    rfl
  rw [known] at run
  cases result <;> cases run
  exact ⟨expr, parsed, by rw [same]; rfl, formed, _, known, rfl, touches, rfl, rfl⟩

end Execution

end TreeWalk
