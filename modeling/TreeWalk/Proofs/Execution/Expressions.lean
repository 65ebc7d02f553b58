import TreeWalk.Proofs.Execution.Chains
import TreeWalk.Proofs.Execution.WellOperated
import TreeWalk.Proofs.Stateful

/-!
# Evaluating expressions

On the trees of the grammar evaluation always ends, and it ends as the semantics says: with the
same value or fault, and in an environment that stands for the same chain.
-/

set_option autoImplicit false

namespace TreeWalk

open Semantics
open Stateful (bind_of_error bind_of_ok)

namespace Semantics

/-! ## Every expression has an outcome -/

theorem Chain.depth_assign? {chain after : Chain} {name : String} {value : Value}
    (assigned : chain.assign? name value = some after) : after.depth = chain.depth := by
  induction chain generalizing after with
  | outermost names =>
      obtain ⟨old, -, rfl⟩ := Option.map_eq_some_iff.mp assigned
      rfl
  | inside names outer ih =>
      unfold Chain.assign? at assigned
      split at assigned
      · cases assigned
        rfl
      · obtain ⟨changed, inner, rfl⟩ := Option.map_eq_some_iff.mp assigned
        exact congrArg (· + 1) (ih inner)

theorem Evaluates.depth {chain after : Chain} {expr : Expr} {result : Except Fault Value}
    (evaluates : Evaluates chain expr result after) : after.depth = chain.depth := by
  induction evaluates with
  | literal | reference | unbound => rfl
  | grouping _ ih | assignUnbound _ _ ih | assignFails _ ih | unary _ _ ih | unaryFails _ ih
  | settled _ _ ih | logicalFails _ ih | leftFails _ ih => exact ih
  | assign _ bound ih => exact (Chain.depth_assign? bound).trans ih
  | continued _ _ _ firstIh secondIh | binary _ _ _ firstIh secondIh
  | rightFails _ _ firstIh secondIh => exact secondIh.trans firstIh

theorem Chain.depth_define (chain : Chain) (name : String) (value : Value) :
    (chain.define name value).depth = chain.depth := by
  cases chain <;> rfl

theorem Runs.depth {chain after : Chain} {task : Task} {result : Option Fault} {output : String}
    (runs : Runs chain task result output after) : after.depth = chain.depth := by
  induction runs with
  | expression evaluates | expressionFails evaluates | print evaluates | printFails evaluates
  | initializerFails evaluates | branchNone evaluates | branchFails evaluates
  | loopDone evaluates | loopFails evaluates => exact evaluates.depth
  | bare => exact Chain.depth_define _ _ _
  | initialized evaluates => exact (Chain.depth_define _ _ _).trans evaluates.depth
  | block _ ih => exact Nat.succ.inj ih
  | branchTrue tested _ _ ih | branchFalse tested _ _ ih | loopBodyFails tested _ _ ih =>
      exact ih.trans tested.depth
  | loopAgain tested _ _ _ roundIh againIh => exact againIh.trans (roundIh.trans tested.depth)
  | done => rfl
  | next _ _ headIh tailIh => exact tailIh.trans headIh
  | stops _ ih => exact ih

theorem Runs.inside {names : Names} {outer after : Chain} {task : Task} {result : Option Fault}
    {output : String} (runs : Runs (.inside names outer) task result output after) :
    ∃ left rest, after = .inside left rest := by
  have depth := runs.depth
  cases after with
  | outermost left => simp [Chain.depth] at depth
  | inside left rest => exact ⟨left, rest, rfl⟩

theorem exists_evaluates {expr : Expr} (operated : expr.WellOperated) (chain : Chain) :
    ∃ result after, Evaluates chain expr result after := by
  induction expr generalizing chain with
  | literal value span => exact ⟨_, _, .literal value span⟩
  | grouping inner ih =>
      obtain ⟨result, after, evaluates⟩ := ih operated chain
      exact ⟨_, _, .grouping evaluates⟩
  | reference name =>
      cases bound : chain.lookup name.lexeme with
      | none => exact ⟨_, _, .unbound bound⟩
      | some value => exact ⟨_, _, .reference bound⟩
  | assign name expr ih =>
      obtain ⟨result, after, right⟩ := ih operated chain
      cases result with
      | error fault => exact ⟨_, _, .assignFails right⟩
      | ok value =>
          cases bound : after.assign? name.lexeme value with
          | none => exact ⟨_, _, .assignUnbound right bound⟩
          | some changed => exact ⟨_, _, .assign right bound⟩
  | unary operator expr ih =>
      obtain ⟨member, operated⟩ := operated
      obtain ⟨result, after, right⟩ := ih operated chain
      cases result with
      | error fault => exact ⟨_, _, .unaryFails right⟩
      | ok value =>
          obtain ⟨outcome, negates⟩ := exists_negates member value
          exact ⟨_, _, .unary right negates⟩
  | logical left operator right leftIh rightIh =>
      obtain ⟨member, leftOperated, rightOperated⟩ := operated
      obtain ⟨result, middle, first⟩ := leftIh leftOperated chain
      cases result with
      | error fault => exact ⟨_, _, .logicalFails first⟩
      | ok value =>
          rcases settles_or_continues member value with settles | continues
          · exact ⟨_, _, .settled first settles⟩
          · obtain ⟨outcome, after, second⟩ := rightIh rightOperated middle
            exact ⟨_, _, .continued first continues second⟩
  | binary left operator right leftIh rightIh =>
      obtain ⟨member, leftOperated, rightOperated⟩ := operated
      obtain ⟨result, middle, first⟩ := leftIh leftOperated chain
      cases result with
      | error fault => exact ⟨_, _, .leftFails first⟩
      | ok one =>
          obtain ⟨outcome, after, second⟩ := rightIh rightOperated middle
          cases outcome with
          | error fault => exact ⟨_, _, .rightFails first second⟩
          | ok other =>
              obtain ⟨combined, combines⟩ := exists_combines member one other
              exact ⟨_, _, .binary first second combines⟩

end Semantics

/-! ## Evaluation agrees -/

namespace Evaluation

/-- The end of an evaluation with this outcome. -/
def ended (environment : Environment) :
    Except Fault Value → EStateM.Result Halt Environment Value
  | .ok value => .ok value environment
  | .error fault => .error (.fault fault) environment

theorem ofExcept_raised (operator : Token) (result : Except FaultCause Value)
    (environment : Environment) :
    ofExcept (Operator.raised operator result) environment =
      ended environment (blame operator result) := by
  cases result <;> rfl

theorem read_eq {environment : Environment} (formed : environment.WellFormed) (name : Token) :
    read name environment =
      match environment.chain.lookup name.lexeme with
      | some value => .ok value environment
      | none => .error (.raise (.undefinedVariable name.lexeme) name) environment := by
  have found := Environment.get?_eq_lookup formed name.lexeme
  unfold read
  cases value : environment.chain.lookup name.lexeme with
  | none => simp only [found, value]
  | some value => simp only [found, value]

end Evaluation

open Evaluation (ended)

/-- What the semantics derives is what evaluation does. -/
theorem Semantics.Evaluates.computed {chain after : Chain} {expr : Expr}
    {result : Except Fault Value} (evaluates : Evaluates chain expr result after)
    {environment : Environment} (formed : environment.WellFormed)
    (same : environment.chain = chain) :
    ∃ left, expr.evaluate environment = ended left result ∧ left.WellFormed ∧
      left.chain = after := by
  induction evaluates generalizing environment with
  | literal => exact ⟨environment, rfl, formed, same⟩
  | grouping _ ih => exact ih formed same
  | reference bound =>
      refine ⟨environment, ?_, formed, same⟩
      rw [Expr.evaluate, Evaluation.read_eq formed, same, bound]
      rfl
  | unbound free =>
      refine ⟨environment, ?_, formed, same⟩
      rw [Expr.evaluate, Evaluation.read_eq formed, same, free]
      rfl
  | @assign _ _ _ name _ value _ bound ih =>
      obtain ⟨middle, run, middleFormed, rfl⟩ := ih formed same
      obtain ⟨agrees, keeps⟩ := Environment.assign?_spec middleFormed name.lexeme value
      rw [bound] at agrees
      obtain ⟨changed, assigned, chain⟩ := Option.map_eq_some_iff.mp agrees
      refine ⟨changed, ?_, keeps changed assigned, chain⟩
      have written : Evaluation.write name value middle = .ok () changed := by
        unfold Evaluation.write
        rw [assigned]
      exact (bind_of_ok _ run).trans (bind_of_ok _ written)
  | @assignUnbound _ _ name _ value _ free ih =>
      obtain ⟨left, run, leftFormed, rfl⟩ := ih formed same
      obtain ⟨agrees, -⟩ := Environment.assign?_spec leftFormed name.lexeme value
      rw [free] at agrees
      have written : Evaluation.write name value left =
          .error (.raise (.undefinedVariable name.lexeme) name) left := by
        unfold Evaluation.write
        rw [Option.map_eq_none_iff.mp agrees]
      exact ⟨left, (bind_of_ok _ run).trans (bind_of_error _ written), leftFormed, rfl⟩
  | assignFails _ ih | unaryFails _ ih | logicalFails _ ih | leftFails _ ih =>
      obtain ⟨left, run, leftFormed, chain⟩ := ih formed same
      exact ⟨left, bind_of_error _ run, leftFormed, chain⟩
  | @unary _ _ operator _ value outcome _ negates ih =>
      obtain ⟨left, run, leftFormed, chain⟩ := ih formed same
      refine ⟨left, (bind_of_ok _ run).trans ?_, leftFormed, chain⟩
      rw [negates.computed]
      exact Evaluation.ofExcept_raised operator outcome left
  | settled _ settles ih =>
      obtain ⟨left, run, leftFormed, chain⟩ := ih formed same
      refine ⟨left, (bind_of_ok _ run).trans ?_, leftFormed, chain⟩
      rw [settles.computed]
      rfl
  | continued _ continues _ firstIh secondIh =>
      obtain ⟨middle, firstRun, middleFormed, middleChain⟩ := firstIh formed same
      obtain ⟨left, secondRun, leftFormed, chain⟩ := secondIh middleFormed middleChain
      refine ⟨left, (bind_of_ok _ firstRun).trans ?_, leftFormed, chain⟩
      rw [continues.computed]
      exact secondRun
  | @binary _ _ _ _ _ operator _ _ outcome _ _ combines firstIh secondIh =>
      obtain ⟨middle, firstRun, middleFormed, middleChain⟩ := firstIh formed same
      obtain ⟨left, secondRun, leftFormed, chain⟩ := secondIh middleFormed middleChain
      refine ⟨left, (bind_of_ok _ firstRun).trans ((bind_of_ok _ secondRun).trans ?_),
        leftFormed, chain⟩
      rw [combines.computed]
      exact Evaluation.ofExcept_raised operator outcome left
  | rightFails _ _ firstIh secondIh =>
      obtain ⟨middle, firstRun, middleFormed, middleChain⟩ := firstIh formed same
      obtain ⟨left, secondRun, leftFormed, chain⟩ := secondIh middleFormed middleChain
      exact ⟨left, (bind_of_ok _ firstRun).trans (bind_of_error _ secondRun), leftFormed, chain⟩

/-- What evaluation does is what the semantics derives. -/
theorem Expr.evaluate_spec {expr : Expr} (operated : expr.WellOperated)
    {environment : Environment} (formed : environment.WellFormed) :
    ∃ result left, expr.evaluate environment = ended left result ∧ left.WellFormed ∧
      Evaluates environment.chain expr result left.chain := by
  obtain ⟨result, after, evaluates⟩ := exists_evaluates operated environment.chain
  obtain ⟨left, run, leftFormed, rfl⟩ := evaluates.computed formed rfl
  exact ⟨result, left, run, leftFormed, evaluates⟩

end TreeWalk
