import Mathlib.Data.Set.Finite.Lattice
import TreeWalk.Proofs.Execution.Expressions

/-!
# Scopes are a stack of maps

An environment keeps its scopes in an array and follows places from one scope to the scope around
it.  Seen from outside it is a stack of maps that is never empty: `refines_stack` says that every
sequence of operations on a new environment is answered as the stack answers it.  On the way no
place is ever outside the array.
-/

set_option autoImplicit false

namespace TreeWalk

open Semantics (Chain Names)

inductive ScopeOperation where
  | define (name : String) (value : Value)
  | get (name : Token)
  | assign (name : Token) (value : Value)
  | isDefined (name : String)
  | push
  | pop

namespace ScopeOperation

inductive Answer where
  | done
  | found (result : Except Halt Value)
  | assigned (result : Except Halt Unit)
  | defined (known : Bool)
  | opened (place : Nat)

/-- The result of an evaluation apart from the environment that it leaves. -/
def outcome {α : Type} : EStateM.Result Halt Environment α → Except Halt α × Environment
  | .ok value environment => (.ok value, environment)
  | .error halt environment => (.error halt, environment)

def onArena (environment : Environment) : ScopeOperation → Answer × Environment
  | define name value => (.done, environment.define name value)
  | get name =>
      let (result, after) := outcome (Evaluation.read name environment)
      (.found result, after)
  | assign name value =>
      let (result, after) := outcome (Evaluation.write name value environment)
      (.assigned result, after)
  | isDefined name => (.defined (environment.isDefined name), environment)
  | push => (.opened environment.push.current, environment.push)
  | pop => (.done, environment.pop)

/-- The same on a stack of maps.  The outermost map is never dropped. -/
def onStack (stack : Chain) : ScopeOperation → Answer × Chain
  | define name value => (.done, stack.define name value)
  | get name =>
      match stack.lookup name.lexeme with
      | some value => (.found (.ok value), stack)
      | none => (.found (.error (.raise (.undefinedVariable name.lexeme) name)), stack)
  | assign name value =>
      match stack.assign? name.lexeme value with
      | some changed => (.assigned (.ok ()), changed)
      | none => (.assigned (.error (.raise (.undefinedVariable name.lexeme) name)), stack)
  | isDefined name => (.defined (stack.lookup name).isSome, stack)
  | push => (.opened (stack.depth + 1), .inside .empty stack)
  | pop =>
      match stack with
      | .outermost names => (.done, .outermost names)
      | .inside _ outer => (.done, outer)

/-- The answers to all operations in order, and the state that they leave. -/
def performAll {State : Type} (perform : State → ScopeOperation → Answer × State) :
    List ScopeOperation → State → List Answer × State
  | [], state => ([], state)
  | operation :: rest, state =>
      let (answer, middle) := perform state operation
      let (answers, after) := performAll perform rest middle
      (answer :: answers, after)

end ScopeOperation

/-! ## Finite maps -/

namespace Semantics

def Names.Finite (names : Names) : Prop := {name | names name ≠ none}.Finite

def Chain.AllFinite : Chain → Prop
  | .outermost names => names.Finite
  | .inside names outer => names.Finite ∧ outer.AllFinite

end Semantics

namespace Environment

theorem mem_of_lookup {bindings : Bindings} {name : String} (bound : bindings.lookup name ≠ none) :
    name ∈ bindings.map Prod.fst := by
  obtain ⟨value, found⟩ := Option.ne_none_iff_exists'.mp bound
  obtain ⟨before, after, rfl, -⟩ := List.lookup_eq_some_iff.mp found
  simp

theorem finite_namesAt (environment : Environment) (place : Nat) :
    (environment.namesAt place).Finite := by
  cases found : environment.scopes[place]? with
  | none =>
      refine Set.finite_empty.subset fun name bound => bound ?_
      simp [namesAt, found]
  | some scope =>
      refine (scope.bindings.map Prod.fst).finite_toSet.subset fun name bound => ?_
      refine mem_of_lookup fun free => bound ?_
      simp [namesAt, found, free]

theorem allFinite_chainFrom (environment : Environment) (place : Nat) :
    (environment.chainFrom place).AllFinite := by
  induction place with
  | zero => exact environment.finite_namesAt 0
  | succ place ih => exact ⟨environment.finite_namesAt (place + 1), ih⟩

/-! ## Places -/

/-- The places that operations look at: the current one, and the place around each of them. -/
inductive Visited (environment : Environment) : Nat → Prop where
  | current : Visited environment environment.current
  | around {place outer : Nat} {scope : Scope} (visited : Visited environment place)
      (found : environment.scopes[place]? = some scope) (outward : scope.enclosing = some outer) :
      Visited environment outer

theorem WellFormed.visited {environment : Environment} (formed : environment.WellFormed)
    {place : Nat} (visited : environment.Visited place) : place < environment.scopes.size := by
  induction visited with
  | current =>
      have current := formed.current
      omega
  | @around place outer scope _ found outward inside =>
      obtain ⟨within, rfl⟩ := Array.getElem?_eq_some_iff.mp found
      cases place with
      | zero =>
          rw [formed.enclosing_zero inside] at outward
          cases outward
      | succ below =>
          rw [formed.enclosing_succ inside] at outward
          cases outward
          omega

theorem depth_chainFrom (environment : Environment) (place : Nat) :
    (environment.chainFrom place).depth = place := by
  induction place with
  | zero => rfl
  | succ place ih => exact congrArg (· + 1) ih

theorem depth_chain (environment : Environment) : environment.chain.depth = environment.current :=
  environment.depth_chainFrom environment.current

/-! ## One operation -/

theorem isDefined_eq_isSome (environment : Environment) (name : String) :
    environment.isDefined name = (environment.get? name).isSome := by
  simp [isDefined, get?]

section Formed

variable {environment : Environment} (formed : environment.WellFormed)

include formed

theorem isDefined_eq_lookup (name : String) :
    environment.isDefined name = (environment.chain.lookup name).isSome := by
  rw [isDefined_eq_isSome, get?_eq_lookup formed]

theorem chain_pop : environment.pop.chain = (ScopeOperation.onStack environment.chain .pop).2 := by
  cases inner : environment.chain with
  | inside names outer => exact (pop_spec formed inner).2
  | outermost names =>
      have current := formed.current
      have depth := environment.depth_chain
      rw [inner] at depth
      change 0 = environment.current at depth
      have stays : environment.pop = environment := by
        unfold pop
        rw [if_pos (by omega)]
      rw [stays, inner]
      rfl

/-- One operation does to the scopes what it does to the stack that they stand for. -/
theorem onArena_spec (operation : ScopeOperation) :
    (operation.onArena environment).1 = (operation.onStack environment.chain).1 ∧
      (operation.onArena environment).2.WellFormed ∧
      (operation.onArena environment).2.chain = (operation.onStack environment.chain).2 := by
  cases operation with
  | define name value => exact ⟨rfl, formed.define name value, chain_define formed name value⟩
  | get name =>
      simp only [ScopeOperation.onArena, ScopeOperation.onStack, Evaluation.read_eq formed]
      cases environment.chain.lookup name.lexeme <;> exact ⟨rfl, formed, rfl⟩
  | assign name value =>
      obtain ⟨agrees, keeps⟩ := assign?_spec formed name.lexeme value
      simp only [ScopeOperation.onArena, ScopeOperation.onStack, Evaluation.write, ← agrees]
      cases assigned : environment.assign? name.lexeme value with
      | none => exact ⟨rfl, formed, rfl⟩
      | some changed => exact ⟨rfl, keeps changed assigned, rfl⟩
  | isDefined name =>
      exact ⟨congrArg ScopeOperation.Answer.defined (isDefined_eq_lookup formed name), formed, rfl⟩
  | push =>
      have place : environment.push.current = environment.chain.depth + 1 := by
        rw [depth_chain]
        exact formed.current.symm
      exact ⟨congrArg ScopeOperation.Answer.opened place, formed.push, chain_push formed⟩
  | pop =>
      refine ⟨?_, formed.pop, chain_pop formed⟩
      simp only [ScopeOperation.onArena, ScopeOperation.onStack]
      cases environment.chain <;> rfl

end Formed

/-! ## Names that are bound and names that are not -/

/-- Reading a name, asking whether it is defined and assigning to it agree; if the name has no
binding, the first and the last of these tell the name and its token and change nothing. -/
structure Consistent (environment : Environment) (name : Token) (value : Value) : Prop where
  get : (∃ found, Evaluation.read name environment = .ok found environment) ↔
    environment.isDefined name.lexeme = true
  assign : (∃ changed, Evaluation.write name value environment = .ok () changed) ↔
    environment.isDefined name.lexeme = true
  unread : environment.isDefined name.lexeme = false →
    Evaluation.read name environment =
      .error (.fault ⟨.undefinedVariable name.lexeme, name⟩) environment
  unassigned : environment.isDefined name.lexeme = false →
    Evaluation.write name value environment =
      .error (.fault ⟨.undefinedVariable name.lexeme, name⟩) environment

theorem consistent (environment : Environment) (name : Token) (value : Value) :
    environment.Consistent name value := by
  cases found : environment.resolve name.lexeme with
  | none =>
      constructor <;>
        simp [Evaluation.read, Evaluation.write, get?, assign?, isDefined, found, Halt.raise]
  | some binding =>
      constructor <;> simp [Evaluation.read, Evaluation.write, get?, assign?, isDefined, found]

/-! ## Sequences of operations -/

/-- The scopes are a chain from the current one outward, and stand for this stack. -/
structure Represents (environment : Environment) (stack : Chain) : Prop where
  formed : environment.WellFormed
  nonempty : 0 < environment.depth
  inside : ∀ place, environment.Visited place → place < environment.depth
  same : environment.chain = stack
  height : environment.depth = stack.depth + 1
  finite : stack.AllFinite
  consistent : ∀ name value, environment.Consistent name value

theorem WellFormed.represents {environment : Environment} (formed : environment.WellFormed) :
    environment.Represents environment.chain where
  formed := formed
  nonempty := by
    unfold depth
    rw [← formed.current]
    exact Nat.succ_pos environment.current
  inside := fun _ visited => formed.visited visited
  same := rfl
  height := by
    rw [depth_chain]
    exact formed.current.symm
  finite := environment.allFinite_chainFrom environment.current
  consistent := environment.consistent

theorem performAll_spec (operations : List ScopeOperation) {environment : Environment}
    (formed : environment.WellFormed) :
    (ScopeOperation.performAll ScopeOperation.onArena operations environment).1 =
        (ScopeOperation.performAll ScopeOperation.onStack operations environment.chain).1 ∧
      (ScopeOperation.performAll ScopeOperation.onArena operations environment).2.Represents
        (ScopeOperation.performAll ScopeOperation.onStack operations environment.chain).2 := by
  induction operations generalizing environment with
  | nil => exact ⟨rfl, formed.represents⟩
  | cons operation rest ih =>
      obtain ⟨answer, middleFormed, middle⟩ := onArena_spec formed operation
      obtain ⟨answers, represents⟩ := ih middleFormed
      rw [middle] at answers represents
      exact ⟨congrArg₂ List.cons answer answers, represents⟩

theorem chain_empty : empty.chain = .outermost .empty := rfl

/-- Whatever is done with a new environment, its scopes answer as a stack of finite maps does that
starts with one empty map, and they keep standing for that stack. -/
theorem refines_stack (operations : List ScopeOperation) :
    (ScopeOperation.performAll ScopeOperation.onArena operations empty).1 =
        (ScopeOperation.performAll ScopeOperation.onStack operations (.outermost .empty)).1 ∧
      (ScopeOperation.performAll ScopeOperation.onArena operations empty).2.Represents
        (ScopeOperation.performAll ScopeOperation.onStack operations (.outermost .empty)).2 := by
  rw [← chain_empty]
  exact performAll_spec operations wellFormed_empty

end Environment

end TreeWalk
