import TreeWalk.Proofs.Execution.Keeping
import TreeWalk.Proofs.Resolution.Resolver

/-!
# An empty map more

A map without names changes no lookup and no assignment, wherever it stands in a chain.  So a run
does the same with it and without it, unless it declares a name while that map is the innermost
one.  `Alike` tells which relations of chains no run can tell apart, up to such declarations; one
induction over runs then covers both directions, from the shorter chain to the longer one and
back.
-/

set_option autoImplicit false

namespace TreeWalk.Semantics

/-- The names that a task declares outside of the blocks in it. -/
def Task.declared : Task → List String
  | one statement => statement.declared
  | all statements => Stmt.allDeclared statements

/-! ## Chains that are alike -/

/-- Looking up and assigning names, opening and closing scopes lead from related chains to related
chains, and so does a declaration in front of the place where they differ.  The number tells how
many maps the two chains have in front of that place. -/
structure Alike (related : Nat → Chain → Chain → Prop) : Prop where
  lookup {depth : Nat} {chain other : Chain} : related depth chain other →
    ∀ name, other.lookup name = chain.lookup name
  assign {depth : Nat} {chain other : Chain} : related depth chain other →
    ∀ name value, Option.Rel (related depth) (chain.assign? name value) (other.assign? name value)
  define {depth : Nat} {chain other : Chain} : related (depth + 1) chain other →
    ∀ name value, related (depth + 1) (chain.define name value) (other.define name value)
  enter {depth : Nat} {chain other : Chain} : related depth chain other →
    related (depth + 1) (.inside .empty chain) (.inside .empty other)
  leave {depth : Nat} {names : Names} {chain other : Chain} :
    related (depth + 1) (.inside names chain) other →
      ∃ others outer, other = .inside others outer ∧ related depth chain outer

section Runs

variable {related : Nat → Chain → Chain → Prop} (alike : Alike related)

include alike

theorem Evaluates.transfer {chain after : Chain} {expr : Expr} {result : Except Fault Value}
    (evaluates : Evaluates chain expr result after) {depth : Nat} {other : Chain}
    (start : related depth chain other) :
    ∃ left, Evaluates other expr result left ∧ related depth after left := by
  induction evaluates generalizing other with
  | literal value span => exact ⟨other, .literal value span, start⟩
  | grouping _ ih =>
      obtain ⟨left, inside, kept⟩ := ih start
      exact ⟨left, .grouping inside, kept⟩
  | reference bound => exact ⟨other, .reference ((alike.lookup start _).trans bound), start⟩
  | unbound free => exact ⟨other, .unbound ((alike.lookup start _).trans free), start⟩
  | @assign _ _ _ name _ value _ bound ih =>
      obtain ⟨middle, right, reached⟩ := ih start
      have assigned := alike.assign reached name.lexeme value
      rw [bound] at assigned
      generalize changed : middle.assign? name.lexeme value = result at assigned
      cases assigned with
      | some kept => exact ⟨_, .assign right changed, kept⟩
  | @assignUnbound _ _ name _ value _ free ih =>
      obtain ⟨middle, right, reached⟩ := ih start
      have assigned := alike.assign reached name.lexeme value
      rw [free] at assigned
      generalize changed : middle.assign? name.lexeme value = result at assigned
      cases assigned with
      | none => exact ⟨middle, .assignUnbound right changed, reached⟩
  | assignFails _ ih =>
      obtain ⟨left, right, kept⟩ := ih start
      exact ⟨left, .assignFails right, kept⟩
  | unary _ negates ih =>
      obtain ⟨left, right, kept⟩ := ih start
      exact ⟨left, .unary right negates, kept⟩
  | unaryFails _ ih =>
      obtain ⟨left, right, kept⟩ := ih start
      exact ⟨left, .unaryFails right, kept⟩
  | settled _ settles ih =>
      obtain ⟨left, first, kept⟩ := ih start
      exact ⟨left, .settled first settles, kept⟩
  | continued _ continues _ firstIh secondIh =>
      obtain ⟨middle, first, reached⟩ := firstIh start
      obtain ⟨left, second, kept⟩ := secondIh reached
      exact ⟨left, .continued first continues second, kept⟩
  | logicalFails _ ih =>
      obtain ⟨left, first, kept⟩ := ih start
      exact ⟨left, .logicalFails first, kept⟩
  | binary _ _ combines firstIh secondIh =>
      obtain ⟨middle, first, reached⟩ := firstIh start
      obtain ⟨left, second, kept⟩ := secondIh reached
      exact ⟨left, .binary first second combines, kept⟩
  | leftFails _ ih =>
      obtain ⟨left, first, kept⟩ := ih start
      exact ⟨left, .leftFails first, kept⟩
  | rightFails _ _ firstIh secondIh =>
      obtain ⟨middle, first, reached⟩ := firstIh start
      obtain ⟨left, second, kept⟩ := secondIh reached
      exact ⟨left, .rightFails first second, kept⟩

/-- A run goes alike from a related chain if it declares nothing where the chains differ. -/
theorem Runs.transfer {chain after : Chain} {task : Task} {result : Option Fault} {output : String}
    (runs : Runs chain task result output after) {depth : Nat} {other : Chain}
    (start : related depth chain other) (apart : 0 < depth ∨ task.declared = []) :
    ∃ left, Runs other task result output left ∧ related depth after left := by
  induction runs generalizing depth other with
  | expression evaluates =>
      obtain ⟨left, inner, kept⟩ := evaluates.transfer alike start
      exact ⟨left, .expression inner, kept⟩
  | expressionFails evaluates =>
      obtain ⟨left, inner, kept⟩ := evaluates.transfer alike start
      exact ⟨left, .expressionFails inner, kept⟩
  | print evaluates shows =>
      obtain ⟨left, inner, kept⟩ := evaluates.transfer alike start
      exact ⟨left, .print inner shows, kept⟩
  | printFails evaluates =>
      obtain ⟨left, inner, kept⟩ := evaluates.transfer alike start
      exact ⟨left, .printFails inner, kept⟩
  | bare name =>
      obtain inside | nothing := apart
      · obtain ⟨below, rfl⟩ := Nat.exists_eq_succ_of_ne_zero inside.ne'
        exact ⟨_, .bare name, alike.define start name.lexeme .nil⟩
      · cases nothing
  | @initialized _ _ name _ value evaluates =>
      obtain inside | nothing := apart
      · obtain ⟨below, rfl⟩ := Nat.exists_eq_succ_of_ne_zero inside.ne'
        obtain ⟨left, inner, kept⟩ := evaluates.transfer alike start
        exact ⟨_, .initialized inner, alike.define kept name.lexeme value⟩
      · cases nothing
  | initializerFails evaluates =>
      obtain ⟨left, inner, kept⟩ := evaluates.transfer alike start
      exact ⟨left, .initializerFails inner, kept⟩
  | block _ ih =>
      obtain ⟨left, inner, kept⟩ := ih (alike.enter start) (Or.inl (Nat.succ_pos depth))
      obtain ⟨names, outer, rfl, outside⟩ := alike.leave kept
      exact ⟨outer, .block inner, outside⟩
  | @branchTrue _ _ _ _ _ onTrue onFalse _ _ tested truthy _ ih =>
      obtain ⟨middle, test, reached⟩ := tested.transfer alike start
      have quiet : 0 < depth ∨ onTrue.declared = [] := by
        refine apart.imp_right fun nothing => ?_
        cases onFalse with
        | none => exact nothing
        | some _ => exact (List.append_eq_nil_iff.mp nothing).1
      obtain ⟨left, taken, kept⟩ := ih reached quiet
      exact ⟨left, .branchTrue test truthy taken, kept⟩
  | branchFalse tested falsy _ ih =>
      obtain ⟨middle, test, reached⟩ := tested.transfer alike start
      have quiet := apart.imp_right fun nothing => (List.append_eq_nil_iff.mp nothing).2
      obtain ⟨left, taken, kept⟩ := ih reached quiet
      exact ⟨left, .branchFalse test falsy taken, kept⟩
  | branchNone tested falsy =>
      obtain ⟨left, test, kept⟩ := tested.transfer alike start
      exact ⟨left, .branchNone test falsy, kept⟩
  | branchFails tested =>
      obtain ⟨left, test, kept⟩ := tested.transfer alike start
      exact ⟨left, .branchFails test, kept⟩
  | loopDone tested falsy =>
      obtain ⟨left, test, kept⟩ := tested.transfer alike start
      exact ⟨left, .loopDone test falsy, kept⟩
  | loopAgain tested truthy _ _ roundIh againIh =>
      obtain ⟨middle, test, reached⟩ := tested.transfer alike start
      obtain ⟨next, round, further⟩ := roundIh reached apart
      obtain ⟨left, again, kept⟩ := againIh further apart
      exact ⟨left, .loopAgain test truthy round again, kept⟩
  | loopBodyFails tested truthy _ ih =>
      obtain ⟨middle, test, reached⟩ := tested.transfer alike start
      obtain ⟨left, round, kept⟩ := ih reached apart
      exact ⟨left, .loopBodyFails test truthy round, kept⟩
  | loopFails tested =>
      obtain ⟨left, test, kept⟩ := tested.transfer alike start
      exact ⟨left, .loopFails test, kept⟩
  | done => exact ⟨other, .done, start⟩
  | next _ _ headIh tailIh =>
      have first := apart.imp_right fun nothing => (List.append_eq_nil_iff.mp nothing).1
      have others := apart.imp_right fun nothing => (List.append_eq_nil_iff.mp nothing).2
      obtain ⟨middle, head, reached⟩ := headIh start first
      obtain ⟨left, tail, kept⟩ := tailIh reached others
      exact ⟨left, .next head tail, kept⟩
  | stops _ ih =>
      have first := apart.imp_right fun nothing => (List.append_eq_nil_iff.mp nothing).1
      obtain ⟨left, head, kept⟩ := ih start first
      exact ⟨left, .stops head, kept⟩

end Runs

/-! ## Padded chains -/

/-- The second chain has an empty map more, behind as many maps. -/
inductive Padded : Nat → Chain → Chain → Prop where
  | here (chain : Chain) : Padded 0 chain (.inside .empty chain)
  | under {depth : Nat} {chain other : Chain} (names : Names) (padded : Padded depth chain other) :
      Padded (depth + 1) (.inside names chain) (.inside names other)

namespace Padded

variable {depth : Nat} {chain other : Chain}

theorem lookup (padded : Padded depth chain other) (name : String) :
    other.lookup name = chain.lookup name := by
  induction padded with
  | here => rfl
  | under names _ ih => simp only [Chain.lookup, ih]

theorem assign (padded : Padded depth chain other) (name : String) (value : Value) :
    Option.Rel (Padded depth) (chain.assign? name value) (other.assign? name value) := by
  induction padded with
  | here chain =>
      have missed : (Chain.inside .empty chain).assign? name value =
          (chain.assign? name value).map (.inside .empty) := rfl
      rw [missed]
      cases chain.assign? name value with
      | none => exact .none
      | some changed => exact .some (.here changed)
  | @under _ chain other names padded ih =>
      cases bound : names name with
      | some old =>
          simp only [Chain.assign?, bound]
          exact .some (.under _ padded)
      | none =>
          simp only [Chain.assign?, bound]
          generalize chain.assign? name value = one at ih ⊢
          generalize other.assign? name value = another at ih ⊢
          cases ih with
          | none => exact .none
          | some kept => exact .some (.under names kept)

theorem define (padded : Padded (depth + 1) chain other) (name : String) (value : Value) :
    Padded (depth + 1) (chain.define name value) (other.define name value) := by
  cases padded with
  | under names padded => exact .under (names.set name value) padded

end Padded

theorem alike_padded : Alike Padded where
  lookup padded := padded.lookup
  assign padded := padded.assign
  define padded := padded.define
  enter padded := .under .empty padded
  leave padded := by
    cases padded with
    | under names padded => exact ⟨_, _, rfl, padded⟩

theorem alike_unpadded : Alike fun depth chain other => Padded depth other chain where
  lookup padded name := (padded.lookup name).symm
  assign {depth chain other} padded name value := by
    have assigned := padded.assign name value
    generalize chain.assign? name value = one at assigned ⊢
    generalize other.assign? name value = another at assigned ⊢
    cases assigned with
    | none => exact .none
    | some kept => exact .some kept
  define padded := padded.define
  enter padded := .under .empty padded
  leave padded := by
    cases padded with
    | under names padded => exact ⟨_, _, rfl, padded⟩

theorem runs_inside_empty_iff {chain left : Chain} {task : Task} {result : Option Fault}
    {output : String} (nothing : task.declared = []) :
    Runs (.inside .empty chain) task result output left ↔
      ∃ after, left = .inside .empty after ∧ Runs chain task result output after := by
  constructor
  · intro runs
    obtain ⟨after, shorter, padded⟩ := runs.transfer alike_unpadded (.here chain) (Or.inr nothing)
    cases padded
    exact ⟨after, rfl, shorter⟩
  · rintro ⟨after, rfl, runs⟩
    obtain ⟨left, longer, padded⟩ := runs.transfer alike_padded (.here chain) (Or.inr nothing)
    cases padded
    exact longer

theorem runs_block_iff {body : List Stmt} (nothing : (Task.all body).declared = [])
    {chain after : Chain} {result : Option Fault} {output : String} :
    Runs chain (.one (.block body)) result output after ↔
      Runs chain (.all body) result output after := by
  constructor
  · intro runs
    cases runs with
    | block inner =>
        obtain ⟨rest, same, shorter⟩ := (runs_inside_empty_iff nothing).mp inner
        obtain ⟨-, rfl⟩ := Chain.inside.inj same
        exact shorter
  · intro runs
    exact .block ((runs_inside_empty_iff nothing).mpr ⟨after, rfl, runs⟩)

/-! ## The names that are bound -/

theorem Evaluates.domains {chain after : Chain} {expr : Expr} {result : Except Fault Value}
    (evaluates : Evaluates chain expr result after) : after.domains = chain.domains := by
  induction evaluates with
  | literal | reference | unbound => rfl
  | grouping _ ih | assignUnbound _ _ ih | assignFails _ ih | unary _ _ ih | unaryFails _ ih
  | settled _ _ ih | logicalFails _ ih | leftFails _ ih => exact ih
  | assign _ bound ih => exact (Chain.domains_assign? bound).trans ih
  | continued _ _ _ firstIh secondIh | binary _ _ _ firstIh secondIh
  | rightFails _ _ firstIh secondIh => exact secondIh.trans firstIh

theorem Chain.tail_domains_define (chain : Chain) (name : String) (value : Value) :
    (chain.define name value).domains.tail = chain.domains.tail := by
  cases chain <;> rfl

theorem Runs.tail_domains {chain after : Chain} {task : Task} {result : Option Fault}
    {output : String} (runs : Runs chain task result output after) :
    after.domains.tail = chain.domains.tail := by
  induction runs with
  | expression evaluates | expressionFails evaluates | print evaluates | printFails evaluates
  | initializerFails evaluates | branchNone evaluates | branchFails evaluates
  | loopDone evaluates | loopFails evaluates => exact congrArg List.tail evaluates.domains
  | bare => exact Chain.tail_domains_define _ _ _
  | initialized evaluates =>
      exact (Chain.tail_domains_define _ _ _).trans (congrArg List.tail evaluates.domains)
  | block _ ih => exact congrArg List.tail ih
  | branchTrue tested _ _ ih | branchFalse tested _ _ ih | loopBodyFails tested _ _ ih =>
      exact ih.trans (congrArg List.tail tested.domains)
  | loopAgain tested _ _ _ roundIh againIh =>
      exact againIh.trans (roundIh.trans (congrArg List.tail tested.domains))
  | done => rfl
  | next _ _ headIh tailIh => exact tailIh.trans headIh
  | stops _ ih => exact ih

/-- A task that declares nothing leaves the same names bound in each map: in a fresh scope around
it no name is bound, and further out none ever is. -/
theorem Runs.domains {chain after : Chain} {task : Task} {result : Option Fault} {output : String}
    (runs : Runs chain task result output after) (nothing : task.declared = []) :
    after.domains = chain.domains := by
  have inner := (runs_inside_empty_iff nothing).mpr ⟨after, rfl, runs⟩
  exact inner.tail_domains

end TreeWalk.Semantics
