import Mathlib.Data.Set.Insert
import TreeWalk.Proofs.Resolution.Mentions
import TreeWalk.Proofs.Syntax.Recognition

/-!
# Resolving names before a run

The resolver walks a tree with a stack of name sets.  A declaration adds its name to the innermost
set, a block has a set of its own, and a mention is resolved if its name is in one of the sets.
The resolver sees no value; still its sets are the domains of the maps that a run finds at the
mention, whenever and however often the run gets there.  This needs that no declaration stands
directly under a branch or a loop, which the grammar rules out.
-/

set_option autoImplicit false

namespace TreeWalk

open Semantics (Chain Names Task Truthy truthy_iff)
open Stateful (bind_eq_ok)

/-! ## The resolver -/

/-- Sets of names, the innermost one first. -/
abbrev NameSets := List (Set String)

namespace NameSets

def Has (sets : NameSets) (name : String) : Prop := ∃ names ∈ sets, name ∈ names

/-- Adds a name to the innermost set. -/
def add (name : String) : NameSets → NameSets
  | [] => []
  | names :: outer => insert name names :: outer

end NameSets

/-- The sets behind a statement.  Those of a block are dropped at its end. -/
def Stmt.declare : Stmt → NameSets → NameSets
  | .var name _, sets => sets.add name.lexeme
  | .expression _, sets | .print _, sets | .block _, sets => sets
  | .branch _ onTrue none, sets => onTrue.declare sets
  | .branch _ onTrue (some onFalse), sets => onFalse.declare (onTrue.declare sets)
  | .loop _ body, sets => body.declare sets

def Stmt.declareAll : List Stmt → NameSets → NameSets
  | [], sets => sets
  | statement :: rest, sets => declareAll rest (statement.declare sets)

theorem Stmt.declare_cons (statement : Stmt) (names : Set String) (outer : NameSets) :
    ∃ more, statement.declare (names :: outer) = more :: outer := by
  generalize inside : names :: outer = sets
  fun_induction statement.declare sets generalizing names with
  | case1 name initializer sets =>
      subst inside
      exact ⟨_, rfl⟩
  | case2 | case3 | case4 => exact ⟨names, inside.symm⟩
  | case5 condition onTrue sets ih => exact ih names inside
  | case6 condition onTrue onFalse sets firstIh secondIh =>
      obtain ⟨more, taken⟩ := firstIh names inside
      exact secondIh more taken.symm
  | case7 condition body sets ih => exact ih names inside

theorem Stmt.declareAll_cons (statements : List Stmt) (names : Set String) (outer : NameSets) :
    ∃ more, Stmt.declareAll statements (names :: outer) = more :: outer := by
  induction statements generalizing names with
  | nil => exact ⟨names, rfl⟩
  | cons statement rest ih =>
      obtain ⟨more, first⟩ := statement.declare_cons names outer
      rw [Stmt.declareAll, first]
      exact ih more

namespace Semantics.Task.Mention

/-- Whether the resolver finds the name in a set when it comes to the mention. -/
def Resolved : {task : Task} → task.Mention → NameSets → Prop
  | _, expression mention, sets | _, print mention, sets | _, initializer _ mention, sets
  | _, choice _ _ mention, sets | _, test _ mention, sets =>
      sets.Has (Expr.Mention.name mention).lexeme
  | _, block mention, sets => mention.Resolved (∅ :: sets)
  | _, onTrue _ _ mention, sets | _, round _ mention, sets | _, head _ mention, sets =>
      mention.Resolved sets
  | _, onFalse _ before mention, sets => mention.Resolved (before.declare sets)
  | _, tail before mention, sets => mention.Resolved (before.declare sets)

end Semantics.Task.Mention

/-! ## Where declarations stand -/

def Stmt.IsVar : Stmt → Prop
  | .var _ _ => True
  | .expression _ | .print _ | .block _ | .branch _ _ _ | .loop _ _ => False

mutual

/-- No declaration stands directly under a branch or a loop. -/
def Stmt.Placed : Stmt → Prop
  | .expression _ | .print _ | .var _ _ => True
  | .block body => AllPlaced body
  | .branch _ onTrue none => onTrue.Placed ∧ ¬ onTrue.IsVar
  | .branch _ onTrue (some onFalse) =>
      (onTrue.Placed ∧ ¬ onTrue.IsVar) ∧ onFalse.Placed ∧ ¬ onFalse.IsVar
  | .loop _ body => body.Placed ∧ ¬ body.IsVar

def Stmt.AllPlaced : List Stmt → Prop
  | [] => True
  | statement :: rest => statement.Placed ∧ AllPlaced rest

end

theorem Stmt.allPlaced_iff {statements : List Stmt} :
    Stmt.AllPlaced statements ↔ ∀ statement ∈ statements, statement.Placed := by
  induction statements with
  | nil => simp [Stmt.AllPlaced]
  | cons statement rest ih => simp [Stmt.AllPlaced, ih]

/-- Only a declaration adds a name to the sets around it. -/
theorem Stmt.declare_eq (statement : Stmt) (placed : statement.Placed) (other : ¬ statement.IsVar)
    (sets : NameSets) : statement.declare sets = sets := by
  fun_induction statement.declare sets with
  | case1 => exact absurd trivial other
  | case2 | case3 | case4 => rfl
  | case5 condition onTrue sets ih => exact ih placed.1 placed.2
  | case6 condition onTrue onFalse sets firstIh secondIh =>
      rw [secondIh placed.2.1 placed.2.2, firstIh placed.1.1 placed.1.2]
  | case7 condition body sets ih => exact ih placed.1 placed.2

namespace Grammar

theorem ReadsVar.placed {tokens : List Token} {stmt : Stmt} {noted : List SyntaxError}
    (reads : ReadsVar tokens stmt noted) : stmt.Placed := by
  cases reads <;> trivial

theorem ReadsExprStmt.placed {tokens : List Token} {stmt : Stmt} {noted : List SyntaxError}
    (reads : ReadsExprStmt tokens stmt noted) : stmt.Placed ∧ ¬ stmt.IsVar := by
  cases reads
  exact ⟨trivial, id⟩

theorem withInitializer_placed {first : List Token} {initializer : Option Stmt}
    {condition : Expr} {increment : Option Expr} {round : Stmt} {noted : List SyntaxError}
    (initialized : ReadsInitializer first initializer noted)
    (repeated : round.Placed ∧ ¬ round.IsVar) :
    (withInitializer (.loop condition (withIncrement round increment)) initializer).Placed ∧
      ¬ (withInitializer (.loop condition (withIncrement round increment)) initializer).IsVar := by
  have body : (withIncrement round increment).Placed ∧
      ¬ (withIncrement round increment).IsVar := by
    cases increment with
    | none => exact repeated
    | some expr => exact ⟨⟨repeated.1, trivial, trivial⟩, id⟩
  cases initialized with
  | absent => exact ⟨body, id⟩
  | var declares => exact ⟨⟨declares.placed, body, trivial⟩, id⟩
  | expression evaluates => exact ⟨⟨evaluates.placed.1, body, trivial⟩, id⟩

theorem ReadsStmt.placed {role : Role} {tokens : List Token} {stmt : Stmt}
    {noted : List SyntaxError} (reads : ReadsStmt role tokens stmt noted) :
    stmt.Placed ∧ (role ≠ .declaration → ¬ stmt.IsVar) := by
  induction reads with
  | var declares => exact ⟨declares.placed, fun other => absurd rfl other⟩
  | statement _ ih => exact ⟨ih.1, fun other => absurd rfl other⟩
  | expression evaluates => exact ⟨evaluates.placed.1, fun _ => evaluates.placed.2⟩
  | print => exact ⟨trivial, fun _ => id⟩
  | block _ _ _ ih =>
      refine ⟨Stmt.allPlaced_iff.mpr fun statement member => ?_, fun _ => id⟩
      obtain ⟨part, inside, rfl⟩ := List.mem_map.mp member
      exact (ih part inside).1
  | ifOnly _ _ _ _ _ ih => exact ⟨⟨ih.1, ih.2 Role.noConfusion⟩, fun _ => id⟩
  | ifElse _ _ _ _ _ _ _ takenIh refusedIh =>
      exact ⟨⟨⟨takenIh.1, takenIh.2 Role.noConfusion⟩, refusedIh.1,
        refusedIh.2 Role.noConfusion⟩, fun _ => id⟩
  | whileLoop _ _ _ _ _ ih => exact ⟨⟨ih.1, ih.2 Role.noConfusion⟩, fun _ => id⟩
  | forLoop _ _ initialized _ _ _ _ _ ih =>
      obtain ⟨placed, other⟩ :=
        withInitializer_placed initialized ⟨ih.1, ih.2 Role.noConfusion⟩
      exact ⟨placed, fun _ => other⟩

end Grammar

theorem Parsed.allPlaced (tokens : List Token) :
    Stmt.AllPlaced (Parsed.ofTokens tokens).statements := by
  refine Stmt.allPlaced_iff.mpr fun statement member => ?_
  obtain ⟨read, noted, -, reads⟩ := Parsed.trees_ofTokens tokens member
  exact reads.placed.1

/-! ## Domains -/

namespace Semantics

def Names.domain (names : Names) : Set String := {name | names name ≠ none}

/-- The domains of all maps, the innermost one first. -/
def Chain.domains : Chain → NameSets
  | .outermost names => [names.domain]
  | .inside names outer => names.domain :: outer.domains

theorem Names.domain_empty : Names.empty.domain = ∅ :=
  Set.eq_empty_iff_forall_notMem.mpr fun _ bound => bound rfl

theorem Names.domain_set (names : Names) (name : String) (value : Value) :
    (names.set name value).domain = insert name names.domain := by
  ext other
  simp only [domain, set, Set.mem_ofPred_eq, Set.mem_insert_iff]
  split
  · next same => simp [same]
  · next different => simp [different]

theorem Names.domain_set_of_bound {names : Names} {name : String} {old : Value}
    (bound : names name = some old) (value : Value) :
    (names.set name value).domain = names.domain := by
  rw [domain_set]
  refine Set.insert_eq_of_mem ?_
  simp [domain, bound]

namespace Chain

theorem domains_define (chain : Chain) (name : String) (value : Value) :
    (chain.define name value).domains = chain.domains.add name := by
  cases chain <;> simp only [define, domains, NameSets.add, Names.domain_set]

theorem domains_assign? {chain after : Chain} {name : String} {value : Value}
    (assigned : chain.assign? name value = some after) : after.domains = chain.domains := by
  induction chain generalizing after with
  | outermost names =>
      obtain ⟨old, bound, rfl⟩ := Option.map_eq_some_iff.mp assigned
      simp only [domains, Names.domain_set_of_bound bound]
  | inside names outer ih =>
      cases bound : names name with
      | some old =>
          simp only [assign?, bound, Option.some.injEq] at assigned
          rw [← assigned]
          simp only [domains, Names.domain_set_of_bound bound]
      | none =>
          simp only [assign?, bound] at assigned
          obtain ⟨changed, further, rfl⟩ := Option.map_eq_some_iff.mp assigned
          simp only [domains, ih further]

theorem domains_ne_nil (chain : Chain) : chain.domains ≠ [] := by
  cases chain <;> exact List.cons_ne_nil _ _

theorem lookup_ne_none_iff (chain : Chain) (name : String) :
    chain.lookup name ≠ none ↔ chain.domains.Has name := by
  induction chain with
  | outermost names => simp [lookup, domains, NameSets.Has, Names.domain]
  | inside names outer ih =>
      have unfolded : (inside names outer).domains.Has name ↔
          name ∈ names.domain ∨ outer.domains.Has name := by
        simp [domains, NameSets.Has]
      rw [unfolded, ← ih]
      cases bound : names name with
      | none => simp [lookup, Names.domain, bound]
      | some value => simp [lookup, Names.domain, bound]

end Chain

end Semantics

end TreeWalk
