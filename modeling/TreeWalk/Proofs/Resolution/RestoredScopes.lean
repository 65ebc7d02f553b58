import TreeWalk.Proofs.Execution.Keeping
import TreeWalk.Proofs.Execution.ScopeStack
import TreeWalk.Proofs.Resolution.Resolver

/-!
# Scopes behind a run

A run drops every scope that it has opened, also when it ends with a fault in the middle of nested
blocks and loops.  What is left are the scopes of the start.  Only the current one may bind more
names than before: those that the program declares outside of its blocks.
-/

set_option autoImplicit false

namespace TreeWalk

open Semantics (Chain Names)
open Stateful (Keeps left)

namespace Environment

/-! ## The names of each scope -/

/-- The names that the scope at a place binds. -/
def boundAt (environment : Environment) (place : Nat) : Set String :=
  (environment.namesAt place).domain

theorem boundAt_congr {one other : Environment} {place : Nat}
    (same : one.scopes[place]? = other.scopes[place]?) :
    one.boundAt place = other.boundAt place := by
  unfold boundAt namesAt
  rw [same]

theorem lt_size_of_mem_boundAt {environment : Environment} {place : Nat} {name : String}
    (bound : name ∈ environment.boundAt place) : place < environment.scopes.size := by
  by_cases inside : place < environment.scopes.size
  · exact inside
  · have nothing : environment.scopes[place]? = none := Array.getElem?_eq_none (by omega)
    exact absurd (by simp [namesAt, nothing]) bound

theorem boundAt_bindAt_self {environment : Environment} {place : Nat}
    (inside : place < environment.scopes.size) (name : String) (value : Value) :
    (environment.bindAt place name value).boundAt place =
      insert name (environment.boundAt place) := by
  unfold boundAt
  rw [namesAt_bindAt_self inside, Names.domain_set]

theorem boundAt_bindAt_of_ne (environment : Environment) {place other : Nat}
    (different : place ≠ other) (name : String) (value : Value) :
    (environment.bindAt place name value).boundAt other = environment.boundAt other := by
  unfold boundAt
  rw [namesAt_bindAt_of_ne environment different]

theorem mem_boundAt_of_resolveFrom {environment : Environment} {name : String}
    {count start place : Nat} {value : Value}
    (found : environment.resolveFrom name count start = some (place, value)) :
    name ∈ environment.boundAt place := by
  induction count generalizing start with
  | zero => cases found
  | succ count ih =>
      unfold resolveFrom at found
      split at found
      · cases found
      · next scope here =>
          split at found
          · next bound =>
              cases found
              have known : environment.namesAt place name = some value := by
                simp [namesAt, here, bound]
              exact fun free => Option.some_ne_none value (known.symm.trans free)
          · obtain ⟨outer, -, further⟩ := Option.bind_eq_some_iff.mp found
            exact ih further

theorem has_domains_chainFrom (environment : Environment) (start : Nat) (name : String) :
    (environment.chainFrom start).domains.Has name ↔
      ∃ place, place ≤ start ∧ name ∈ environment.boundAt place := by
  induction start with
  | zero => simp [chainFrom, Chain.domains, NameSets.Has, boundAt]
  | succ start ih =>
      have step : (environment.chainFrom (start + 1)).domains.Has name ↔
          name ∈ environment.boundAt (start + 1) ∨
            (environment.chainFrom start).domains.Has name := by
        simp [chainFrom, Chain.domains, NameSets.Has, boundAt]
      rw [step, ih]
      constructor
      · rintro (here | ⟨place, within, bound⟩)
        · exact ⟨start + 1, Nat.le_refl _, here⟩
        · exact ⟨place, Nat.le_succ_of_le within, bound⟩
      · rintro ⟨place, within, bound⟩
        rcases Nat.le_or_eq_of_le_succ within with further | rfl
        · exact Or.inr ⟨place, further, bound⟩
        · exact Or.inl bound

theorem isDefined_iff {environment : Environment} (formed : environment.WellFormed)
    (name : String) :
    environment.isDefined name = true ↔
      ∃ place, place ≤ environment.current ∧ name ∈ environment.boundAt place := by
  rw [isDefined_eq_lookup formed, Option.isSome_iff_ne_none, Chain.lookup_ne_none_iff]
  exact environment.has_domains_chainFrom environment.current name

/-! ## Environments with the same scopes -/

/-- The scopes and their nesting are the same, and so are the names of all scopes but the current
one, which may have some of `names` besides its own. -/
structure Grows (names : Set String) (before after : Environment) : Prop where
  depth : after.depth = before.depth
  current : after.current = before.current
  enclosing : ∀ place : Nat, after.scopes[place]?.map Scope.enclosing =
    before.scopes[place]?.map Scope.enclosing
  elsewhere : ∀ place, place ≠ before.current → after.boundAt place = before.boundAt place
  kept : before.boundAt before.current ⊆ after.boundAt before.current
  added : after.boundAt before.current ⊆ before.boundAt before.current ∪ names

variable {names : Set String} {first second third : Environment}

theorem Grows.refl (names : Set String) (environment : Environment) :
    environment.Grows names environment :=
  ⟨rfl, rfl, fun _ => rfl, fun _ _ => rfl, subset_rfl, Set.subset_union_left⟩

theorem Grows.trans (early : first.Grows names second) (late : second.Grows names third) :
    first.Grows names third := by
  have kept := late.kept
  have added := late.added
  rw [early.current] at kept added
  refine ⟨late.depth.trans early.depth, late.current.trans early.current,
    fun place => (late.enclosing place).trans (early.enclosing place), fun place other => ?_,
    early.kept.trans kept, ?_⟩
  · rw [← early.elsewhere place other]
    exact late.elsewhere place (early.current ▸ other)
  · calc third.boundAt first.current
        ⊆ second.boundAt first.current ∪ names := added
      _ ⊆ (first.boundAt first.current ∪ names) ∪ names :=
          Set.union_subset_union_left names early.added
      _ = first.boundAt first.current ∪ names := by rw [Set.union_assoc, Set.union_self]

theorem Grows.mono {more : Set String} (grows : first.Grows names second) (within : names ⊆ more) :
    first.Grows more second :=
  { grows with added := grows.added.trans (Set.union_subset_union_right _ within) }

theorem Grows.formed (grows : first.Grows names second) (formed : first.WellFormed) :
    second.WellFormed := by
  have size : second.scopes.size = first.scopes.size := grows.depth
  refine ⟨?_, ?_, fun place inside => ?_⟩
  · rw [grows.current, size]
    exact formed.current
  · rw [grows.enclosing]
    exact formed.global
  · rw [grows.enclosing]
    exact formed.nested place (size ▸ inside)

theorem grows_bindAt {environment : Environment} {place : Nat} {name : String} (value : Value)
    (inside : place < environment.scopes.size)
    (known : name ∈ environment.boundAt place ∨ place = environment.current ∧ name ∈ names) :
    environment.Grows names (environment.bindAt place name value) := by
  have depth : (environment.bindAt place name value).depth = environment.depth :=
    size_bindAt environment place name value
  have enclosing (other : Nat) := enclosing_bindAt environment place other name value
  have self := boundAt_bindAt_self inside name value
  refine ⟨depth, rfl, enclosing, fun other different => ?_, ?_, ?_⟩
  · by_cases same : place = other
    · subst same
      rcases known with bound | ⟨rfl, -⟩
      · rw [self, Set.insert_eq_of_mem bound]
      · exact absurd rfl different
    · exact boundAt_bindAt_of_ne environment same name value
  · by_cases same : place = environment.current
    · rw [← same, self]
      exact Set.subset_insert _ _
    · rw [boundAt_bindAt_of_ne environment same]
  · by_cases same : place = environment.current
    · rw [← same, self]
      refine Set.insert_subset ?_ Set.subset_union_left
      exact known.imp id And.right
    · rw [boundAt_bindAt_of_ne environment same]
      exact Set.subset_union_left

theorem grows_define {environment : Environment} (formed : environment.WellFormed) {name : String}
    (value : Value) (allowed : name ∈ names) :
    environment.Grows names (environment.define name value) := by
  have current := formed.current
  exact grows_bindAt value (by omega) (Or.inr ⟨rfl, allowed⟩)

theorem grows_assign? {environment changed : Environment} {name : String} {value : Value}
    (assigned : environment.assign? name value = some changed) :
    environment.Grows names changed := by
  obtain ⟨⟨place, old⟩, found, rfl⟩ := Option.map_eq_some_iff.mp assigned
  have bound := mem_boundAt_of_resolveFrom found
  exact grows_bindAt value (lt_size_of_mem_boundAt bound) (Or.inl bound)

/-- A scope that was opened is dropped with all its names, and the scopes around it are as they
were. -/
theorem Grows.around (formed : first.WellFormed) (grows : first.push.Grows names second) :
    first.Grows ∅ second.pop := by
  have current := formed.current
  have size : second.scopes.size = first.scopes.size + 1 :=
    grows.depth.trans (by simp [Environment.depth, push])
  have place : second.current = first.current + 1 := grows.current.trans current.symm
  have popped := pop_eq (grows.formed formed.push) place
  have below {other : Nat} (within : other < first.scopes.size) :
      second.pop.scopes[other]? = second.scopes[other]? := by
    rw [popped]
    exact getElem?_pop second (by omega)
  have above {other : Nat} (beyond : ¬ other < first.scopes.size) :
      second.pop.scopes[other]? = first.scopes[other]? := by
    rw [popped, Array.getElem?_eq_none (by rw [Array.size_pop]; omega),
      Array.getElem?_eq_none (by omega)]
  have same (other : Nat) : second.pop.boundAt other = first.boundAt other := by
    by_cases within : other < first.scopes.size
    · calc second.pop.boundAt other
          = second.boundAt other := boundAt_congr (below within)
        _ = first.push.boundAt other := grows.elsewhere other (Nat.ne_of_lt within)
        _ = first.boundAt other := boundAt_congr (getElem?_push first within)
    · exact boundAt_congr (above within)
  refine ⟨?_, ?_, fun other => ?_, fun other _ => same other, (same _).ge, ?_⟩
  · rw [popped]
    simp [Environment.depth, size]
  · rw [popped]
  · by_cases within : other < first.scopes.size
    · rw [below within, grows.enclosing, getElem?_push first within]
    · rw [above within]
  · rw [same, Set.union_empty]

/-- Starting from a well-formed environment the scopes are kept. -/
def Restores (names : Set String) (before after : Environment) : Prop :=
  before.WellFormed → before.Grows names after

instance (names : Set String) : IsPreorder Environment (Restores names) where
  refl environment _ := .refl names environment
  trans _ _ _ early late formed := (early formed).trans (late ((early formed).formed formed))

end Environment

open Environment (Grows Restores)

/-! ## Runs -/

theorem Expr.evaluate_restores (names : Set String) (expr : Expr) :
    Keeps (Restores names) expr.evaluate :=
  expr.evaluate_keeps fun _ _ _ _ _ assigned _ => Environment.grows_assign? assigned

theorem upheld_restores : Upheld fun names before after =>
    before.environment.Restores names after.environment where
  preorder names :=
    { refl := fun machine => refl_of (Restores names) machine.environment
      trans := fun _ _ _ early late => trans_of (Restores names) early late }
  evaluate names expr machine := by
    have evaluated := expr.evaluate_restores names machine.environment
    unfold left at evaluated ⊢
    unfold Execution.evaluate
    cases run : expr.evaluate machine.environment <;> rw [run] at evaluated <;> exact evaluated
  write names text blamed machine := by
    unfold left Execution.write
    cases machine.sink.write text with
    | mk refusal sink => cases refusal <;> exact refl_of (Restores names) machine.environment
  define names name value allowed machine := fun formed =>
    Environment.grows_define formed value allowed
  note names event machine := refl_of (Restores names) machine.environment
  inScope names machine after inner formed :=
    ((inner formed.push).around formed).mono (Set.empty_subset names)

/-- Statements that declare names in a scope of their own. -/
inductive Stmt.Enclosed : Stmt → Prop where
  | block (body : List Stmt) : Enclosed (.block body)
  | forLoop (keyword : Token) (first : Stmt) (condition increment : Option Expr) (body : Stmt) :
      Enclosed (Rule.forLoop keyword (some first) condition increment body)

theorem Stmt.Enclosed.declared_eq_nil {statement : Stmt} (enclosed : statement.Enclosed) :
    statement.declared = [] := by
  cases enclosed <;> rfl

/-- However a run ends, the scopes are those of its start.  The current one has kept its names and
may have gained names that the program declares outside of its blocks; no other name becomes
visible or ceases to be. -/
theorem Machine.Ends.restores_scopes {program : List Stmt} {machine left : Machine}
    {result : Option Fault} (formed : machine.environment.WellFormed)
    (ends : machine.Ends program result left) :
    machine.environment.Grows {name | name ∈ Stmt.allDeclared program} left.environment ∧
      (∀ name, name ∉ Stmt.allDeclared program →
        left.environment.isDefined name = machine.environment.isDefined name) ∧
      ((∀ statement ∈ program, statement.Enclosed) →
        ∀ name, left.environment.isDefined name = machine.environment.isDefined name) := by
  have grows := ends.related upheld_restores formed
  have visible (name : String) (other : name ∉ Stmt.allDeclared program) :
      left.environment.isDefined name = machine.environment.isDefined name := by
    rw [Bool.eq_iff_iff, Environment.isDefined_iff (grows.formed formed),
      Environment.isDefined_iff formed, grows.current]
    refine exists_congr fun place => and_congr_right fun _ => ?_
    by_cases here : place = machine.environment.current
    · subst here
      exact ⟨fun bound => (grows.added bound).resolve_right other, fun bound => grows.kept bound⟩
    · rw [grows.elsewhere place here]
  refine ⟨grows, visible, fun enclosed name => visible name fun member => ?_⟩
  obtain ⟨statement, inside, declared⟩ := List.mem_flatMap.mp member
  rw [(enclosed statement inside).declared_eq_nil] at declared
  cases declared

/-- An undefined variable ends a run in the body of a loop in a block, with four scopes open. -/
theorem Machine.Ends.restores_scopes_undefined :
    Environment.empty.push.WellFormed ∧
      ∃ left, (Machine.mk Environment.empty.push .unfailing []).Ends
          (Parsed.ofTokens (Scan.ofSource "var a; { for (var b;;) c; }").tokens).statements
          (some ⟨.undefinedVariable "c", ⟨.identifier, "c", none, 1, ⟨23, 24⟩⟩⟩) left ∧
        Environment.empty.push.Grows {"a"} left.environment ∧
        ∀ name ≠ "a", left.environment.isDefined name = Environment.empty.push.isDefined name := by
  have formed := Environment.wellFormed_empty.push
  have parsed : (Parsed.ofTokens (Scan.ofSource "var a; { for (var b;;) c; }").tokens).statements =
      [.var ⟨.identifier, "a", none, 1, ⟨4, 5⟩⟩ none,
        .block [.block [.var ⟨.identifier, "b", none, 1, ⟨18, 19⟩⟩ none,
          .loop (.literal (.boolean true) ⟨9, 12⟩)
            (.expression (.reference ⟨.identifier, "c", none, 1, ⟨23, 24⟩⟩))]]] := rfl
  rw [parsed]
  obtain ⟨left, ends⟩ : ∃ left, (Machine.mk Environment.empty.push .unfailing []).Ends
      [.var ⟨.identifier, "a", none, 1, ⟨4, 5⟩⟩ none,
        .block [.block [.var ⟨.identifier, "b", none, 1, ⟨18, 19⟩⟩ none,
          .loop (.literal (.boolean true) ⟨9, 12⟩)
            (.expression (.reference ⟨.identifier, "c", none, 1, ⟨23, 24⟩⟩))]]]
      (some ⟨.undefinedVariable "c", ⟨.identifier, "c", none, 1, ⟨23, 24⟩⟩⟩) left :=
    ⟨_, 1, rfl⟩
  obtain ⟨grows, visible, -⟩ := Machine.Ends.restores_scopes formed ends
  refine ⟨formed, left, ends, grows.mono fun name member => ?_, fun name other => ?_⟩
  · exact List.mem_singleton.mp member
  · exact visible name fun member => other (List.mem_singleton.mp member)

end TreeWalk
