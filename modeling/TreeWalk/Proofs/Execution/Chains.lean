import TreeWalk.Environment
import TreeWalk.Proofs.Execution.Semantics

/-!
# Environments as chains

The scopes of a well-formed environment lie in the order in which they were opened, each inside
the one before it, and the last one is current.  Such an environment stands for a chain of maps,
and its operations are those of the chain.
-/

set_option autoImplicit false

namespace TreeWalk.Environment

open Semantics (Chain Names)

structure WellFormed (environment : Environment) : Prop where
  current : environment.current + 1 = environment.scopes.size
  /-- The global scope is around all others. -/
  global : environment.scopes[0]?.map Scope.enclosing = some none
  nested : ∀ place, place + 1 < environment.scopes.size →
    environment.scopes[place + 1]?.map Scope.enclosing = some (some place)

/-- The names that the scope at a place binds. -/
def namesAt (environment : Environment) (place : Nat) : Names :=
  fun name => environment.scopes[place]?.bind fun scope => scope.bindings.lookup name

/-- The chain from the scope at a place outward. -/
def chainFrom (environment : Environment) : Nat → Chain
  | 0 => .outermost (environment.namesAt 0)
  | place + 1 => .inside (environment.namesAt (place + 1)) (environment.chainFrom place)

def chain (environment : Environment) : Chain := environment.chainFrom environment.current

theorem wellFormed_empty : empty.WellFormed := by
  refine ⟨rfl, rfl, ?_⟩
  intro place inside
  simp [empty] at inside

/-! ## One binding changed -/

theorem size_bindAt (environment : Environment) (place : Nat) (name : String) (value : Value) :
    (environment.bindAt place name value).scopes.size = environment.scopes.size := by
  simp [bindAt]

theorem getElem?_bindAt (environment : Environment) (place other : Nat) (name : String)
    (value : Value) :
    (environment.bindAt place name value).scopes[other]? =
      environment.scopes[other]?.map fun scope =>
        if place = other then { scope with bindings := scope.bindings.insert name value }
        else scope := by
  unfold bindAt
  rw [Array.getElem?_modify]
  split
  · rfl
  · simp

theorem enclosing_bindAt (environment : Environment) (place other : Nat) (name : String)
    (value : Value) :
    (environment.bindAt place name value).scopes[other]?.map Scope.enclosing =
      environment.scopes[other]?.map Scope.enclosing := by
  rw [getElem?_bindAt, Option.map_map]
  congr 1
  funext scope
  simp only [Function.comp_apply]
  split <;> rfl

theorem WellFormed.bindAt {environment : Environment} (formed : environment.WellFormed)
    (place : Nat) (name : String) (value : Value) :
    (environment.bindAt place name value).WellFormed := by
  refine ⟨?_, ?_, ?_⟩
  · rw [size_bindAt]
    exact formed.current
  · rw [enclosing_bindAt]
    exact formed.global
  · intro other inside
    rw [size_bindAt] at inside
    rw [enclosing_bindAt]
    exact formed.nested other inside

theorem namesAt_bindAt_self {environment : Environment} {place : Nat}
    (inside : place < environment.scopes.size) (name : String) (value : Value) :
    (environment.bindAt place name value).namesAt place =
      (environment.namesAt place).set name value := by
  funext other
  unfold namesAt Names.set
  rw [getElem?_bindAt, Array.getElem?_eq_getElem inside]
  by_cases same : other = name
  · simp [same, Bindings.lookup_insert_self]
  · simp [same, Bindings.lookup_insert_of_ne]

theorem namesAt_bindAt_of_ne (environment : Environment) {place other : Nat}
    (different : place ≠ other) (name : String) (value : Value) :
    (environment.bindAt place name value).namesAt other = environment.namesAt other := by
  funext wanted
  unfold namesAt
  rw [getElem?_bindAt]
  simp [different]

theorem chainFrom_bindAt_of_lt (environment : Environment) {place start : Nat}
    (further : start < place) (name : String) (value : Value) :
    (environment.bindAt place name value).chainFrom start = environment.chainFrom start := by
  induction start with
  | zero =>
      unfold chainFrom
      rw [namesAt_bindAt_of_ne environment (by omega)]
  | succ outer ih =>
      unfold chainFrom
      rw [namesAt_bindAt_of_ne environment (by omega), ih (by omega)]

theorem chainFrom_bindAt_self {environment : Environment} {place : Nat}
    (inside : place < environment.scopes.size) (name : String) (value : Value) :
    (environment.bindAt place name value).chainFrom place =
      (environment.chainFrom place).define name value := by
  cases place with
  | zero => simp only [chainFrom, Chain.define, namesAt_bindAt_self inside]
  | succ outer =>
      simp only [chainFrom, Chain.define, namesAt_bindAt_self inside]
      rw [chainFrom_bindAt_of_lt environment (Nat.lt_succ_self outer)]

theorem WellFormed.define {environment : Environment} (formed : environment.WellFormed)
    (name : String) (value : Value) : (environment.define name value).WellFormed :=
  formed.bindAt environment.current name value

theorem chain_define {environment : Environment} (formed : environment.WellFormed) (name : String)
    (value : Value) :
    (environment.define name value).chain = environment.chain.define name value := by
  have current := formed.current
  exact chainFrom_bindAt_self (by omega) name value

/-! ## Looking for a name -/

theorem resolveFrom_succ {environment : Environment} {place : Nat}
    (inside : place < environment.scopes.size) (name : String) (count : Nat) :
    environment.resolveFrom name (count + 1) place =
      match environment.namesAt place name with
      | some value => some (place, value)
      | none => environment.scopes[place].enclosing.bind (environment.resolveFrom name count) := by
  unfold namesAt
  rw [resolveFrom, Array.getElem?_eq_getElem inside]
  rfl

theorem WellFormed.enclosing_zero {environment : Environment} (formed : environment.WellFormed)
    (inside : 0 < environment.scopes.size) : environment.scopes[0].enclosing = none := by
  have global := formed.global
  rw [Array.getElem?_eq_getElem inside] at global
  exact Option.some.inj global

theorem WellFormed.enclosing_succ {environment : Environment} (formed : environment.WellFormed)
    {place : Nat} (inside : place + 1 < environment.scopes.size) :
    environment.scopes[place + 1].enclosing = some place := by
  have nested := formed.nested place inside
  rw [Array.getElem?_eq_getElem inside] at nested
  exact Option.some.inj nested

theorem resolveFrom_spec {environment : Environment} (formed : environment.WellFormed)
    (name : String) {place count : Nat} (inside : place < environment.scopes.size)
    (enough : place < count) :
    match environment.resolveFrom name count place with
    | none => (environment.chainFrom place).lookup name = none ∧
        ∀ value, (environment.chainFrom place).assign? name value = none
    | some (found, old) => found ≤ place ∧ (environment.chainFrom place).lookup name = some old ∧
        ∀ value, (environment.chainFrom place).assign? name value =
          some ((environment.bindAt found name value).chainFrom place) := by
  induction place generalizing count with
  | zero =>
      cases count with
      | zero => omega
      | succ count =>
          rw [resolveFrom_succ inside, formed.enclosing_zero inside]
          cases bound : environment.namesAt 0 name with
          | none => simp [chainFrom, Chain.lookup, Chain.assign?, bound]
          | some old =>
              simp [chainFrom, Chain.lookup, Chain.assign?, bound, namesAt_bindAt_self inside]
  | succ place ih =>
      cases count with
      | zero => omega
      | succ count =>
          rw [resolveFrom_succ inside, formed.enclosing_succ inside]
          cases bound : environment.namesAt (place + 1) name with
          | some old =>
              refine ⟨Nat.le_refl _, ?_, fun value => ?_⟩
              · simp [chainFrom, Chain.lookup, bound]
              · rw [chainFrom_bindAt_self inside]
                simp [chainFrom, Chain.assign?, Chain.define, bound]
          | none =>
              have outward := ih (show place < environment.scopes.size by omega)
                (show place < count by omega)
              simp only [Option.bind_some]
              cases found : environment.resolveFrom name count place with
              | none =>
                  rw [found] at outward
                  obtain ⟨looked, assigned⟩ := outward
                  refine ⟨?_, fun value => ?_⟩
                  · simp [chainFrom, Chain.lookup, bound, looked]
                  · simp [chainFrom, Chain.assign?, bound, assigned]
              | some result =>
                  obtain ⟨nearest, old⟩ := result
                  rw [found] at outward
                  obtain ⟨within, looked, assigned⟩ := outward
                  refine ⟨by omega, ?_, fun value => ?_⟩
                  · simp [chainFrom, Chain.lookup, bound, looked]
                  · simp only [chainFrom, Chain.assign?, bound, assigned, Option.map_some]
                    rw [namesAt_bindAt_of_ne environment (by omega)]

theorem get?_eq_lookup {environment : Environment} (formed : environment.WellFormed)
    (name : String) : environment.get? name = environment.chain.lookup name := by
  have current := formed.current
  have search := resolveFrom_spec formed name
    (show environment.current < environment.scopes.size by omega)
    (show environment.current < environment.scopes.size by omega)
  unfold get? resolve chain
  cases found : environment.resolveFrom name environment.scopes.size environment.current with
  | none =>
      rw [found] at search
      exact search.1.symm
  | some result =>
      obtain ⟨nearest, old⟩ := result
      rw [found] at search
      exact search.2.1.symm

theorem assign?_spec {environment : Environment} (formed : environment.WellFormed) (name : String)
    (value : Value) :
    (environment.assign? name value).map chain = environment.chain.assign? name value ∧
      ∀ changed, environment.assign? name value = some changed → changed.WellFormed := by
  have current := formed.current
  have search := resolveFrom_spec formed name
    (show environment.current < environment.scopes.size by omega)
    (show environment.current < environment.scopes.size by omega)
  unfold assign? resolve
  cases found : environment.resolveFrom name environment.scopes.size environment.current with
  | none =>
      rw [found] at search
      exact ⟨(search.2 value).symm, by simp⟩
  | some result =>
      obtain ⟨nearest, old⟩ := result
      rw [found] at search
      refine ⟨(search.2.2 value).symm, ?_⟩
      rintro changed ⟨⟩
      exact formed.bindAt nearest name value

/-! ## Scopes opened and closed -/

theorem getElem?_push (environment : Environment) {place : Nat}
    (inside : place < environment.scopes.size) :
    environment.push.scopes[place]? = environment.scopes[place]? := by
  unfold push
  rw [Array.getElem?_push_lt inside, Array.getElem?_eq_getElem inside]

theorem chainFrom_congr {left right : Environment} {place : Nat}
    (agree : ∀ other, other ≤ place → left.scopes[other]? = right.scopes[other]?) :
    left.chainFrom place = right.chainFrom place := by
  have names (other : Nat) (within : other ≤ place) :
      left.namesAt other = right.namesAt other := by
    funext name
    unfold namesAt
    rw [agree other within]
  induction place with
  | zero =>
      unfold chainFrom
      rw [names 0 (Nat.le_refl 0)]
  | succ place ih =>
      unfold chainFrom
      rw [names (place + 1) (Nat.le_refl _),
        ih (fun other within => agree other (by omega)) fun other within => names other (by omega)]

theorem WellFormed.push {environment : Environment} (formed : environment.WellFormed) :
    environment.push.WellFormed := by
  have current := formed.current
  have size : environment.push.scopes.size = environment.scopes.size + 1 := by
    simp [Environment.push]
  refine ⟨size.symm, ?_, ?_⟩
  · rw [getElem?_push environment (by omega)]
    exact formed.global
  · intro place inside
    rw [size] at inside
    by_cases old : place + 1 < environment.scopes.size
    · rw [getElem?_push environment old]
      exact formed.nested place old
    · have last : place + 1 = environment.scopes.size := by omega
      have same : environment.current = place := by omega
      simp [Environment.push, last, same]

theorem chain_push {environment : Environment} (formed : environment.WellFormed) :
    environment.push.chain = .inside .empty environment.chain := by
  have current := formed.current
  have place : environment.push.current = environment.current + 1 := current.symm
  have names : environment.push.namesAt (environment.current + 1) = .empty := by
    funext name
    simp [namesAt, push, current, Names.empty]
  unfold chain
  rw [place, chainFrom, names]
  congr 1
  exact chainFrom_congr fun other within => getElem?_push environment (by omega)

/-- An inner scope is the last one and lies in the one before it. -/
theorem pop_eq {environment : Environment} (formed : environment.WellFormed) {below : Nat}
    (place : environment.current = below + 1) :
    environment.pop = { scopes := environment.scopes.pop, current := below } := by
  have current := formed.current
  rw [place] at current
  have around := formed.enclosing_succ (show below + 1 < environment.scopes.size by omega)
  have last : environment.scopes.back? = some environment.scopes[below + 1] := by
    rw [Array.back?_eq_getElem?, show environment.scopes.size - 1 = below + 1 by omega,
      Array.getElem?_eq_getElem (by omega)]
  unfold pop
  rw [if_neg (by omega), last]
  simp [around]

theorem getElem?_pop (environment : Environment) {place : Nat}
    (inside : place + 1 < environment.scopes.size) :
    environment.scopes.pop[place]? = environment.scopes[place]? := by
  rw [Array.getElem?_pop, if_pos (by omega)]

theorem pop_spec {environment : Environment} (formed : environment.WellFormed) {names : Names}
    {outer : Chain} (inner : environment.chain = .inside names outer) :
    environment.pop.WellFormed ∧ environment.pop.chain = outer := by
  have current := formed.current
  cases place : environment.current with
  | zero => simp [chain, place, chainFrom] at inner
  | succ below =>
      rw [place] at current
      have kept (other : Nat) (within : other ≤ below) :=
        getElem?_pop environment (show other + 1 < environment.scopes.size by omega)
      rw [pop_eq formed place]
      refine ⟨⟨?_, ?_, ?_⟩, ?_⟩
      · rw [Array.size_pop]
        exact (by omega : below + 1 = environment.scopes.size - 1)
      · exact (congrArg _ (kept 0 (Nat.zero_le _))).trans formed.global
      · intro other inside
        rw [Array.size_pop] at inside
        exact (congrArg _ (kept (other + 1) (by omega))).trans (formed.nested other (by omega))
      · unfold chain at inner ⊢
        rw [place, chainFrom] at inner
        rw [← (Chain.inside.inj inner).2]
        exact chainFrom_congr kept

theorem WellFormed.pop {environment : Environment} (formed : environment.WellFormed) :
    environment.pop.WellFormed := by
  cases place : environment.current with
  | zero =>
      have current := formed.current
      have stays : environment.pop = environment := by
        unfold Environment.pop
        rw [if_pos (by omega)]
      rw [stays]
      exact formed
  | succ below =>
      have inner : environment.chain =
          .inside (environment.namesAt (below + 1)) (environment.chainFrom below) := by
        rw [chain, place, chainFrom]
      exact (pop_spec formed inner).1

end TreeWalk.Environment
