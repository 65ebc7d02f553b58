import Mathlib.Order.Defs.Unbundled

/-!
# Runs of composed actions

The rules of the parser and the actions of the interpreter change a state and may fail.  A run of
two actions is a run of the first one and, if it succeeds, of the second one behind it.
-/

set_option autoImplicit false

namespace TreeWalk.Stateful

variable {ε σ α β : Type} {before middle after : σ}

theorem bind_eq_ok {first : EStateM ε σ α} {next : α → EStateM ε σ β} {result : β} :
    (first >>= next) before = .ok result after ↔
      ∃ value middle, first before = .ok value middle ∧ next value middle = .ok result after := by
  simp only [bind, EStateM.bind]
  constructor
  · intro run
    cases stage : first before with
    | ok value middle => exact ⟨value, middle, rfl, by simpa only [stage] using run⟩
    | error failure middle => simp [stage] at run
  · rintro ⟨value, middle, stage, run⟩
    rw [stage]
    exact run

theorem bind_of_ok {first : EStateM ε σ α} (next : α → EStateM ε σ β) {value : α}
    (run : first before = .ok value middle) : (first >>= next) before = next value middle := by
  simp only [bind, EStateM.bind, run]

theorem bind_of_error {first : EStateM ε σ α} (next : α → EStateM ε σ β) {failure : ε}
    (run : first before = .error failure middle) :
    (first >>= next) before = .error failure middle := by
  simp only [bind, EStateM.bind, run]

theorem bind_eq_error {first : EStateM ε σ α} {next : α → EStateM ε σ β} {failure : ε} :
    (first >>= next) before = .error failure after ↔
      first before = .error failure after ∨
        ∃ value middle, first before = .ok value middle ∧
          next value middle = .error failure after := by
  simp only [bind, EStateM.bind]
  constructor
  · intro run
    cases stage : first before with
    | ok value middle => exact Or.inr ⟨value, middle, rfl, by simpa only [stage] using run⟩
    | error other middle =>
        rw [stage] at run
        cases run
        exact Or.inl rfl
  · rintro (stage | ⟨value, middle, stage, run⟩)
    · rw [stage]
    · rw [stage]
      exact run

theorem map_eq_ok {action : EStateM ε σ α} {change : α → β} {result : β} :
    (change <$> action) before = .ok result after ↔
      ∃ value, action before = .ok value after ∧ change value = result := by
  simp only [Functor.map, EStateM.map]
  constructor
  · intro run
    cases stage : action before with
    | ok value middle =>
        rw [stage] at run
        cases run
        exact ⟨value, rfl, rfl⟩
    | error failure middle => simp [stage] at run
  · rintro ⟨value, stage, rfl⟩
    rw [stage]

theorem map_of_ok {action : EStateM ε σ α} (change : α → β) {value : α}
    (run : action before = .ok value after) :
    (change <$> action) before = .ok (change value) after := by
  simp only [Functor.map, EStateM.map, run]

/-! ## What an action leaves behind -/

/-- The state that an action leaves, also when it fails. -/
def left (action : EStateM ε σ α) (before : σ) : σ :=
  match action before with
  | .ok _ after | .error _ after => after

theorem left_of_ok {action : EStateM ε σ α} {value : α} (run : action before = .ok value after) :
    left action before = after := by
  unfold left
  rw [run]

theorem left_of_error {action : EStateM ε σ α} {failure : ε}
    (run : action before = .error failure after) : left action before = after := by
  unfold left
  rw [run]

theorem left_bind_of_ok {first : EStateM ε σ α} (next : α → EStateM ε σ β) {value : α}
    (run : first before = .ok value middle) :
    left (first >>= next) before = left (next value) middle := by
  unfold left
  rw [bind_of_ok next run]

/-- However the action ends, it leads from each state to one that is related to it. -/
def Keeps (relation : σ → σ → Prop) (action : EStateM ε σ α) : Prop :=
  ∀ before, relation before (left action before)

namespace Keeps

variable {relation : σ → σ → Prop}

theorem pure [IsPreorder σ relation] (value : α) :
    Keeps relation (Pure.pure value : EStateM ε σ α) :=
  fun before => refl_of relation before

theorem bind [IsPreorder σ relation] {action : EStateM ε σ α} {next : α → EStateM ε σ β}
    (early : Keeps relation action) (late : ∀ value, Keeps relation (next value)) :
    Keeps relation (action >>= next) := by
  intro before
  have head := early before
  cases run : action before with
  | ok value middle =>
      rw [left_of_ok run] at head
      have tail := late value middle
      unfold left at tail ⊢
      rw [bind_of_ok next run]
      exact trans_of relation head tail
  | error failure after =>
      rw [left_of_error run] at head
      rwa [left_of_error (bind_of_error next run)]

theorem ite {condition : Prop} [Decidable condition] {one other : EStateM ε σ α}
    (onTrue : Keeps relation one) (onFalse : Keeps relation other) :
    Keeps relation (if condition then one else other) := by
  split
  · exact onTrue
  · exact onFalse

end Keeps

/-! ## Two runs side by side -/

variable {ε' σ' α' β' : Type}

/-- Two results of the same kind, whose parts correspond. -/
inductive Matched (failures : ε → ε' → Prop) (states : σ → σ' → Prop) (values : α → α' → Prop) :
    EStateM.Result ε σ α → EStateM.Result ε' σ' α' → Prop
  | ok {value : α} {value' : α'} {after : σ} {after' : σ'} (same : values value value')
      (left : states after after') :
      Matched failures states values (.ok value after) (.ok value' after')
  | error {failure : ε} {failure' : ε'} {after : σ} {after' : σ'} (same : failures failure failure')
      (left : states after after') :
      Matched failures states values (.error failure after) (.error failure' after')

/-- Started in states that correspond, the two actions have results that correspond. -/
def Simulates (failures : ε → ε' → Prop) (states : σ → σ' → Prop) (values : α → α' → Prop)
    (action : EStateM ε σ α) (other : EStateM ε' σ' α') : Prop :=
  ∀ before before', states before before' →
    Matched failures states values (action before) (other before')

namespace Simulates

variable {failures : ε → ε' → Prop} {states : σ → σ' → Prop} {values : α → α' → Prop}
variable {results : β → β' → Prop}

theorem pure {value : α} {value' : α'} (same : values value value') :
    Simulates failures states values (Pure.pure value) (Pure.pure value') :=
  fun _ _ => .ok same

theorem bind {action : EStateM ε σ α} {other : EStateM ε' σ' α'} {next : α → EStateM ε σ β}
    {next' : α' → EStateM ε' σ' β'} (early : Simulates failures states values action other)
    (late : ∀ value value', values value value' →
      Simulates failures states results (next value) (next' value')) :
    Simulates failures states results (action >>= next) (other >>= next') := by
  intro before before' start
  have first := early before before' start
  simp only [Bind.bind, EStateM.bind]
  generalize action before = run at first ⊢
  generalize other before' = run' at first ⊢
  cases first with
  | ok same left => exact late _ _ same _ _ left
  | error same left => exact .error same left

theorem map {action : EStateM ε σ α} {other : EStateM ε' σ' α'} {change : α → β}
    {change' : α' → β'} (runs : Simulates failures states values action other)
    (same : ∀ value value', values value value' → results (change value) (change' value')) :
    Simulates failures states results (change <$> action) (change' <$> other) :=
  runs.bind fun value value' alike => pure (same value value' alike)

end Simulates

end TreeWalk.Stateful
