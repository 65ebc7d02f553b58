import TreeWalk.Evaluation
import TreeWalk.Proofs.Execution.Semantics

/-!
# Operators and their meaning

Each operator of the grammar computes what the semantics says it yields, the faults included.
-/

set_option autoImplicit false

namespace TreeWalk

open Semantics

/-- The operators of unary, logical and binary nodes. -/
def Operator.prefixes : List Kind := [.bang, .minus]

def Operator.connectives : List Kind := [.keyOr, .keyAnd]

def Operator.binaries : List Kind := [.equalEqual, .bangEqual, .plus] ++ numeric

/-- A cause as the halt that an operator raises. -/
def Operator.raised (operator : Token) : Except FaultCause Value → Except Halt Value
  | .ok value => .ok value
  | .error cause => .error (.raise cause operator)

namespace Semantics

theorem truthy_iff {value : Value} : value.isTruthy = true ↔ Truthy value := by
  cases value with
  | number | text => simp [Value.isTruthy, Truthy]
  | boolean value => cases value <;> simp [Value.isTruthy, Truthy]
  | nil => simp [Value.isTruthy, Truthy]

theorem not_truthy_iff {value : Value} : value.isTruthy = false ↔ ¬ Truthy value := by
  rw [← truthy_iff, Bool.not_eq_true]

theorem equal_iff {left right : Value} : left.equals right = true ↔ Equal left right := by
  constructor
  · intro same
    cases left <;> cases right <;> simp only [Value.equals, Bool.false_eq_true] at same
    · exact .number same
    · obtain rfl := of_decide_eq_true same
      exact .text _
    · obtain rfl := of_decide_eq_true same
      exact .boolean _
    · exact .nil
  · intro equal
    cases equal with
    | number same => exact same
    | text | boolean => simp [Value.equals]
    | nil => rfl

theorem not_equal_iff {left right : Value} :
    left.equals right = false ↔ ¬ Equal left right := by
  rw [← equal_iff, Bool.not_eq_true]

theorem shows_iff {value : Value} {text : String} : Shows value text ↔ value.display = text := by
  constructor
  · intro shows
    cases shows <;> rfl
  · rintro rfl
    cases value with
    | number value => exact .number value
    | text value => exact .text value
    | boolean value =>
        cases value with
        | false => exact .false
        | true => exact .true
    | nil => exact .nil

theorem not_isNumber {value : Value} (other : ¬ IsNumber value) (number : Float) :
    value ≠ .number number := by
  rintro rfl
  exact other (.intro number)

/-! ## Prefix operators -/

theorem Negates.computed {operator : Token} {value : Value} {result : Except FaultCause Value}
    (negates : Negates operator.kind value result) :
    Operator.applyUnary operator value = Operator.raised operator result := by
  generalize same : operator.kind = kind at negates
  cases negates with
  | falsy truthy => simp [Operator.applyUnary, same, Operator.raised, truthy_iff.mpr truthy]
  | truthy falsy => simp [Operator.applyUnary, same, Operator.raised, not_truthy_iff.mpr falsy]
  | minus => simp [Operator.applyUnary, same, Operator.raised]
  | noNumber other =>
      cases value with
      | number number => exact absurd rfl (not_isNumber other number)
      | _ => simp [Operator.applyUnary, same, Operator.raised]

theorem exists_negates {kind : Kind} (operator : kind ∈ Operator.prefixes) (value : Value) :
    ∃ result, Negates kind value result := by
  simp only [Operator.prefixes, List.mem_cons, List.not_mem_nil, or_false] at operator
  rcases operator with rfl | rfl
  · by_cases truthy : Truthy value
    · exact ⟨_, .falsy truthy⟩
    · exact ⟨_, .truthy truthy⟩
  · by_cases number : IsNumber value
    · obtain ⟨number⟩ := number
      exact ⟨_, .minus number⟩
    · exact ⟨_, .noNumber number⟩

/-! ## Connectives -/

theorem Settles.computed {operator : Token} {left : Value}
    (settles : Settles operator.kind left) : Operator.stopsAt operator left = true := by
  generalize same : operator.kind = kind at settles
  cases settles with
  | or truthy => simp [Operator.stopsAt, same, truthy_iff.mpr truthy]
  | and falsy => simp [Operator.stopsAt, same, not_truthy_iff.mpr falsy]

theorem Continues.computed {operator : Token} {left : Value}
    (continues : Continues operator.kind left) : Operator.stopsAt operator left = false := by
  generalize same : operator.kind = kind at continues
  cases continues with
  | or falsy => simp [Operator.stopsAt, same, not_truthy_iff.mpr falsy]
  | and truthy => simp [Operator.stopsAt, same, truthy_iff.mpr truthy]

theorem settles_or_continues {kind : Kind} (operator : kind ∈ Operator.connectives)
    (left : Value) : Settles kind left ∨ Continues kind left := by
  simp only [Operator.connectives, List.mem_cons, List.not_mem_nil, or_false] at operator
  by_cases truthy : Truthy left
  · rcases operator with rfl | rfl
    · exact Or.inl (.or truthy)
    · exact Or.inr (.and truthy)
  · rcases operator with rfl | rfl
    · exact Or.inr (.or truthy)
    · exact Or.inl (.and truthy)

/-! ## Binary operators -/

theorem Computes.computed {operator : Token} {left right : Float}
    {result : Except FaultCause Value} (computes : Computes operator.kind left right result) :
    Operator.arithmetic operator left right = Operator.raised operator result := by
  generalize same : operator.kind = kind at computes
  cases computes with
  | slash _ nonzero => simp [Operator.arithmetic, same, Operator.raised, nonzero]
  | zero _ zero => simp [Operator.arithmetic, same, Operator.raised, zero]
  | greater | greaterEqual | less | lessEqual | minus | star =>
      simp [Operator.arithmetic, same, Operator.raised]

theorem exists_computes {kind : Kind} (operator : kind ∈ numeric) (left right : Float) :
    ∃ result, Computes kind left right result := by
  simp only [numeric, List.mem_cons, List.not_mem_nil, or_false] at operator
  rcases operator with rfl | rfl | rfl | rfl | rfl | rfl | rfl
  · exact ⟨_, .greater left right⟩
  · exact ⟨_, .greaterEqual left right⟩
  · exact ⟨_, .less left right⟩
  · exact ⟨_, .lessEqual left right⟩
  · exact ⟨_, .minus left right⟩
  · exact ⟨_, .star left right⟩
  · cases zero : right == 0 with
    | true => exact ⟨_, .zero left zero⟩
    | false => exact ⟨_, .slash left zero⟩

theorem applyBinary_numeric {operator : Token} (member : operator.kind ∈ numeric)
    (left right : Value) :
    Operator.applyBinary operator left right =
      match left, right with
      | .number left, .number right => Operator.arithmetic operator left right
      | left, right => .error (.raise (.operandsMustBeNumbers left.kind right.kind) operator) := by
  unfold Operator.applyBinary
  generalize operator.kind = kind at member
  simp only [numeric, List.mem_cons, List.not_mem_nil, or_false] at member
  rcases member with rfl | rfl | rfl | rfl | rfl | rfl | rfl <;> rfl

theorem Computes.operator {kind : Kind} {left right : Float} {result : Except FaultCause Value}
    (computes : Computes kind left right result) : kind ∈ numeric := by
  cases computes <;> simp [numeric]

theorem Combines.computed {operator : Token} {left right : Value}
    {result : Except FaultCause Value} (combines : Combines operator.kind left right result) :
    Operator.applyBinary operator left right = Operator.raised operator result := by
  generalize same : operator.kind = kind at combines
  cases combines with
  | equal equal => simp [Operator.applyBinary, same, Operator.raised, equal_iff.mpr equal]
  | unequal other => simp [Operator.applyBinary, same, Operator.raised, not_equal_iff.mpr other]
  | same equal => simp [Operator.applyBinary, same, Operator.raised, equal_iff.mpr equal]
  | differs other => simp [Operator.applyBinary, same, Operator.raised, not_equal_iff.mpr other]
  | joins joins =>
      cases joins <;> simp [Operator.applyBinary, same, Operator.raised, Operator.add]
  | invalid apart =>
      have sum : Operator.add operator left right =
          .error (.raise (.invalidAddition left.kind right.kind) operator) := by
        unfold Operator.add
        split
        · exact absurd (.numbers _ _) (apart _)
        · exact absurd (.texts _ _) (apart _)
        · exact absurd (.textNumber _ _) (apart _)
        · exact absurd (.numberText _ _) (apart _)
        · rfl
      simp [Operator.applyBinary, same, Operator.raised, sum]
  | computes computes =>
      subst same
      rw [applyBinary_numeric computes.operator]
      exact computes.computed
  | noNumbers member other =>
      subst same
      rw [applyBinary_numeric member]
      split
      · exact absurd ⟨.intro _, .intro _⟩ other
      · rfl

theorem exists_combines {kind : Kind} (operator : kind ∈ Operator.binaries) (left right : Value) :
    ∃ result, Combines kind left right result := by
  rcases List.mem_append.mp operator with member | member
  · simp only [List.mem_cons, List.not_mem_nil, or_false] at member
    rcases member with rfl | rfl | rfl
    · by_cases equal : Equal left right
      · exact ⟨_, .equal equal⟩
      · exact ⟨_, .unequal equal⟩
    · by_cases equal : Equal left right
      · exact ⟨_, .same equal⟩
      · exact ⟨_, .differs equal⟩
    · by_cases joined : ∃ value, Joins left right value
      · obtain ⟨value, joins⟩ := joined
        exact ⟨_, .joins joins⟩
      · exact ⟨_, .invalid (not_exists.mp joined)⟩
  · by_cases numbers : IsNumber left ∧ IsNumber right
    · obtain ⟨⟨one⟩, ⟨other⟩⟩ := numbers
      obtain ⟨result, computes⟩ := exists_computes member one other
      exact ⟨result, .computes computes⟩
    · exact ⟨_, .noNumbers member numbers⟩

end Semantics

end TreeWalk
