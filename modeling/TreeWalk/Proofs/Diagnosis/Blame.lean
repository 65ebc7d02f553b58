import TreeWalk.Proofs.Diagnosis.Origins
import TreeWalk.Proofs.Execution.Checks

/-!
# The nodes that faults blame

Each node of an expression has faults of its own: an operator that does not take the values of its
operands, a divisor that is zero, a name without a binding.  `Causes` tells which, with what the
operands were evaluated to.  A run of a parsed program, also of one with syntax errors, never
crashes, and its fault is one that a node of the program causes or a refusal of the sink.
-/

set_option autoImplicit false

namespace TreeWalk

open Semantics (IsNumber Negates Combines Computes Joins numeric exists_combines exists_negates)
open Stateful (bind_eq_error)

def Expr.Proper : Expr → Prop
  | unary operator _ => operator.kind ∈ Operator.prefixes
  | binary _ operator _ => operator.kind ∈ Operator.binaries
  | reference name | assign name _ => name.kind = .identifier
  | literal _ _ | grouping _ | logical _ _ _ => True

/-- The fault that a node raises when its operands have been evaluated. -/
inductive Expr.Causes : Expr → Fault → Prop where
  | operand {operator : Token} {right : Expr} {start after : Environment} {value : Value}
      (minus : operator.kind = .minus) (evaluated : right.evaluate start = .ok value after)
      (other : value.kind ≠ .number) :
      Causes (.unary operator right) ⟨.operandMustBeNumber value.kind, operator⟩
  | operands {left right : Expr} {operator : Token} {start middle after : Environment}
      {one other : Value} (operates : operator.kind ∈ numeric)
      (first : left.evaluate start = .ok one middle)
      (second : right.evaluate middle = .ok other after)
      (mixed : ¬ (one.kind = .number ∧ other.kind = .number)) :
      Causes (.binary left operator right) ⟨.operandsMustBeNumbers one.kind other.kind, operator⟩
  | addition {left right : Expr} {operator : Token} {start middle after : Environment}
      {one other : Value} (plus : operator.kind = .plus)
      (first : left.evaluate start = .ok one middle)
      (second : right.evaluate middle = .ok other after)
      (apart : ¬ (one.kind ∈ [ValueKind.number, .string] ∧
        other.kind ∈ [ValueKind.number, .string])) :
      Causes (.binary left operator right) ⟨.invalidAddition one.kind other.kind, operator⟩
  | division {left right : Expr} {operator : Token} {start middle after : Environment}
      {one other : Float} (slash : operator.kind = .slash)
      (first : left.evaluate start = .ok (.number one) middle)
      (second : right.evaluate middle = .ok (.number other) after) (zero : (other == 0) = true) :
      Causes (.binary left operator right) ⟨.divisionByZero, operator⟩
  | unbound {name : Token} {environment : Environment} (identifier : name.kind = .identifier)
      (free : environment.get? name.lexeme = none) :
      Causes (.reference name) ⟨.undefinedVariable name.lexeme, name⟩
  | unassigned {name : Token} {expr : Expr} {start environment : Environment} {value : Value}
      (identifier : name.kind = .identifier)
      (evaluated : expr.evaluate start = .ok value environment)
      (free : environment.get? name.lexeme = none) :
      Causes (.assign name expr) ⟨.undefinedVariable name.lexeme, name⟩

/-! ## Trees of the grammar -/

namespace Grammar

theorem proper_of_chain? {symbol : Symbol} {chain : Chain} (level : chain? symbol = some chain)
    {operator : Token} (member : operator.kind ∈ chain.operators) {left right : Expr}
    (first : ∀ node ∈ left.nodes, node.Proper) (second : ∀ node ∈ right.nodes, node.Proper) :
    ∀ node ∈ (chain.node left operator right).nodes, node.Proper := by
  have operands : ∀ node ∈ left.nodes ++ right.nodes, node.Proper :=
    List.forall_mem_append.mpr ⟨first, second⟩
  cases symbol <;> simp only [chain?, Option.some.injEq, reduceCtorEq] at level <;>
    subst level <;> refine List.forall_mem_cons.mpr ⟨?_, operands⟩ <;> revert member <;>
    simp only [Expr.Proper, implies_true] <;> generalize operator.kind = kind <;> cases kind <;>
    decide

theorem Reads.proper {symbol : Symbol} {tokens : List Token} {expr : Expr}
    {noted : List SyntaxError} (reads : Reads symbol tokens expr noted) :
    ∀ node ∈ expr.nodes, node.Proper := by
  induction reads with
  | expression _ ih | value _ ih | single _ _ ih | primary _ ih => exact ih
  | misassign _ _ _ _ ih _ => exact ih
  | assign nameKind _ _ ih => exact List.forall_mem_cons.mpr ⟨nameKind, ih⟩
  | longer level _ member _ initIh operandIh => exact proper_of_chain? level member initIh operandIh
  | unary kind _ ih => exact List.forall_mem_cons.mpr ⟨kind, ih⟩
  | leaf => exact List.forall_mem_singleton.mpr trivial
  | name kind => exact List.forall_mem_singleton.mpr kind
  | group _ _ _ ih => exact List.forall_mem_cons.mpr ⟨trivial, ih⟩

theorem Origin.proper {tokens : List Token} {expr : Expr} (origin : Origin tokens expr) :
    ∀ node ∈ expr.nodes, node.Proper := by
  cases origin with
  | read _ reads => exact reads.proper
  | implied => exact List.forall_mem_singleton.mpr trivial

end Grammar

/-! ## The fault of an evaluation -/

namespace Semantics

theorem isNumber_iff {value : Value} : IsNumber value ↔ value.kind = .number := by
  constructor
  · rintro ⟨number⟩
    rfl
  · cases value with
    | number number => exact fun _ => .intro number
    | text | boolean | nil => exact fun kind => by cases kind

theorem exists_joins {left right : Value} (first : left.kind ∈ [ValueKind.number, .string])
    (second : right.kind ∈ [ValueKind.number, .string]) : ∃ value, Joins left right value := by
  cases left <;> cases right <;> simp [Value.kind] at first second
  · exact ⟨_, .numbers _ _⟩
  · exact ⟨_, .numberText _ _⟩
  · exact ⟨_, .textNumber _ _⟩
  · exact ⟨_, .texts _ _⟩

end Semantics

namespace Operator

variable {operator : Token} {fault : Fault}

theorem applyUnary_eq_error {value : Value} (member : operator.kind ∈ prefixes)
    (failed : applyUnary operator value = .error (.fault fault)) :
    operator.kind = .minus ∧ value.kind ≠ .number ∧
      fault = ⟨.operandMustBeNumber value.kind, operator⟩ := by
  obtain ⟨result, negates⟩ := exists_negates member value
  rw [negates.computed] at failed
  generalize operator.kind = kind at negates
  cases negates with
  | noNumber other =>
      cases failed
      exact ⟨rfl, mt Semantics.isNumber_iff.mpr other, rfl⟩
  | falsy | truthy | minus => cases failed

end Operator

inductive Operator.Refuses (operator : Token) (one other : Value) : FaultCause → Prop where
  | operands (operates : operator.kind ∈ numeric)
      (mixed : ¬ (one.kind = .number ∧ other.kind = .number)) :
      Refuses operator one other (.operandsMustBeNumbers one.kind other.kind)
  | addition (plus : operator.kind = .plus)
      (apart : ¬ (one.kind ∈ [ValueKind.number, .string] ∧
        other.kind ∈ [ValueKind.number, .string])) :
      Refuses operator one other (.invalidAddition one.kind other.kind)
  | division {dividend divisor : Float} (slash : operator.kind = .slash)
      (first : one = .number dividend) (second : other = .number divisor)
      (zero : (divisor == 0) = true) : Refuses operator one other .divisionByZero

theorem Operator.applyBinary_eq_error {operator : Token} {one other : Value} {fault : Fault}
    (member : operator.kind ∈ binaries)
    (failed : applyBinary operator one other = .error (.fault fault)) :
    fault.token = operator ∧ Refuses operator one other fault.cause := by
  obtain ⟨result, combines⟩ := exists_combines member one other
  rw [combines.computed] at failed
  generalize same : operator.kind = kind at combines
  cases combines with
  | equal | unequal | same | differs | joins => cases failed
  | invalid apart =>
      cases failed
      refine ⟨rfl, .addition same fun kinds => ?_⟩
      obtain ⟨value, joins⟩ := Semantics.exists_joins kinds.1 kinds.2
      exact apart value joins
  | noNumbers operates mixed =>
      cases failed
      refine ⟨rfl, .operands (same ▸ operates) fun kinds => mixed ?_⟩
      exact ⟨Semantics.isNumber_iff.mpr kinds.1, Semantics.isNumber_iff.mpr kinds.2⟩
  | computes computes =>
      cases computes with
      | zero left zero =>
          cases failed
          exact ⟨rfl, .division same rfl rfl zero⟩
      | greater | greaterEqual | less | lessEqual | minus | star | slash => cases failed

theorem Operator.Refuses.causes {left right : Expr} {operator : Token}
    {start middle after : Environment} {one other : Value} {cause : FaultCause}
    (refuses : Refuses operator one other cause) (first : left.evaluate start = .ok one middle)
    (second : right.evaluate middle = .ok other after) :
    (Expr.binary left operator right).Causes ⟨cause, operator⟩ := by
  cases refuses with
  | operands operates mixed => exact .operands operates first second mixed
  | addition plus apart => exact .addition plus first second apart
  | division slash one other zero =>
      subst one other
      exact .division slash first second zero

theorem Expr.causes_of_evaluate {expr : Expr} (proper : ∀ node ∈ expr.nodes, node.Proper)
    {start left : Environment} {fault : Fault}
    (run : expr.evaluate start = .error (.fault fault) left) :
    ∃ node ∈ expr.nodes, node.Causes fault := by
  induction expr generalizing start left with
  | literal value span => cases run
  | grouping inner ih =>
      obtain ⟨node, member, causes⟩ := ih (List.forall_mem_cons.mp proper).2 run
      exact ⟨node, List.mem_cons_of_mem _ member, causes⟩
  | reference name =>
      have identifier := List.forall_mem_singleton.mp proper
      unfold evaluate Evaluation.read at run
      split at run
      · cases run
      · next free =>
          cases run
          exact ⟨_, List.mem_singleton_self _, .unbound identifier free⟩
  | assign name value ih =>
      obtain ⟨identifier, inside⟩ := List.forall_mem_cons.mp proper
      obtain inner | ⟨result, middle, evaluated, run⟩ := bind_eq_error.mp run
      · obtain ⟨node, member, causes⟩ := ih inside inner
        exact ⟨node, List.mem_cons_of_mem _ member, causes⟩
      · obtain written | ⟨_, _, _, run⟩ := bind_eq_error.mp run
        · obtain ⟨free, rfl⟩ := Evaluation.write_eq_error written
          exact ⟨_, List.mem_cons_self, .unassigned identifier evaluated free⟩
        · cases run
  | unary operator right ih =>
      obtain ⟨member, inside⟩ := List.forall_mem_cons.mp proper
      obtain inner | ⟨value, middle, evaluated, run⟩ := bind_eq_error.mp run
      · obtain ⟨node, member, causes⟩ := ih inside inner
        exact ⟨node, List.mem_cons_of_mem _ member, causes⟩
      · have failed := Evaluation.ofExcept_eq_error run
        obtain ⟨minus, other, rfl⟩ := Operator.applyUnary_eq_error member failed
        exact ⟨_, List.mem_cons_self, .operand minus evaluated other⟩
  | logical one operator other oneIh otherIh =>
      obtain ⟨-, inside⟩ := List.forall_mem_cons.mp proper
      obtain ⟨oneInside, otherInside⟩ := List.forall_mem_append.mp inside
      obtain inner | ⟨value, middle, -, run⟩ := bind_eq_error.mp run
      · obtain ⟨node, member, causes⟩ := oneIh oneInside inner
        exact ⟨node, List.mem_cons_of_mem _ (List.mem_append_left _ member), causes⟩
      · split at run
        · cases run
        · obtain ⟨node, member, causes⟩ := otherIh otherInside run
          exact ⟨node, List.mem_cons_of_mem _ (List.mem_append_right _ member), causes⟩
  | binary one operator other oneIh otherIh =>
      obtain ⟨member, inside⟩ := List.forall_mem_cons.mp proper
      obtain ⟨oneInside, otherInside⟩ := List.forall_mem_append.mp inside
      obtain inner | ⟨first, middle, firstRun, run⟩ := bind_eq_error.mp run
      · obtain ⟨node, member, causes⟩ := oneIh oneInside inner
        exact ⟨node, List.mem_cons_of_mem _ (List.mem_append_left _ member), causes⟩
      · obtain inner | ⟨second, after, secondRun, run⟩ := bind_eq_error.mp run
        · obtain ⟨node, member, causes⟩ := otherIh otherInside inner
          exact ⟨node, List.mem_cons_of_mem _ (List.mem_append_right _ member), causes⟩
        · have failed := Evaluation.ofExcept_eq_error run
          obtain ⟨rfl, refuses⟩ := Operator.applyBinary_eq_error member failed
          exact ⟨_, List.mem_cons_self, refuses.causes firstRun secondRun⟩

/-! ## The fault of a run -/

/-- The sink has refused a text, or the fault is caused by a node of the program. -/
def Fault.Explained (fault : Fault) (program : List Stmt) : Prop :=
  (∃ failure, fault.cause = .outputFailed failure) ∨
    ∃ occurrence ∈ Stmt.allOccurrences program, ∃ node ∈ occurrence.expr.nodes, node.Causes fault

theorem Occurrence.Raises.explained {program : List Stmt} {occurrence : Occurrence} {fault : Fault}
    (raises : occurrence.Raises fault) (among : occurrence ∈ Stmt.allOccurrences program)
    (proper : ∀ node ∈ occurrence.expr.nodes, node.Proper) : fault.Explained program := by
  rcases raises with ⟨start, left, run⟩ | ⟨-, failure, rfl⟩
  · exact Or.inr ⟨occurrence, among, Expr.causes_of_evaluate proper run⟩
  · exact Or.inl ⟨failure, rfl⟩

/-- What becomes of a run: it meets no operator without a reading, the checked run agrees and does
not crash, and its fault is explained. -/
structure Machine.Survives (machine : Machine) (program : List Stmt) (budget : Nat) : Prop where
  unstuck : ∀ operator left, interpret budget program machine ≠ .error (.stuck operator) left
  uncrashed : ∀ crash left, interpretChecked budget program machine ≠ .error (.crashed crash) left
  agrees : interpretChecked budget program machine =
    Checked.watch (interpret budget program machine)
  explained : ∀ fault left, interpret budget program machine = .error (.fault fault) left →
    fault.Explained program

/-- Whatever tokens a program was parsed from, its runs never crash: they come by no place outside
of the scopes and by no operator that cannot be applied, and a fault that ends one is caused by a
node of the program unless the sink has refused a text. -/
theorem Parsed.survives (tokens : List Token) {machine : Machine}
    (formed : machine.environment.WellFormed) (budget : Nat) :
    machine.Survives (Parsed.ofTokens tokens).statements budget := by
  have operated := Parsed.wellOperated tokens
  obtain ⟨agrees, uncrashed⟩ :=
    (Machine.interpret_safe budget operated).watched formed
  refine ⟨?_, uncrashed, agrees, ?_⟩
  · intro operator left stuck
    rw [stuck] at agrees
    exact uncrashed (.stuck operator) left agrees
  · intro fault left run
    have ends : machine.Ends (Parsed.ofTokens tokens).statements (some fault) left := ⟨budget, run⟩
    obtain ⟨occurrence, among, raises⟩ := ends.raised
    exact raises.explained among (Parsed.origins_ofTokens tokens occurrence among).proper

/-- In `-nil;` the sign is blamed. -/
theorem Parsed.survives_negation :
    Environment.empty.WellFormed ∧
      ∃ operator left, operator.kind = .minus ∧
        Machine.interpret 0 (Parsed.ofTokens (Scan.ofSource "-nil;").tokens).statements
          (Machine.start .unfailing) = .error (.fault ⟨.operandMustBeNumber .nil, operator⟩) left ∧
        Fault.Explained ⟨.operandMustBeNumber .nil, operator⟩
          (Parsed.ofTokens (Scan.ofSource "-nil;").tokens).statements := by
  have formed := Environment.wellFormed_empty
  have survives := Parsed.survives (Scan.ofSource "-nil;").tokens
    (show (Machine.start .unfailing).environment.WellFormed from formed) 0
  exact ⟨formed, ⟨.minus, "-", none, 1, ⟨0, 1⟩⟩, _, rfl, rfl, survives.explained _ _ rfl⟩

end TreeWalk
