import TreeWalk.Fault
import TreeWalk.Syntax.Tree

/-!
# The meaning of programs

Programs run over an immutable chain of maps from names to values, which is never empty.
`Evaluates` and `Runs` relate a chain and an expression, or a chain and statements, to their
outcome and to the chain they leave.  What was changed before a fault stays changed.  The
relations hold only for trees whose operators the grammar has; arithmetic, comparison and the
text of numbers are those of doubles.
-/

set_option autoImplicit false

namespace TreeWalk.Semantics

/-! ## Chains -/

abbrev Names := String → Option Value

def Names.empty : Names := fun _ => none

def Names.set (names : Names) (name : String) (value : Value) : Names :=
  fun other => if other = name then some value else names other

/-- Maps one inside the other; the outermost one belongs to the whole run. -/
inductive Chain where
  | outermost (names : Names)
  | inside (names : Names) (outer : Chain)

namespace Chain

def lookup (name : String) : Chain → Option Value
  | outermost names => names name
  | inside names outer =>
      match names name with
      | some value => some value
      | none => outer.lookup name

/-- The chain with another value in the nearest map that has the name. -/
def assign? (name : String) (value : Value) : Chain → Option Chain
  | outermost names => (names name).map fun _ => outermost (names.set name value)
  | inside names outer =>
      match names name with
      | some _ => some (inside (names.set name value) outer)
      | none => (outer.assign? name value).map (inside names)

def define (name : String) (value : Value) : Chain → Chain
  | outermost names => outermost (names.set name value)
  | inside names outer => inside (names.set name value) outer

def depth : Chain → Nat
  | outermost _ => 0
  | inside _ outer => outer.depth + 1

end Chain

/-! ## Operators -/

def Truthy (value : Value) : Prop := value ≠ .nil ∧ value ≠ .boolean false

inductive Shows : Value → String → Prop where
  | number (value : Float) : Shows (.number value) (Number.shownText value)
  | text (value : String) : Shows (.text value) value
  | true : Shows (.boolean true) "true"
  | false : Shows (.boolean false) "false"
  | nil : Shows .nil "nil"

inductive Equal : Value → Value → Prop where
  | number {left right : Float} (same : (left == right) = true) :
      Equal (.number left) (.number right)
  | text (value : String) : Equal (.text value) (.text value)
  | boolean (value : Bool) : Equal (.boolean value) (.boolean value)
  | nil : Equal .nil .nil

inductive IsNumber : Value → Prop where
  | intro (value : Float) : IsNumber (.number value)

/-- The value that a prefix operator yields, or why it cannot. -/
inductive Negates : Kind → Value → Except FaultCause Value → Prop where
  | falsy {value : Value} (truthy : Truthy value) : Negates .bang value (.ok (.boolean false))
  | truthy {value : Value} (falsy : ¬ Truthy value) : Negates .bang value (.ok (.boolean true))
  | minus (value : Float) : Negates .minus (.number value) (.ok (.number (-value)))
  | noNumber {value : Value} (other : ¬ IsNumber value) :
      Negates .minus value (.error (.operandMustBeNumber value.kind))

/-- The values that `+` can put together. -/
inductive Joins : Value → Value → Value → Prop where
  | numbers (left right : Float) : Joins (.number left) (.number right) (.number (left + right))
  | texts (left right : String) : Joins (.text left) (.text right) (.text (left ++ right))
  | textNumber (left : String) (right : Float) :
      Joins (.text left) (.number right) (.text (left ++ Number.shownText right))
  | numberText (left : Float) (right : String) :
      Joins (.number left) (.text right) (.text (Number.shownText left ++ right))

/-- What the operators that take numbers only make of two numbers. -/
inductive Computes : Kind → Float → Float → Except FaultCause Value → Prop where
  | greater (left right : Float) : Computes .greater left right (.ok (.boolean (left > right)))
  | greaterEqual (left right : Float) :
      Computes .greaterEqual left right (.ok (.boolean (left ≥ right)))
  | less (left right : Float) : Computes .less left right (.ok (.boolean (left < right)))
  | lessEqual (left right : Float) : Computes .lessEqual left right (.ok (.boolean (left ≤ right)))
  | minus (left right : Float) : Computes .minus left right (.ok (.number (left - right)))
  | star (left right : Float) : Computes .star left right (.ok (.number (left * right)))
  | slash (left : Float) {right : Float} (nonzero : (right == 0) = false) :
      Computes .slash left right (.ok (.number (left / right)))
  | zero (left : Float) {right : Float} (zero : (right == 0) = true) :
      Computes .slash left right (.error .divisionByZero)

def numeric : List Kind :=
  [.greater, .greaterEqual, .less, .lessEqual, .minus, .star, .slash]

inductive Combines : Kind → Value → Value → Except FaultCause Value → Prop where
  | equal {left right : Value} (same : Equal left right) :
      Combines .equalEqual left right (.ok (.boolean true))
  | unequal {left right : Value} (other : ¬ Equal left right) :
      Combines .equalEqual left right (.ok (.boolean false))
  | same {left right : Value} (same : Equal left right) :
      Combines .bangEqual left right (.ok (.boolean false))
  | differs {left right : Value} (other : ¬ Equal left right) :
      Combines .bangEqual left right (.ok (.boolean true))
  | joins {left right value : Value} (joins : Joins left right value) :
      Combines .plus left right (.ok value)
  | invalid {left right : Value} (apart : ∀ value, ¬ Joins left right value) :
      Combines .plus left right (.error (.invalidAddition left.kind right.kind))
  | computes {kind : Kind} {left right : Float} {result : Except FaultCause Value}
      (computes : Computes kind left right result) :
      Combines kind (.number left) (.number right) result
  | noNumbers {kind : Kind} {left right : Value} (operator : kind ∈ numeric)
      (other : ¬ (IsNumber left ∧ IsNumber right)) :
      Combines kind left right (.error (.operandsMustBeNumbers left.kind right.kind))

/-- The left operand settles the result. -/
inductive Settles : Kind → Value → Prop where
  | or {left : Value} (truthy : Truthy left) : Settles .keyOr left
  | and {left : Value} (falsy : ¬ Truthy left) : Settles .keyAnd left

inductive Continues : Kind → Value → Prop where
  | or {left : Value} (falsy : ¬ Truthy left) : Continues .keyOr left
  | and {left : Value} (truthy : Truthy left) : Continues .keyAnd left

def blame (token : Token) : Except FaultCause Value → Except Fault Value
  | .ok value => .ok value
  | .error cause => .error ⟨cause, token⟩

/-! ## Expressions -/

inductive Evaluates : Chain → Expr → Except Fault Value → Chain → Prop where
  | literal {chain : Chain} (value : Value) (span : Span) :
      Evaluates chain (.literal value span) (.ok value) chain
  | grouping {chain after : Chain} {inner : Expr} {result : Except Fault Value}
      (inside : Evaluates chain inner result after) :
      Evaluates chain (.grouping inner) result after
  | reference {chain : Chain} {name : Token} {value : Value}
      (bound : chain.lookup name.lexeme = some value) :
      Evaluates chain (.reference name) (.ok value) chain
  | unbound {chain : Chain} {name : Token} (free : chain.lookup name.lexeme = none) :
      Evaluates chain (.reference name) (.error ⟨.undefinedVariable name.lexeme, name⟩) chain
  | assign {chain middle after : Chain} {name : Token} {expr : Expr} {value : Value}
      (right : Evaluates chain expr (.ok value) middle)
      (bound : middle.assign? name.lexeme value = some after) :
      Evaluates chain (.assign name expr) (.ok value) after
  | assignUnbound {chain after : Chain} {name : Token} {expr : Expr} {value : Value}
      (right : Evaluates chain expr (.ok value) after)
      (free : after.assign? name.lexeme value = none) :
      Evaluates chain (.assign name expr) (.error ⟨.undefinedVariable name.lexeme, name⟩) after
  | assignFails {chain after : Chain} {name : Token} {expr : Expr} {fault : Fault}
      (right : Evaluates chain expr (.error fault) after) :
      Evaluates chain (.assign name expr) (.error fault) after
  | unary {chain after : Chain} {operator : Token} {expr : Expr} {value : Value}
      {result : Except FaultCause Value} (right : Evaluates chain expr (.ok value) after)
      (negates : Negates operator.kind value result) :
      Evaluates chain (.unary operator expr) (blame operator result) after
  | unaryFails {chain after : Chain} {operator : Token} {expr : Expr} {fault : Fault}
      (right : Evaluates chain expr (.error fault) after) :
      Evaluates chain (.unary operator expr) (.error fault) after
  | settled {chain after : Chain} {left right : Expr} {operator : Token} {value : Value}
      (first : Evaluates chain left (.ok value) after) (settles : Settles operator.kind value) :
      Evaluates chain (.logical left operator right) (.ok value) after
  | continued {chain middle after : Chain} {left right : Expr} {operator : Token} {value : Value}
      {result : Except Fault Value} (first : Evaluates chain left (.ok value) middle)
      (continues : Continues operator.kind value)
      (second : Evaluates middle right result after) :
      Evaluates chain (.logical left operator right) result after
  | logicalFails {chain after : Chain} {left right : Expr} {operator : Token} {fault : Fault}
      (first : Evaluates chain left (.error fault) after) :
      Evaluates chain (.logical left operator right) (.error fault) after
  | binary {chain middle after : Chain} {left right : Expr} {operator : Token}
      {one other : Value} {result : Except FaultCause Value}
      (first : Evaluates chain left (.ok one) middle)
      (second : Evaluates middle right (.ok other) after)
      (combines : Combines operator.kind one other result) :
      Evaluates chain (.binary left operator right) (blame operator result) after
  | leftFails {chain after : Chain} {left right : Expr} {operator : Token} {fault : Fault}
      (first : Evaluates chain left (.error fault) after) :
      Evaluates chain (.binary left operator right) (.error fault) after
  | rightFails {chain middle after : Chain} {left right : Expr} {operator : Token} {value : Value}
      {fault : Fault} (first : Evaluates chain left (.ok value) middle)
      (second : Evaluates middle right (.error fault) after) :
      Evaluates chain (.binary left operator right) (.error fault) after

/-! ## Statements -/

inductive Task where
  | one (statement : Stmt)
  | all (statements : List Stmt)

/-- A task leads from a chain to a fault or none, the text it prints and the chain it leaves. -/
inductive Runs : Chain → Task → Option Fault → String → Chain → Prop where
  | expression {chain after : Chain} {expr : Expr} {value : Value}
      (evaluates : Evaluates chain expr (.ok value) after) :
      Runs chain (.one (.expression expr)) none "" after
  | expressionFails {chain after : Chain} {expr : Expr} {fault : Fault}
      (evaluates : Evaluates chain expr (.error fault) after) :
      Runs chain (.one (.expression expr)) (some fault) "" after
  | print {chain after : Chain} {expr : Expr} {value : Value} {text : String}
      (evaluates : Evaluates chain expr (.ok value) after) (shows : Shows value text) :
      Runs chain (.one (.print expr)) none (text ++ "\n") after
  | printFails {chain after : Chain} {expr : Expr} {fault : Fault}
      (evaluates : Evaluates chain expr (.error fault) after) :
      Runs chain (.one (.print expr)) (some fault) "" after
  | bare {chain : Chain} (name : Token) :
      Runs chain (.one (.var name none)) none "" (chain.define name.lexeme .nil)
  | initialized {chain after : Chain} {name : Token} {expr : Expr} {value : Value}
      (evaluates : Evaluates chain expr (.ok value) after) :
      Runs chain (.one (.var name (some expr))) none "" (after.define name.lexeme value)
  | initializerFails {chain after : Chain} {name : Token} {expr : Expr} {fault : Fault}
      (evaluates : Evaluates chain expr (.error fault) after) :
      Runs chain (.one (.var name (some expr))) (some fault) "" after
  | block {chain after : Chain} {body : List Stmt} {names : Names} {result : Option Fault}
      {output : String}
      (inner : Runs (.inside .empty chain) (.all body) result output (.inside names after)) :
      Runs chain (.one (.block body)) result output after
  | branchTrue {chain middle after : Chain} {condition : Expr} {value : Value} {onTrue : Stmt}
      {onFalse : Option Stmt} {result : Option Fault} {output : String}
      (tested : Evaluates chain condition (.ok value) middle) (truthy : Truthy value)
      (taken : Runs middle (.one onTrue) result output after) :
      Runs chain (.one (.branch condition onTrue onFalse)) result output after
  | branchFalse {chain middle after : Chain} {condition : Expr} {value : Value}
      {onTrue onFalse : Stmt} {result : Option Fault} {output : String}
      (tested : Evaluates chain condition (.ok value) middle) (falsy : ¬ Truthy value)
      (taken : Runs middle (.one onFalse) result output after) :
      Runs chain (.one (.branch condition onTrue (some onFalse))) result output after
  | branchNone {chain after : Chain} {condition : Expr} {value : Value} {onTrue : Stmt}
      (tested : Evaluates chain condition (.ok value) after) (falsy : ¬ Truthy value) :
      Runs chain (.one (.branch condition onTrue none)) none "" after
  | branchFails {chain after : Chain} {condition : Expr} {onTrue : Stmt} {onFalse : Option Stmt}
      {fault : Fault} (tested : Evaluates chain condition (.error fault) after) :
      Runs chain (.one (.branch condition onTrue onFalse)) (some fault) "" after
  | loopDone {chain after : Chain} {condition : Expr} {value : Value} {body : Stmt}
      (tested : Evaluates chain condition (.ok value) after) (falsy : ¬ Truthy value) :
      Runs chain (.one (.loop condition body)) none "" after
  | loopAgain {chain middle next after : Chain} {condition : Expr} {value : Value} {body : Stmt}
      {result : Option Fault} {output more : String}
      (tested : Evaluates chain condition (.ok value) middle) (truthy : Truthy value)
      (round : Runs middle (.one body) none output next)
      (again : Runs next (.one (.loop condition body)) result more after) :
      Runs chain (.one (.loop condition body)) result (output ++ more) after
  | loopBodyFails {chain middle after : Chain} {condition : Expr} {value : Value} {body : Stmt}
      {fault : Fault} {output : String}
      (tested : Evaluates chain condition (.ok value) middle) (truthy : Truthy value)
      (round : Runs middle (.one body) (some fault) output after) :
      Runs chain (.one (.loop condition body)) (some fault) output after
  | loopFails {chain after : Chain} {condition : Expr} {body : Stmt} {fault : Fault}
      (tested : Evaluates chain condition (.error fault) after) :
      Runs chain (.one (.loop condition body)) (some fault) "" after
  | done {chain : Chain} : Runs chain (.all []) none "" chain
  | next {chain middle after : Chain} {first : Stmt} {rest : List Stmt} {result : Option Fault}
      {output more : String} (head : Runs chain (.one first) none output middle)
      (tail : Runs middle (.all rest) result more after) :
      Runs chain (.all (first :: rest)) result (output ++ more) after
  | stops {chain after : Chain} {first : Stmt} {rest : List Stmt} {fault : Fault}
      {output : String} (head : Runs chain (.one first) (some fault) output after) :
      Runs chain (.all (first :: rest)) (some fault) output after

end TreeWalk.Semantics
