import TreeWalk.Proofs.Syntax.Rules
import TreeWalk.Syntax.Statement

/-!
# What the rules are made of

All rules of the parser are composed of a few elementary ones.  Only an assignment is more than
that, since it notes an error about a token that it has consumed before.  So whatever all rules
have in common can be shown by one induction on `Rule.Composed`, and `composed_topDeclaration`
makes it known of the rule that reads a declaration.
-/

set_option autoImplicit false

namespace TreeWalk.Rule

/-- The rest of an assignment behind its left side; without an equals sign there is none. -/
def assignment (depth : Nat) (target : Expr) : Rule Expr := do
  match ← accept? [.equal] with
  | none => pure target
  | some equals => do
    let value ← expressionWithin depth
    assigned target equals value

inductive Composed : {α : Type} → Rule α → Prop where
  | pure {α : Type} (value : α) : Composed (pure value)
  | fail {α : Type} {cause : SyntaxCause} (stops : cause ≠ .invalidAssignmentTarget) :
      Composed (fail cause : Rule α)
  | peek : Composed peek
  | step : Composed step
  | sees (kind : Kind) : Composed (sees kind)
  | accept? (kinds : List Kind) : Composed (accept? kinds)
  | bound : Composed bound
  | bind {α β : Type} {first : Rule α} {next : α → Rule β} (early : Composed first)
      (late : ∀ value, Composed (next value)) : Composed (first >>= next)
  | assignment {depth : Nat} (target : Expr) (value : Composed (expressionWithin depth)) :
      Composed (assignment depth target)

variable {α β : Type}

theorem Composed.map (change : α → β) {rule : Rule α} (composed : Composed rule) :
    Composed (change <$> rule) := by
  rw [map_eq_pure_bind]
  exact composed.bind fun value => .pure (change value)

theorem composed_expect (kind : Kind) (context : String) : Composed (expect kind context) :=
  (Composed.accept? _).bind fun
    | some token => .pure token
    | none => .fail (by simp)

theorem composed_expectName : Composed expectName :=
  (Composed.accept? _).bind fun
    | some token => .pure token
    | none => .fail (by simp)

/-! ## Expressions -/

theorem composed_chain {operand : Rule Expr} (composed : Composed operand) (rung : Rung)
    (count : Nat) (left : Expr) : Composed (chain rung operand count left) := by
  induction count generalizing left with
  | zero => exact .pure left
  | succ count ih =>
      refine (Composed.accept? rung.operators).bind fun accepted => ?_
      cases accepted with
      | none => exact .pure left
      | some operator => exact composed.bind fun right => ih (rung.node left operator right)

theorem composed_climb {operand : Rule Expr} (composed : Composed operand) (rungs : List Rung) :
    Composed (climb rungs operand) := by
  induction rungs with
  | nil => exact composed
  | cons rung tighter ih =>
      exact ih.bind fun left => Composed.bound.bind fun count => composed_chain ih rung count left

theorem composed_prefixed {operand : Rule Expr} (composed : Composed operand) (count : Nat) :
    Composed (prefixed operand count) := by
  induction count with
  | zero => exact composed
  | succ count ih =>
      refine (Composed.accept? [.bang, .minus]).bind fun accepted => ?_
      cases accepted with
      | none => exact composed
      | some operator => exact ih.bind fun right => .pure _

theorem composed_primary {inner : Rule Expr} (composed : Composed inner) :
    Composed (primary inner) := by
  refine Composed.peek.bind fun token => ?_
  split
  · exact Composed.step.bind fun _ => .pure _
  · split
    · exact Composed.step.bind fun _ => .pure _
    · exact Composed.step.bind fun _ => composed.bind fun expr =>
        (composed_expect _ _).bind fun _ => .pure _
    · exact .fail (by simp)

theorem composed_expressionWithin (depth : Nat) : Composed (expressionWithin depth) := by
  induction depth with
  | zero => exact .fail (by simp)
  | succ depth ih =>
      have operand := Composed.bound.bind fun count => composed_prefixed (composed_primary ih) count
      exact (composed_climb operand Rung.ladder).bind fun target => .assignment target ih

theorem composed_expression : Composed expression :=
  Composed.bound.bind composed_expressionWithin

/-! ## Statements -/

theorem composed_expressionStatement : Composed expressionStatement :=
  composed_expression.bind fun _ => (composed_expect _ _).bind fun _ => .pure _

theorem composed_printStatement : Composed printStatement :=
  composed_expression.bind fun _ => (composed_expect _ _).bind fun _ => .pure _

theorem composed_variableDeclaration : Composed variableDeclaration := by
  refine composed_expectName.bind fun name => (Composed.accept? _).bind fun accepted => ?_
  cases accepted with
  | none =>
      exact (Composed.pure none).bind fun _ => (composed_expect _ _).bind fun _ => .pure _
  | some equals =>
      exact composed_expression.bind fun value => (Composed.pure (some value)).bind fun _ =>
        (composed_expect _ _).bind fun _ => .pure _

section Nested

variable {statement : Rule Stmt} (composed : Composed statement)

include composed

theorem composed_declaration : Composed (declaration statement) := by
  refine (Composed.accept? _).bind fun accepted => ?_
  cases accepted with
  | none => exact composed
  | some keyword => exact composed_variableDeclaration

theorem composed_declarations (count : Nat) : Composed (declarations statement count) := by
  induction count with
  | zero => exact .pure []
  | succ count ih =>
      refine (Composed.sees _).bind fun closing => Composed.peek.bind fun token => ?_
      split
      · exact .pure []
      · exact (composed_declaration composed).bind fun first => ih.bind fun rest =>
          .pure (first :: rest)

theorem composed_blockBody : Composed (blockBody statement) :=
  Composed.bound.bind fun count => (composed_declarations composed count).bind fun body =>
    (composed_expect _ _).bind fun _ => .pure body

theorem composed_ifStatement : Composed (ifStatement statement) := by
  refine (composed_expect _ _).bind fun _ => composed_expression.bind fun condition =>
    (composed_expect _ _).bind fun _ => composed.bind fun onTrue =>
      (Composed.accept? _).bind fun accepted => ?_
  cases accepted with
  | none => exact .pure _
  | some otherwise => exact composed.bind fun onFalse => .pure _

theorem composed_whileStatement : Composed (whileStatement statement) :=
  (composed_expect _ _).bind fun _ => composed_expression.bind fun _ =>
    (composed_expect _ _).bind fun _ => composed.bind fun _ => .pure _

omit composed in
theorem composed_forInitializer : Composed forInitializer := by
  refine (Composed.accept? _).bind fun accepted => ?_
  cases accepted with
  | none => exact composed_expressionStatement.map some
  | some token =>
      dsimp only
      split
      · exact .pure none
      · exact composed_variableDeclaration.map some

omit composed in
theorem composed_optionalClause (endsWith : Kind) (context : String) :
    Composed (optionalClause endsWith context) := by
  refine (Composed.sees endsWith).bind fun absent => ?_
  split
  · exact (Composed.pure none).bind fun _ => (composed_expect _ _).bind fun _ => .pure _
  · exact (composed_expression.map some).bind fun _ =>
      (composed_expect _ _).bind fun _ => .pure _

theorem composed_forStatement (keyword : Token) : Composed (forStatement statement keyword) :=
  (composed_expect _ _).bind fun _ => composed_forInitializer.bind fun _ =>
    (composed_optionalClause _ _).bind fun _ => (composed_optionalClause _ _).bind fun _ =>
      composed.bind fun _ => .pure _

end Nested

/-- What the keyword at the front makes of a statement with others nested in it. -/
def statementBehind (nested : Rule Stmt) : Option Token → Rule Stmt
  | none => expressionStatement
  | some keyword =>
    match keyword.kind with
    | .keyPrint => printStatement
    | .leftBrace => .block <$> blockBody nested
    | .keyIf => ifStatement nested
    | .keyWhile => whileStatement nested
    | _ => forStatement nested keyword

theorem composed_statementBehind {nested : Rule Stmt} (composed : Composed nested)
    (accepted : Option Token) : Composed (statementBehind nested accepted) := by
  cases accepted with
  | none => exact composed_expressionStatement
  | some keyword =>
      dsimp only [statementBehind]
      split
      · exact composed_printStatement
      · exact (composed_blockBody composed).map Stmt.block
      · exact composed_ifStatement composed
      · exact composed_whileStatement composed
      · exact composed_forStatement composed keyword

theorem composed_statementWithin (depth : Nat) : Composed (statementWithin depth) := by
  induction depth with
  | zero => exact composed_expressionStatement
  | succ depth ih => exact (Composed.accept? _).bind (composed_statementBehind ih)

theorem composed_topDeclaration : Composed topDeclaration :=
  Composed.bound.bind fun count => composed_declaration (composed_statementWithin count)

end TreeWalk.Rule
