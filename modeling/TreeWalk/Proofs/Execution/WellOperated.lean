import TreeWalk.Proofs.Execution.Operators
import TreeWalk.Proofs.Syntax.Phrase

/-!
# Trees that can be run

In the trees of the grammar each node has an operator of its own kind, so that running one never
gets stuck.
-/

set_option autoImplicit false

namespace TreeWalk

def Expr.WellOperated : Expr → Prop
  | literal _ _ | reference _ => True
  | grouping inner => inner.WellOperated
  | unary operator right => operator.kind ∈ Operator.prefixes ∧ right.WellOperated
  | binary left operator right =>
      operator.kind ∈ Operator.binaries ∧ left.WellOperated ∧ right.WellOperated
  | logical left operator right =>
      operator.kind ∈ Operator.connectives ∧ left.WellOperated ∧ right.WellOperated
  | assign _ value => value.WellOperated

mutual

def Stmt.WellOperated : Stmt → Prop
  | expression expr | print expr | var _ (some expr) => expr.WellOperated
  | var _ none => True
  | block body => AllWellOperated body
  | branch condition onTrue none => condition.WellOperated ∧ onTrue.WellOperated
  | branch condition onTrue (some onFalse) =>
      condition.WellOperated ∧ onTrue.WellOperated ∧ onFalse.WellOperated
  | loop condition body => condition.WellOperated ∧ body.WellOperated

def Stmt.AllWellOperated : List Stmt → Prop
  | [] => True
  | statement :: rest => statement.WellOperated ∧ AllWellOperated rest

end

theorem Stmt.allWellOperated_iff {statements : List Stmt} :
    Stmt.AllWellOperated statements ↔ ∀ statement ∈ statements, statement.WellOperated := by
  induction statements with
  | nil => simp [Stmt.AllWellOperated]
  | cons statement rest ih => simp [Stmt.AllWellOperated, ih]

namespace Grammar

theorem wellOperated_of_chain? {symbol : Symbol} {chain : Chain}
    (level : chain? symbol = some chain) {operator : Token}
    (member : operator.kind ∈ chain.operators) {left right : Expr}
    (first : left.WellOperated) (second : right.WellOperated) :
    (chain.node left operator right).WellOperated := by
  cases symbol <;> simp only [chain?, Option.some.injEq, reduceCtorEq] at level <;>
    subst level <;> refine ⟨?_, first, second⟩ <;> revert member <;>
    generalize operator.kind = kind <;> cases kind <;> decide

theorem Reads.wellOperated {symbol : Symbol} {tokens : List Token} {expr : Expr}
    {noted : List SyntaxError} (reads : Reads symbol tokens expr noted) : expr.WellOperated := by
  induction reads with
  | expression _ ih | value _ ih | assign _ _ _ ih | single _ _ ih | primary _ ih
  | group _ _ _ ih => exact ih
  | misassign _ _ _ _ ih _ => exact ih
  | longer level _ member _ initIh operandIh =>
      exact wellOperated_of_chain? level member initIh operandIh
  | unary kind _ ih => exact ⟨kind, ih⟩
  | leaf | name => trivial

theorem ReadsVar.wellOperated {tokens : List Token} {stmt : Stmt} {noted : List SyntaxError}
    (reads : ReadsVar tokens stmt noted) : stmt.WellOperated := by
  cases reads with
  | bare => trivial
  | initialized _ _ _ initializer => exact initializer.wellOperated

theorem ReadsExprStmt.wellOperated {tokens : List Token} {stmt : Stmt} {noted : List SyntaxError}
    (reads : ReadsExprStmt tokens stmt noted) : stmt.WellOperated := by
  cases reads with
  | intro inner => exact inner.wellOperated

theorem forLoop_wellOperated {keyword : Token} {first test last : List Token}
    {initializer : Option Stmt} {condition increment : Option Expr} {round : Stmt}
    {noted₁ noted₂ noted₃ : List SyntaxError}
    (initialized : ReadsInitializer first initializer noted₁)
    (tested : ReadsOptional test condition noted₂) (stepped : ReadsOptional last increment noted₃)
    (repeated : round.WellOperated) :
    (withInitializer
      (.loop (condition.getD (.literal (.boolean true) keyword.span))
        (withIncrement round increment))
      initializer).WellOperated := by
  have body : (withIncrement round increment).WellOperated := by
    cases stepped with
    | absent => exact repeated
    | present inner => exact ⟨repeated, inner.wellOperated, trivial⟩
  have loop : (Stmt.loop (condition.getD (.literal (.boolean true) keyword.span))
      (withIncrement round increment)).WellOperated := by
    cases tested with
    | absent => exact ⟨trivial, body⟩
    | present inner => exact ⟨inner.wellOperated, body⟩
  cases initialized with
  | absent => exact loop
  | var declares => exact ⟨declares.wellOperated, loop, trivial⟩
  | expression evaluates => exact ⟨evaluates.wellOperated, loop, trivial⟩

theorem ReadsStmt.wellOperated {role : Role} {tokens : List Token} {stmt : Stmt}
    {noted : List SyntaxError} (reads : ReadsStmt role tokens stmt noted) :
    stmt.WellOperated := by
  induction reads with
  | var declares => exact declares.wellOperated
  | statement _ ih => exact ih
  | expression evaluates => exact evaluates.wellOperated
  | print _ inner => exact inner.wellOperated
  | block _ each _ ih =>
      refine Stmt.allWellOperated_iff.mpr fun statement member => ?_
      obtain ⟨part, inside, rfl⟩ := List.mem_map.mp member
      exact ih part inside
  | ifOnly _ _ tested _ _ ih => exact ⟨tested.wellOperated, ih⟩
  | ifElse _ _ tested _ _ _ _ takenIh refusedIh =>
      exact ⟨tested.wellOperated, takenIh, refusedIh⟩
  | whileLoop _ _ tested _ _ ih => exact ⟨tested.wellOperated, ih⟩
  | forLoop _ _ initialized tested _ stepped _ _ ih =>
      exact forLoop_wellOperated initialized tested stepped ih

end Grammar

end TreeWalk
