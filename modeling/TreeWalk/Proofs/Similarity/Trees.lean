import Mathlib.Data.List.Forall2
import TreeWalk.Proofs.Execution.Semantics
import TreeWalk.Syntax.SyntaxError

/-!
# Trees that differ in places only

An alignment says which lines and spans of two sources correspond.  Tokens and trees are similar
under an alignment if they are equal but for lines and spans, which correspond.
-/

set_option autoImplicit false

namespace TreeWalk

open Semantics (Task)

structure Alignment where
  lines : Nat → Nat → Prop
  spans : Span → Span → Prop

namespace Alignment

structure Tokens (alignment : Alignment) (left right : Token) : Prop where
  kind : left.kind = right.kind
  lexeme : left.lexeme = right.lexeme
  literal : left.literal = right.literal
  line : alignment.lines left.line right.line
  span : alignment.spans left.span right.span

inductive Exprs (alignment : Alignment) : Expr → Expr → Prop
  | literal (value : Value) {span span' : Span} (spans : alignment.spans span span') :
      Exprs alignment (.literal value span) (.literal value span')
  | grouping {inner inner' : Expr} (inside : Exprs alignment inner inner') :
      Exprs alignment (.grouping inner) (.grouping inner')
  | unary {operator operator' : Token} {right right' : Expr}
      (operators : alignment.Tokens operator operator') (rights : Exprs alignment right right') :
      Exprs alignment (.unary operator right) (.unary operator' right')
  | binary {operator operator' : Token} {left left' right right' : Expr}
      (lefts : Exprs alignment left left') (operators : alignment.Tokens operator operator')
      (rights : Exprs alignment right right') :
      Exprs alignment (.binary left operator right) (.binary left' operator' right')
  | logical {operator operator' : Token} {left left' right right' : Expr}
      (lefts : Exprs alignment left left') (operators : alignment.Tokens operator operator')
      (rights : Exprs alignment right right') :
      Exprs alignment (.logical left operator right) (.logical left' operator' right')
  | reference {name name' : Token} (names : alignment.Tokens name name') :
      Exprs alignment (.reference name) (.reference name')
  | assign {name name' : Token} {value value' : Expr} (names : alignment.Tokens name name')
      (values : Exprs alignment value value') :
      Exprs alignment (.assign name value) (.assign name' value')

inductive Tasks (alignment : Alignment) : Task → Task → Prop
  | expression {expr expr' : Expr} (exprs : alignment.Exprs expr expr') :
      Tasks alignment (.one (.expression expr)) (.one (.expression expr'))
  | print {expr expr' : Expr} (exprs : alignment.Exprs expr expr') :
      Tasks alignment (.one (.print expr)) (.one (.print expr'))
  | bare {name name' : Token} (names : alignment.Tokens name name') :
      Tasks alignment (.one (.var name none)) (.one (.var name' none))
  | initialized {name name' : Token} {expr expr' : Expr} (names : alignment.Tokens name name')
      (exprs : alignment.Exprs expr expr') :
      Tasks alignment (.one (.var name (some expr))) (.one (.var name' (some expr')))
  | block {body body' : List Stmt} (inside : Tasks alignment (.all body) (.all body')) :
      Tasks alignment (.one (.block body)) (.one (.block body'))
  | branch {condition condition' : Expr} {onTrue onTrue' : Stmt}
      (conditions : alignment.Exprs condition condition')
      (taken : Tasks alignment (.one onTrue) (.one onTrue')) :
      Tasks alignment (.one (.branch condition onTrue none))
        (.one (.branch condition' onTrue' none))
  | either {condition condition' : Expr} {onTrue onTrue' onFalse onFalse' : Stmt}
      (conditions : alignment.Exprs condition condition')
      (taken : Tasks alignment (.one onTrue) (.one onTrue'))
      (refused : Tasks alignment (.one onFalse) (.one onFalse')) :
      Tasks alignment (.one (.branch condition onTrue (some onFalse)))
        (.one (.branch condition' onTrue' (some onFalse')))
  | loop {condition condition' : Expr} {body body' : Stmt}
      (conditions : alignment.Exprs condition condition')
      (rounds : Tasks alignment (.one body) (.one body')) :
      Tasks alignment (.one (.loop condition body)) (.one (.loop condition' body'))
  | nothing : Tasks alignment (.all []) (.all [])
  | next {first first' : Stmt} {rest rest' : List Stmt}
      (head : Tasks alignment (.one first) (.one first'))
      (tail : Tasks alignment (.all rest) (.all rest')) :
      Tasks alignment (.all (first :: rest)) (.all (first' :: rest'))

variable {alignment : Alignment}

/-- What is run as one statement. -/
def Stmts (alignment : Alignment) (left right : Stmt) : Prop :=
  alignment.Tasks (.one left) (.one right)

theorem tasks_all_iff {left right : List Stmt} :
    alignment.Tasks (.all left) (.all right) ↔ List.Forall₂ alignment.Stmts left right := by
  constructor
  · intro alike
    induction left generalizing right with
    | nil =>
        cases alike
        exact .nil
    | cons first rest ih =>
        cases alike with
        | next head tail => exact .cons head (ih tail)
  · intro alike
    induction alike with
    | nil => exact .nothing
    | cons head _ ih => exact .next head ih

theorem length_eq {left right : List Stmt} (alike : alignment.Tasks (.all left) (.all right)) :
    left.length = right.length :=
  (tasks_all_iff.mp alike).length_eq

structure SyntaxErrors (alignment : Alignment) (left right : SyntaxError) : Prop where
  cause : left.cause = right.cause
  token : alignment.Tokens left.token right.token

structure Faults (alignment : Alignment) (left right : Fault) : Prop where
  cause : left.cause = right.cause
  token : alignment.Tokens left.token right.token

end Alignment

/-! ## Wherever it stands -/

/-- The kind, the lexeme and the literal of a token. -/
def Token.unplaced (token : Token) : Token :=
  { token with line := 0, span := ⟨0, 0⟩ }

namespace Alignment

/-- All places correspond. -/
def anywhere : Alignment where
  lines _ _ := True
  spans _ _ := True

theorem tokens_anywhere {left right : Token} :
    anywhere.Tokens left right ↔ left.unplaced = right.unplaced := by
  constructor
  · intro alike
    unfold Token.unplaced
    rw [alike.kind, alike.lexeme, alike.literal]
  · intro same
    obtain ⟨kind, lexeme, literal, -, -⟩ := Token.mk.inj same
    exact ⟨kind, lexeme, literal, trivial, trivial⟩

theorem forall₂_anywhere {left right : List Token}
    (same : left.map Token.unplaced = right.map Token.unplaced) :
    List.Forall₂ anywhere.Tokens left right := by
  rw [← List.forall₂_eq_eq_eq, List.forall₂_map_left_iff, List.forall₂_map_right_iff] at same
  exact same.imp fun _ _ => tokens_anywhere.mpr

end Alignment

end TreeWalk
