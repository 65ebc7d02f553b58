import TreeWalk.Proofs.Similarity.Trees
import TreeWalk.Proofs.Syntax.StatementRules

/-!
# Parses do not depend on places

The rules of the parser look at the kinds of tokens only.  Run side by side on tokens that differ
in places only, each rule yields similar trees or similar errors, and so does a whole parse, its
recoveries included.
-/

set_option autoImplicit false

namespace TreeWalk.Alignment

open Grammar (forLoop_eq withIncrement)
open Semantics (Task)
open Stateful (Matched Simulates)

variable {alignment : Alignment}

/-- Parsers at the same place in similar tokens, with similar errors behind them. -/
structure Parsers (alignment : Alignment) (left right : Parser) : Prop where
  consumed : List.Forall₂ alignment.Tokens left.consumed right.consumed
  ahead : List.Forall₂ alignment.Tokens left.ahead right.ahead
  ending : alignment.Tokens left.ending right.ending
  errors : List.Forall₂ alignment.SyntaxErrors left.errors right.errors

/-- The rules read alike, and their values correspond. -/
def Rules {α β : Type} (alignment : Alignment) (values : α → β → Prop) :
    Rule α → Rule β → Prop :=
  Simulates alignment.SyntaxErrors alignment.Parsers values

/-! ## Steps of a parser -/

theorem isEmpty_eq {α β : Type} {values : α → β → Prop} {left : List α} {right : List β}
    (alike : List.Forall₂ values left right) : left.isEmpty = right.isEmpty := by
  cases alike <;> rfl

theorem Tokens.isEnd {left right : Token} (tokens : alignment.Tokens left right) :
    left.isEnd = right.isEnd := by
  unfold Token.isEnd
  rw [tokens.kind]

theorem kind_head? {tokens tokens' : List Token}
    (alike : List.Forall₂ alignment.Tokens tokens tokens') :
    tokens.head?.map Token.kind = tokens'.head?.map Token.kind := by
  cases alike with
  | nil => rfl
  | cons first _ => exact congrArg some first.kind

namespace Parsers

variable {left right : Parser} (parsers : alignment.Parsers left right)

include parsers

theorem next : alignment.Tokens left.next right.next := by
  have ahead := parsers.ahead
  unfold Parser.next
  generalize left.ahead = tokens at ahead ⊢
  generalize right.ahead = tokens' at ahead ⊢
  cases ahead with
  | nil => exact parsers.ending
  | cons first _ => exact first

theorem step : alignment.Parsers left.step right.step := by
  have ahead := parsers.ahead
  unfold Parser.step
  generalize left.ahead = tokens at ahead ⊢
  generalize right.ahead = tokens' at ahead ⊢
  cases ahead with
  | nil => exact parsers
  | cons first rest => exact ⟨.cons first parsers.consumed, rest, parsers.ending, parsers.errors⟩

theorem length_ahead : left.ahead.length = right.ahead.length := parsers.ahead.length_eq

theorem position : left.position = right.position := parsers.consumed.length_eq

end Parsers

theorem rules_peek : alignment.Rules alignment.Tokens Rule.peek Rule.peek :=
  fun _ _ parsers => .ok parsers.next parsers

theorem rules_fail {α β : Type} {values : α → β → Prop} (cause : SyntaxCause) :
    alignment.Rules values (Rule.fail cause) (Rule.fail cause) :=
  fun _ _ parsers => .error ⟨rfl, parsers.next⟩ parsers

theorem rules_step : alignment.Rules Eq Rule.step Rule.step :=
  fun _ _ parsers => .ok rfl parsers.step

theorem rules_note {error error' : SyntaxError} (errors : alignment.SyntaxErrors error error') :
    alignment.Rules Eq (Rule.note error) (Rule.note error') :=
  fun _ _ parsers =>
    .ok rfl ⟨parsers.consumed, parsers.ahead, parsers.ending, .cons errors parsers.errors⟩

theorem rules_bound : alignment.Rules Eq Rule.bound Rule.bound :=
  fun _ _ parsers => .ok (congrArg (· + 1) parsers.length_ahead) parsers

theorem rules_accept? (kinds : List Kind) :
    alignment.Rules (Option.Rel alignment.Tokens) (Rule.accept? kinds) (Rule.accept? kinds) := by
  intro left right parsers
  have stepped := parsers.step
  have ahead := parsers.ahead
  unfold Rule.accept?
  generalize left.ahead = tokens at ahead ⊢
  generalize right.ahead = tokens' at ahead ⊢
  cases ahead with
  | nil => exact .ok .none parsers
  | cons first _ =>
      simp only [first.kind]
      split
      · exact .ok (.some first) stepped
      · exact .ok .none parsers

theorem rules_sees (kind : Kind) : alignment.Rules Eq (Rule.sees kind) (Rule.sees kind) := by
  intro left right parsers
  unfold Rule.sees
  rw [kind_head? parsers.ahead]
  exact .ok rfl parsers

theorem rules_expect (kind : Kind) (context : String) :
    alignment.Rules alignment.Tokens (Rule.expect kind context) (Rule.expect kind context) := by
  refine (rules_accept? [kind]).bind fun accepted accepted' alike => ?_
  cases alike with
  | some tokens => exact .pure tokens
  | none => exact rules_fail _

theorem rules_expectName :
    alignment.Rules alignment.Tokens Rule.expectName Rule.expectName := by
  refine (rules_accept? [.identifier]).bind fun accepted accepted' alike => ?_
  cases alike with
  | some tokens => exact .pure tokens
  | none => exact rules_fail _

/-! ## Expressions -/

/-- The nodes of a rung correspond if their parts do. -/
def Builds (alignment : Alignment) (node : Expr → Token → Expr → Expr) : Prop :=
  ∀ {left left' right right' : Expr} {operator operator' : Token}, alignment.Exprs left left' →
    alignment.Tokens operator operator' → alignment.Exprs right right' →
    alignment.Exprs (node left operator right) (node left' operator' right')

theorem builds_ladder : ∀ rung ∈ Rung.ladder, alignment.Builds rung.node := by
  intro rung member
  simp only [Rung.ladder, List.mem_cons, List.not_mem_nil, or_false] at member
  rcases member with rfl | rfl | rfl | rfl | rfl | rfl
  · exact .logical
  · exact .logical
  · exact .binary
  · exact .binary
  · exact .binary
  · exact .binary

section Operands

variable {operand operand' : Rule Expr}
variable (operands : alignment.Rules alignment.Exprs operand operand')

include operands

theorem rules_chain {rung : Rung} (builds : alignment.Builds rung.node) (count : Nat)
    {left left' : Expr} (lefts : alignment.Exprs left left') :
    alignment.Rules alignment.Exprs (Rule.chain rung operand count left)
      (Rule.chain rung operand' count left') := by
  induction count generalizing left left' with
  | zero => exact .pure lefts
  | succ count ih =>
      refine (rules_accept? rung.operators).bind fun accepted accepted' alike => ?_
      cases alike with
      | none => exact .pure lefts
      | some operators =>
          exact operands.bind fun right right' rights => ih (builds lefts operators rights)

theorem rules_climb (rungs : List Rung) (builds : ∀ rung ∈ rungs, alignment.Builds rung.node) :
    alignment.Rules alignment.Exprs (Rule.climb rungs operand) (Rule.climb rungs operand') := by
  induction rungs with
  | nil => exact operands
  | cons rung tighter ih =>
      have inner := ih fun other member => builds other (List.mem_cons_of_mem _ member)
      refine inner.bind fun left left' lefts => rules_bound.bind ?_
      rintro count _ rfl
      exact rules_chain inner (builds rung List.mem_cons_self) count lefts

theorem rules_prefixed (count : Nat) :
    alignment.Rules alignment.Exprs (Rule.prefixed operand count)
      (Rule.prefixed operand' count) := by
  induction count with
  | zero => exact operands
  | succ count ih =>
      refine (rules_accept? [.bang, .minus]).bind fun accepted accepted' alike => ?_
      cases alike with
      | none => exact operands
      | some operators => exact ih.bind fun right right' rights => .pure (.unary operators rights)

theorem rules_primary :
    alignment.Rules alignment.Exprs (Rule.primary operand) (Rule.primary operand') := by
  refine rules_peek.bind fun token token' tokens => ?_
  have values : Rule.leafValue? token = Rule.leafValue? token' := by
    unfold Rule.leafValue?
    rw [tokens.kind, tokens.literal]
  rw [values, tokens.kind]
  split
  · exact rules_step.bind fun _ _ _ => .pure (.literal _ tokens.span)
  · split
    · exact rules_step.bind fun _ _ _ => .pure (.reference tokens)
    · refine rules_step.bind fun _ _ _ => operands.bind fun inner inner' inside => ?_
      exact (rules_expect _ _).bind fun _ _ _ => .pure (.grouping inside)
    · exact rules_fail _

end Operands

theorem rules_assigned {target target' value value' : Expr} {equals equals' : Token}
    (targets : alignment.Exprs target target') (tokens : alignment.Tokens equals equals')
    (values : alignment.Exprs value value') :
    alignment.Rules alignment.Exprs (Rule.assigned target equals value)
      (Rule.assigned target' equals' value') := by
  have noted : alignment.SyntaxErrors ⟨.invalidAssignmentTarget, equals⟩
    ⟨.invalidAssignmentTarget, equals'⟩ := ⟨rfl, tokens⟩
  cases targets with
  | reference names => exact .pure (.assign names values)
  | literal value spans => exact (rules_note noted).bind fun _ _ _ => .pure (.literal value spans)
  | grouping inside => exact (rules_note noted).bind fun _ _ _ => .pure (.grouping inside)
  | unary operators rights =>
      exact (rules_note noted).bind fun _ _ _ => .pure (.unary operators rights)
  | binary lefts operators rights =>
      exact (rules_note noted).bind fun _ _ _ => .pure (.binary lefts operators rights)
  | logical lefts operators rights =>
      exact (rules_note noted).bind fun _ _ _ => .pure (.logical lefts operators rights)
  | assign names values =>
      exact (rules_note noted).bind fun _ _ _ => .pure (.assign names values)

theorem rules_expressionWithin (depth : Nat) :
    alignment.Rules alignment.Exprs (Rule.expressionWithin depth)
      (Rule.expressionWithin depth) := by
  induction depth with
  | zero => exact rules_fail _
  | succ depth ih =>
      have operands : alignment.Rules alignment.Exprs
          (do Rule.prefixed (Rule.primary (Rule.expressionWithin depth)) (← Rule.bound))
          (do Rule.prefixed (Rule.primary (Rule.expressionWithin depth)) (← Rule.bound)) := by
        refine rules_bound.bind ?_
        rintro count _ rfl
        exact rules_prefixed (rules_primary ih) count
      refine (rules_climb operands Rung.ladder builds_ladder).bind fun target target' targets => ?_
      refine (rules_accept? [.equal]).bind fun accepted accepted' alike => ?_
      cases alike with
      | none => exact .pure targets
      | some equals => exact ih.bind fun value value' values => rules_assigned targets equals values

theorem rules_expression :
    alignment.Rules alignment.Exprs Rule.expression Rule.expression := by
  refine rules_bound.bind ?_
  rintro depth _ rfl
  exact rules_expressionWithin depth

/-! ## Statements -/

theorem rules_expressionStatement :
    alignment.Rules alignment.Stmts Rule.expressionStatement Rule.expressionStatement :=
  rules_expression.bind fun _ _ exprs =>
    (rules_expect _ _).bind fun _ _ _ => .pure (.expression exprs)

theorem rules_printStatement :
    alignment.Rules alignment.Stmts Rule.printStatement Rule.printStatement :=
  rules_expression.bind fun _ _ exprs => (rules_expect _ _).bind fun _ _ _ => .pure (.print exprs)

/-- An expression that may be left out. -/
def Clauses (alignment : Alignment) : Option Expr → Option Expr → Prop :=
  Option.Rel alignment.Exprs

theorem stmts_var {name name' : Token} {initializer initializer' : Option Expr}
    (names : alignment.Tokens name name') (alike : alignment.Clauses initializer initializer') :
    alignment.Stmts (.var name initializer) (.var name' initializer') := by
  cases alike with
  | none => exact .bare names
  | some exprs => exact .initialized names exprs

theorem rules_variableDeclaration :
    alignment.Rules alignment.Stmts Rule.variableDeclaration Rule.variableDeclaration := by
  refine rules_expectName.bind fun name name' names => ?_
  have rest {initializer initializer' : Option Expr}
      (alike : alignment.Clauses initializer initializer') :
      alignment.Rules alignment.Stmts
        (do let _ ← Rule.expect .semicolon "after variable declaration"
            pure (.var name initializer))
        (do let _ ← Rule.expect .semicolon "after variable declaration"
            pure (.var name' initializer')) :=
    (rules_expect _ _).bind fun _ _ _ => .pure (stmts_var names alike)
  refine (rules_accept? [.equal]).bind fun accepted accepted' alike => ?_
  cases alike with
  | none => exact rest .none
  | some _ => exact rules_expression.bind fun _ _ exprs => rest (.some exprs)

section Nested

variable {statement statement' : Rule Stmt}
variable (statements : alignment.Rules alignment.Stmts statement statement')

include statements

theorem rules_declaration :
    alignment.Rules alignment.Stmts (Rule.declaration statement) (Rule.declaration statement') := by
  refine (rules_accept? [.keyVar]).bind fun accepted accepted' alike => ?_
  cases alike with
  | none => exact statements
  | some _ => exact rules_variableDeclaration

theorem rules_declarations (count : Nat) :
    alignment.Rules (fun body body' => alignment.Tasks (.all body) (.all body'))
      (Rule.declarations statement count) (Rule.declarations statement' count) := by
  induction count with
  | zero => exact .pure .nothing
  | succ count ih =>
      refine (rules_sees .rightBrace).bind ?_
      rintro closes _ rfl
      refine rules_peek.bind fun token token' tokens => ?_
      rw [tokens.isEnd]
      split
      · exact .pure .nothing
      · exact (rules_declaration statements).bind fun _ _ head => ih.bind fun _ _ tail =>
          .pure (.next head tail)

theorem rules_blockBody :
    alignment.Rules (fun body body' => alignment.Tasks (.all body) (.all body'))
      (Rule.blockBody statement) (Rule.blockBody statement') := by
  refine rules_bound.bind ?_
  rintro count _ rfl
  exact (rules_declarations statements count).bind fun _ _ body =>
    (rules_expect _ _).bind fun _ _ _ => .pure body

theorem rules_ifStatement :
    alignment.Rules alignment.Stmts (Rule.ifStatement statement) (Rule.ifStatement statement') := by
  refine (rules_expect _ _).bind fun _ _ _ => rules_expression.bind fun _ _ conditions => ?_
  refine (rules_expect _ _).bind fun _ _ _ => statements.bind fun _ _ taken => ?_
  refine (rules_accept? [.keyElse]).bind fun accepted accepted' alike => ?_
  cases alike with
  | none => exact .pure (.branch conditions taken)
  | some _ => exact statements.bind fun _ _ refused => .pure (.either conditions taken refused)

theorem rules_whileStatement :
    alignment.Rules alignment.Stmts (Rule.whileStatement statement)
      (Rule.whileStatement statement') := by
  refine (rules_expect _ _).bind fun _ _ _ => rules_expression.bind fun _ _ conditions => ?_
  exact (rules_expect _ _).bind fun _ _ _ => statements.bind fun _ _ rounds =>
    .pure (.loop conditions rounds)

end Nested

theorem rules_forInitializer :
    alignment.Rules (Option.Rel alignment.Stmts) Rule.forInitializer Rule.forInitializer := by
  refine (rules_accept? [.semicolon, .keyVar]).bind fun accepted accepted' alike => ?_
  cases alike with
  | none => exact rules_expressionStatement.map fun _ _ => .some
  | some tokens =>
      simp only [tokens.kind]
      split
      · exact .pure .none
      · exact rules_variableDeclaration.map fun _ _ => .some

theorem rules_optionalClause (endsWith : Kind) (context : String) :
    alignment.Rules alignment.Clauses (Rule.optionalClause endsWith context)
      (Rule.optionalClause endsWith context) := by
  have rest {clause clause' : Option Expr} (alike : alignment.Clauses clause clause') :
      alignment.Rules alignment.Clauses
        (do let _ ← Rule.expect endsWith context
            pure clause)
        (do let _ ← Rule.expect endsWith context
            pure clause') :=
    (rules_expect _ _).bind fun _ _ _ => .pure alike
  refine (rules_sees endsWith).bind ?_
  rintro absent _ rfl
  split
  · exact rest .none
  · exact (rules_expression.map fun _ _ => .some).bind fun _ _ => rest

theorem stmts_forLoop {keyword keyword' : Token} {initializer initializer' : Option Stmt}
    {condition condition' increment increment' : Option Expr} {body body' : Stmt}
    (keywords : alignment.Tokens keyword keyword')
    (initializers : Option.Rel alignment.Stmts initializer initializer')
    (conditions : alignment.Clauses condition condition')
    (increments : alignment.Clauses increment increment') (bodies : alignment.Stmts body body') :
    alignment.Stmts (Rule.forLoop keyword initializer condition increment body)
      (Rule.forLoop keyword' initializer' condition' increment' body') := by
  have round : alignment.Stmts (withIncrement body increment) (withIncrement body' increment') := by
    cases increments with
    | none => exact bodies
    | some exprs => exact .block (.next bodies (.next (.expression exprs) .nothing))
  have tested : alignment.Exprs (condition.getD (.literal (.boolean true) keyword.span))
      (condition'.getD (.literal (.boolean true) keyword'.span)) := by
    cases conditions with
    | none => exact .literal _ keywords.span
    | some exprs => exact exprs
  rw [forLoop_eq, forLoop_eq]
  cases initializers with
  | none => exact .loop tested round
  | some first => exact .block (.next first (.next (.loop tested round) .nothing))

theorem rules_forStatement {statement statement' : Rule Stmt} {keyword keyword' : Token}
    (statements : alignment.Rules alignment.Stmts statement statement')
    (keywords : alignment.Tokens keyword keyword') :
    alignment.Rules alignment.Stmts (Rule.forStatement statement keyword)
      (Rule.forStatement statement' keyword') := by
  refine (rules_expect _ _).bind fun _ _ _ => rules_forInitializer.bind fun _ _ initializers => ?_
  refine (rules_optionalClause _ _).bind fun _ _ conditions => ?_
  refine (rules_optionalClause _ _).bind fun _ _ increments => statements.bind fun _ _ bodies => ?_
  exact .pure (stmts_forLoop keywords initializers conditions increments bodies)

theorem rules_statementWithin (depth : Nat) :
    alignment.Rules alignment.Stmts (Rule.statementWithin depth) (Rule.statementWithin depth) := by
  induction depth with
  | zero => exact rules_expressionStatement
  | succ depth ih =>
      refine (rules_accept? [.keyPrint, .leftBrace, .keyIf, .keyWhile, .keyFor]).bind
        fun accepted accepted' alike => ?_
      cases alike with
      | none => exact rules_expressionStatement
      | some tokens =>
          simp only [tokens.kind]
          split
          · exact rules_printStatement
          · exact (rules_blockBody ih).map fun _ _ => .block
          · exact rules_ifStatement ih
          · exact rules_whileStatement ih
          · exact rules_forStatement ih tokens

theorem rules_topDeclaration :
    alignment.Rules alignment.Stmts Rule.topDeclaration Rule.topDeclaration := by
  refine rules_bound.bind ?_
  rintro depth _ rfl
  exact rules_declaration (rules_statementWithin depth)

/-! ## Programs -/

namespace Parsers

variable {left right : Parser}

theorem atBoundary (parsers : alignment.Parsers left right) :
    left.atBoundary = right.atBoundary := by
  unfold Parser.atBoundary
  rw [kind_head? parsers.consumed, parsers.next.kind]

theorem skipToBoundary (count : Nat) (parsers : alignment.Parsers left right) :
    alignment.Parsers (left.skipToBoundary count) (right.skipToBoundary count) := by
  induction count generalizing left right with
  | zero => exact parsers
  | succ count ih =>
      unfold Parser.skipToBoundary
      rw [isEmpty_eq parsers.ahead, parsers.atBoundary]
      split
      · exact parsers
      · exact ih parsers.step

theorem skipAhead (parsers : alignment.Parsers left right) :
    alignment.Parsers (left.skipToBoundary left.ahead.length)
      (right.skipToBoundary right.ahead.length) := by
  rw [parsers.length_ahead]
  exact parsers.skipToBoundary _

theorem synchronize (parsers : alignment.Parsers left right) (start : Nat) :
    alignment.Parsers (left.synchronize start) (right.synchronize start) := by
  unfold Parser.synchronize
  rw [parsers.position]
  split
  · exact parsers.step.skipAhead
  · exact parsers.skipAhead

theorem recover (parsers : alignment.Parsers left right) (start : Nat) {error error' : SyntaxError}
    (errors : alignment.SyntaxErrors error error') :
    alignment.Parsers (left.recover start error) (right.recover start error') := by
  have resumed := parsers.synchronize start
  exact ⟨resumed.consumed, resumed.ahead, resumed.ending, .cons errors resumed.errors⟩

theorem program (count : Nat) {done done' : List Stmt}
    (stmts : List.Forall₂ alignment.Stmts done done') (parsers : alignment.Parsers left right) :
    List.Forall₂ alignment.Stmts (Parser.program count done left).1
        (Parser.program count done' right).1 ∧
      alignment.Parsers (Parser.program count done left).2
        (Parser.program count done' right).2 := by
  induction count generalizing done done' left right with
  | zero => exact ⟨stmts, parsers⟩
  | succ count ih =>
      have read := rules_topDeclaration left right parsers
      unfold Parser.program
      rw [isEmpty_eq parsers.ahead]
      split
      · exact ⟨stmts, parsers⟩
      · generalize Rule.topDeclaration left = one at read ⊢
        generalize Rule.topDeclaration right = other at read ⊢
        cases read with
        | ok first after => exact ih (.cons first stmts) after
        | error errors after =>
            rw [parsers.position]
            exact ih stmts (after.recover right.position errors)

end Parsers

/-- Statements and errors correspond. -/
structure Parses (alignment : Alignment) (left right : Parsed) : Prop where
  statements : alignment.Tasks (.all left.statements) (.all right.statements)
  errors : List.Forall₂ alignment.SyntaxErrors left.errors right.errors

theorem Parses.isOk {left right : Parsed} (parses : alignment.Parses left right) :
    left.isOk = right.isOk := by
  exact isEmpty_eq parses.errors

theorem Parsers.parse {left right : Parser} (parsers : alignment.Parsers left right) :
    alignment.Parses left.parse.1 right.parse.1 := by
  obtain ⟨stmts, after⟩ := parsers.program left.ahead.length .nil
  unfold Parser.parse
  rw [← parsers.length_ahead]
  exact ⟨tasks_all_iff.mpr (List.forall₂_reverse_iff.mpr stmts),
    List.forall₂_reverse_iff.mpr after.errors⟩

section Sequences

variable {tokens tokens' : List Token} (alike : List.Forall₂ alignment.Tokens tokens tokens')

include alike

theorem takeWhile_inside :
    List.Forall₂ alignment.Tokens (tokens.takeWhile fun token => !token.isEnd)
      (tokens'.takeWhile fun token => !token.isEnd) := by
  induction alike with
  | nil => exact .nil
  | cons first _ ih =>
      rw [List.takeWhile_cons, List.takeWhile_cons, first.isEnd]
      split
      · exact .cons first ih
      · exact .nil

theorem find?_isEnd :
    Option.Rel alignment.Tokens (tokens.find? Token.isEnd) (tokens'.find? Token.isEnd) := by
  induction alike with
  | nil => exact .none
  | cons first _ ih =>
      rw [List.find?_cons, List.find?_cons, first.isEnd]
      split
      · exact .some first
      · exact ih

/-- Similar tokens with an end token among them are parsed alike. -/
theorem parses_ofTokens (ends : ∃ token ∈ tokens, token.isEnd = true) :
    alignment.Parses (.ofTokens tokens) (.ofTokens tokens') := by
  have endings := find?_isEnd alike
  refine Parsers.parse ⟨.nil, takeWhile_inside alike, ?_, .nil⟩
  unfold Parser.ofTokens
  cases found : tokens.find? Token.isEnd with
  | none =>
      obtain ⟨token, member, isEnd⟩ := ends
      exact absurd isEnd (List.find?_eq_none.mp found token member)
  | some token =>
      rw [found] at endings
      generalize tokens'.find? Token.isEnd = other at endings ⊢
      cases endings with
      | some last => exact last

end Sequences

end TreeWalk.Alignment
