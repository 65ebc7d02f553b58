import TreeWalk.Proofs.Execution.Faults
import TreeWalk.Proofs.Syntax.Recognition

/-!
# Where the expressions of a program come from

Statements are rewritten while they are read: a `for` becomes a loop with blocks around it.  Their
expressions are not.  Each of them was read from a part of the tokens, but for the test that is
given to a `for` without one, which has kept the span of its keyword.  The same is true of the
expressions inside of them.  So what a tree keeps of the tokens, be it the tokens themselves or
their spans, it keeps in their order.
-/

set_option autoImplicit false

namespace TreeWalk

/-- What a tree has kept of its names and operators, and of its literals, in the order of the
source. -/
def Expr.gathered {α : Type} (ofToken : Token → α) (ofLiteral : Span → List α) : Expr → List α
  | literal _ span => ofLiteral span
  | grouping inner => inner.gathered ofToken ofLiteral
  | unary operator right => ofToken operator :: right.gathered ofToken ofLiteral
  | binary left operator right | logical left operator right =>
      left.gathered ofToken ofLiteral ++ ofToken operator :: right.gathered ofToken ofLiteral
  | reference name => [ofToken name]
  | assign name value => ofToken name :: value.gathered ofToken ofLiteral

/-- The expression itself and all expressions in it. -/
def Expr.nodes : Expr → List Expr
  | literal value span => [literal value span]
  | grouping inner => grouping inner :: inner.nodes
  | unary operator right => unary operator right :: right.nodes
  | binary left operator right => binary left operator right :: (left.nodes ++ right.nodes)
  | logical left operator right => logical left operator right :: (left.nodes ++ right.nodes)
  | reference name => [reference name]
  | assign name value => assign name value :: value.nodes

/-- The expression in a statement and all expressions in them. -/
def Stmt.allNodes (statements : List Stmt) : List Expr :=
  (Stmt.allOccurrences statements).flatMap fun occurrence => occurrence.expr.nodes

theorem Expr.self_mem_nodes (expr : Expr) : expr ∈ expr.nodes := by
  cases expr <;> exact List.mem_cons_self

namespace Grammar

/-- What an expression was made from. -/
inductive Origin (tokens : List Token) : Expr → Prop where
  | read {symbol : Symbol} {part : List Token} {expr : Expr} {noted : List SyntaxError}
      (inside : part <:+: tokens) (reads : Reads symbol part expr noted) : Origin tokens expr
  | implied {keyword : Token} (member : keyword ∈ tokens) :
      Origin tokens (.literal (.boolean true) keyword.span)

theorem Origin.widen {tokens others : List Token} {expr : Expr} (origin : Origin tokens expr)
    (part : tokens <:+: others) : Origin others expr := by
  cases origin with
  | read inside reads => exact .read (inside.trans part) reads
  | implied member => exact .implied (part.subset member)

/-- All of these expressions were made from the tokens. -/
def Origins (tokens : List Token) (occurrences : List Occurrence) : Prop :=
  ∀ occurrence ∈ occurrences, Origin tokens occurrence.expr

theorem Origins.widen {tokens others : List Token} {occurrences : List Occurrence}
    (origins : Origins tokens occurrences) (part : tokens <:+: others) :
    Origins others occurrences :=
  fun occurrence member => (origins occurrence member).widen part

theorem Origins.append {tokens : List Token} {some others : List Occurrence}
    (one : Origins tokens some) (other : Origins tokens others) :
    Origins tokens (some ++ others) :=
  List.forall_mem_append.mpr ⟨one, other⟩

theorem Reads.origins {symbol : Symbol} {part tokens : List Token} {expr : Expr}
    {noted : List SyntaxError} (reads : Reads symbol part expr noted) (inside : part <:+: tokens)
    (printed : Bool) : Origins tokens [⟨expr, printed⟩] :=
  List.forall_mem_singleton.mpr (.read inside reads)

theorem ReadsVar.origins {tokens : List Token} {stmt : Stmt} {noted : List SyntaxError}
    (reads : ReadsVar tokens stmt noted) : Origins tokens stmt.occurrences := by
  cases reads with
  | bare => exact List.forall_mem_nil _
  | @initialized keyword name equals semicolon _ _ _ _ _ _ initializer _ =>
      exact initializer.origins ⟨[keyword, name, equals], [semicolon], rfl⟩ false

theorem ReadsExprStmt.origins {tokens : List Token} {stmt : Stmt} {noted : List SyntaxError}
    (reads : ReadsExprStmt tokens stmt noted) : Origins tokens stmt.occurrences := by
  cases reads with
  | intro inner => exact inner.origins (List.prefix_append _ _).isInfix false

theorem forLoop_origins {keyword : Token} {first test last body tokens : List Token}
    {initializer : Option Stmt} {condition increment : Option Expr} {round : Stmt}
    {noted₁ noted₂ noted₃ : List SyntaxError}
    (initialized : ReadsInitializer first initializer noted₁)
    (tested : ReadsOptional test condition noted₂) (stepped : ReadsOptional last increment noted₃)
    (repeated : Origins body round.occurrences) (member : keyword ∈ tokens)
    (firstInside : first <:+: tokens) (testInside : test <:+: tokens)
    (lastInside : last <:+: tokens) (bodyInside : body <:+: tokens) :
    Origins tokens (withInitializer
      (.loop (condition.getD (.literal (.boolean true) keyword.span))
        (withIncrement round increment))
      initializer).occurrences := by
  have rounds : Origins tokens (withIncrement round increment).occurrences := by
    cases stepped with
    | absent => exact repeated.widen bodyInside
    | present inner => exact (repeated.widen bodyInside).append (inner.origins lastInside false)
  have loop : Origins tokens (Stmt.loop (condition.getD (.literal (.boolean true) keyword.span))
      (withIncrement round increment)).occurrences := by
    cases tested with
    | absent => exact List.forall_mem_cons.mpr ⟨.implied member, rounds⟩
    | present inner => exact (inner.origins testInside false).append rounds
  cases initialized with
  | absent => exact loop
  | var declares =>
      exact (declares.origins.widen firstInside).append (loop.append (List.forall_mem_nil _))
  | expression evaluates =>
      exact (evaluates.origins.widen firstInside).append (loop.append (List.forall_mem_nil _))

theorem ReadsStmt.origins {role : Role} {tokens : List Token} {stmt : Stmt}
    {noted : List SyntaxError} (reads : ReadsStmt role tokens stmt noted) :
    Origins tokens stmt.occurrences := by
  induction reads with
  | var declares => exact declares.origins
  | statement _ ih => exact ih
  | expression evaluates => exact evaluates.origins
  | @print keyword semicolon _ _ _ _ inner _ =>
      exact inner.origins ⟨[keyword], [semicolon], rfl⟩ true
  | @block left right parts _ _ _ ih =>
      intro occurrence member
      obtain ⟨statement, inside, member⟩ := Stmt.mem_allOccurrences.mp member
      obtain ⟨part, among, rfl⟩ := List.mem_map.mp inside
      have piece : part.tokens <:+: Part.tokensOf parts :=
        List.infix_of_mem_flatten (List.mem_map_of_mem among)
      exact (ih part among occurrence member).widen (piece.trans ⟨[left], [right], rfl⟩)
  | @ifOnly keyword left right _ test body _ _ _ _ _ _ tested _ _ ih =>
      exact (tested.origins ⟨[keyword, left], right :: body, by simp⟩ false).append
        (ih.widen ⟨keyword :: left :: (test ++ [right]), [], by simp⟩)
  | @ifElse keyword left right otherwise _ test body alternative _ _ _ _ _ _ _ _ tested _ _ _ _
      takenIh refusedIh =>
      refine (tested.origins ?_ false).append ((takenIh.widen ?_).append (refusedIh.widen ?_))
      · exact ⟨[keyword, left], right :: (body ++ otherwise :: alternative), by simp⟩
      · exact ⟨keyword :: left :: (test ++ [right]), otherwise :: alternative, by simp⟩
      · exact ⟨keyword :: left :: (test ++ right :: (body ++ [otherwise])), [], by simp⟩
  | @whileLoop keyword left right _ test body _ _ _ _ _ _ tested _ _ ih =>
      exact (tested.origins ⟨[keyword, left], right :: body, by simp⟩ false).append
        (ih.widen ⟨keyword :: left :: (test ++ [right]), [], by simp⟩)
  | @forLoop keyword left middle right _ first test last body _ _ _ _ _ _ _ _ _ _ initialized
      tested _ stepped _ _ ih =>
      refine forLoop_origins initialized tested stepped ih List.mem_cons_self ?_ ?_ ?_ ?_
      · exact ⟨[keyword, left], test ++ middle :: (last ++ right :: body), rfl⟩
      · exact ⟨keyword :: left :: first, middle :: (last ++ right :: body), by simp⟩
      · exact ⟨keyword :: left :: (first ++ (test ++ [middle])), right :: body, by simp⟩
      · exact ⟨keyword :: left :: (first ++ (test ++ middle :: (last ++ [right]))), [], by simp⟩

/-! ## Expressions in expressions -/

theorem nodes_of_chain? {symbol : Symbol} {chain : Chain} (level : chain? symbol = some chain)
    (left : Expr) (operator : Token) (right : Expr) :
    (chain.node left operator right).nodes =
      chain.node left operator right :: (left.nodes ++ right.nodes) := by
  cases symbol <;> simp only [chain?, Option.some.injEq, reduceCtorEq] at level <;>
    subst level <;> rfl

theorem Reads.nodes {symbol : Symbol} {tokens : List Token} {expr : Expr}
    {noted : List SyntaxError} (reads : Reads symbol tokens expr noted) :
    ∀ node ∈ expr.nodes, Origin tokens node := by
  induction reads with
  | expression _ ih | value _ ih | single _ _ ih | primary _ ih => exact ih
  | @assign name equals tokens _ _ nameKind equalsKind value ih =>
      have self := Origin.read (List.infix_refl _) (Reads.assign nameKind equalsKind value)
      refine List.forall_mem_cons.mpr ⟨self, fun node member => ?_⟩
      exact (ih node member).widen (List.suffix_append [name, equals] tokens).isInfix
  | misassign _ _ _ _ ih _ =>
      exact fun node member => (ih node member).widen (List.prefix_append _ _).isInfix
  | @longer _ _ operator front back left right _ _ level init operatorKind operand initIh
      operandIh =>
      have self := Origin.read (List.infix_refl _) (Reads.longer level init operatorKind operand)
      rw [nodes_of_chain? level]
      refine List.forall_mem_cons.mpr ⟨self, List.forall_mem_append.mpr ⟨?_, ?_⟩⟩
      · exact fun node member => (initIh node member).widen (List.prefix_append _ _).isInfix
      · intro node member
        exact (operandIh node member).widen ⟨front ++ [operator], [], by simp⟩
  | @unary operator tokens _ _ operatorKind operand ih =>
      have self := Origin.read (List.infix_refl _) (Reads.unary operatorKind operand)
      refine List.forall_mem_cons.mpr ⟨self, fun node member => ?_⟩
      exact (ih node member).widen (List.suffix_cons operator tokens).isInfix
  | leaf leaf =>
      exact List.forall_mem_singleton.mpr (.read (List.infix_refl _) (.leaf leaf))
  | name kind =>
      exact List.forall_mem_singleton.mpr (.read (List.infix_refl _) (.name kind))
  | @group left right tokens _ _ leftKind inner rightKind ih =>
      have self := Origin.read (List.infix_refl _) (Reads.group leftKind inner rightKind)
      refine List.forall_mem_cons.mpr ⟨self, fun node member => ?_⟩
      exact (ih node member).widen ⟨[left], [right], rfl⟩

theorem Origin.nodes {tokens : List Token} {expr : Expr} (origin : Origin tokens expr) :
    ∀ node ∈ expr.nodes, Origin tokens node := by
  cases origin with
  | read inside reads => exact fun node member => (reads.nodes node member).widen inside
  | implied member => exact List.forall_mem_singleton.mpr (.implied member)

theorem Origin.wellOperated {tokens : List Token} {expr : Expr} (origin : Origin tokens expr) :
    expr.WellOperated := by
  cases origin with
  | read _ reads => exact reads.wellOperated
  | implied => trivial

/-! ## What trees have kept -/

section Gathered

variable {α : Type} {ofToken : Token → α} {ofLiteral : Span → List α}

theorem gathered_of_chain? {symbol : Symbol} {chain : Chain} (level : chain? symbol = some chain)
    (left : Expr) (operator : Token) (right : Expr) :
    (chain.node left operator right).gathered ofToken ofLiteral =
      left.gathered ofToken ofLiteral ++ ofToken operator :: right.gathered ofToken ofLiteral := by
  cases symbol <;> simp only [chain?, Option.some.injEq, reduceCtorEq] at level <;>
    subst level <;> rfl

variable (literals : ∀ token : Token, (ofLiteral token.span).Sublist [ofToken token])

include literals

theorem Reads.gathered_sublist {symbol : Symbol} {tokens : List Token} {expr : Expr}
    {noted : List SyntaxError} (reads : Reads symbol tokens expr noted) :
    (expr.gathered ofToken ofLiteral).Sublist (tokens.map ofToken) := by
  induction reads with
  | expression _ ih | value _ ih | single _ _ ih | primary _ ih => exact ih
  | assign _ _ _ ih => exact (ih.cons _).cons_cons _
  | misassign _ _ _ _ ih _ =>
      rw [List.map_append]
      exact ih.trans (List.sublist_append_left _ _)
  | longer level _ _ _ initIh operandIh =>
      rw [gathered_of_chain? level, List.map_append, List.map_cons]
      exact initIh.append (operandIh.cons_cons _)
  | unary _ _ ih => exact ih.cons_cons _
  | leaf => exact literals _
  | name => exact List.Sublist.refl _
  | group _ _ _ ih =>
      rw [List.map_cons, List.map_append]
      exact (ih.trans (List.sublist_append_left _ _)).cons _

theorem Origin.gathered_sublist {tokens : List Token} {expr : Expr} (origin : Origin tokens expr) :
    (expr.gathered ofToken ofLiteral).Sublist (tokens.map ofToken) := by
  cases origin with
  | read inside reads =>
      exact (reads.gathered_sublist literals).trans (inside.sublist.map ofToken)
  | @implied keyword member =>
      exact (literals keyword).trans (List.singleton_sublist.mpr (List.mem_map_of_mem member))

end Gathered

end Grammar

/-- The expressions of a parsed program come from the tokens in front of the end, also if the parse
has errors. -/
theorem Parsed.origins_inside (tokens : List Token) :
    Grammar.Origins (tokens.takeWhile fun token => !token.isEnd)
      (Stmt.allOccurrences (Parsed.ofTokens tokens).statements) := by
  intro occurrence member
  obtain ⟨statement, among, member⟩ := Stmt.mem_allOccurrences.mp member
  obtain ⟨read, noted, inside, reads⟩ := Parsed.trees_ofTokens _ among
  exact (reads.origins occurrence member).widen inside

theorem Parsed.origins_ofTokens (tokens : List Token) :
    Grammar.Origins tokens (Stmt.allOccurrences (Parsed.ofTokens tokens).statements) :=
  (Parsed.origins_inside tokens).widen (List.takeWhile_prefix _).isInfix

theorem Parsed.origin_of_node {tokens : List Token} {expr : Expr}
    (parsed : expr ∈ Stmt.allNodes (Parsed.ofTokens tokens).statements) :
    Grammar.Origin (tokens.takeWhile fun token => !token.isEnd) expr := by
  obtain ⟨occurrence, among, inside⟩ := List.mem_flatMap.mp parsed
  exact (Parsed.origins_inside tokens occurrence among).nodes expr inside

end TreeWalk
