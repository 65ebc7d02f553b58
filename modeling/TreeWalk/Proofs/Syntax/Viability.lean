import TreeWalk.Proofs.Syntax.Confinement
import TreeWalk.Proofs.Syntax.Relaxed

/-!
# Rules follow the grammar

A rule that succeeds has read a word of its form.  A rule that fails has read the front of one: up
to the place of the failure nothing is wrong, since every form has a word with which to go on.
`Follows` states both, and a rule that is composed of others follows the form composed of theirs.
-/

set_option autoImplicit false

namespace TreeWalk

open Grammar
open Grammar.Form
open TreeWalk.Parser (Passed)
open Stateful (bind_eq_error bind_eq_ok bind_of_ok)

/-- From here on the rule reads the rest of a word of the form behind these kinds of tokens, or the
front of the rest if it fails. -/
structure FollowsAt {α : Type} (parser : Parser) (front : List Kind) (form : Form)
    (rule : Rule α) : Prop where
  reads {value : α} {after : Parser} (run : rule parser = .ok value after) :
    ∃ read noted, Passed parser read noted after ∧
      Derives relaxed form (front ++ read.map Token.kind)
  opens {error : SyntaxError} {after : Parser} (run : rule parser = .error error after) :
    ∃ read noted, Passed parser read noted after ∧ Opens form (front ++ read.map Token.kind)

def Follows {α : Type} (front : List Kind) (form : Form) (rule : Rule α) : Prop :=
  ∀ parser : Parser, parser.ending.kind = .eof → FollowsAt parser front form rule

namespace Follows

variable {α β : Type} {front : List Kind} {form first second wider : Form}

theorem mono {rule : Rule α} (follows : Follows front form rule)
    (widens : ∀ word, Derives relaxed form word → Derives relaxed wider word) :
    Follows front wider rule := by
  intro parser last
  constructor
  · intro value after run
    obtain ⟨read, noted, passed, derives⟩ := (follows parser last).reads run
    exact ⟨read, noted, passed, widens _ derives⟩
  · intro error after run
    obtain ⟨read, noted, passed, opens⟩ := (follows parser last).opens run
    exact ⟨read, noted, passed, opens.mono widens⟩

theorem ofSymbol {symbol : Symbol} {rule : Rule α} (follows : Follows front (relaxed symbol) rule) :
    Follows front (phrase symbol) rule :=
  follows.mono fun _ => .phrase

theorem pure {value : α} (derives : Derives relaxed form front) :
    Follows front form (Pure.pure value : Rule α) := by
  intro parser _
  constructor
  · intro value after run
    cases run
    exact ⟨[], [], .refl parser, by simpa using derives⟩
  · intro error after run
    cases run

theorem fail {cause : SyntaxCause} (opens : Opens form front) :
    Follows front form (Rule.fail cause : Rule α) := by
  intro parser _
  constructor
  · intro value after run
    cases run
  · intro error after run
    cases run
    exact ⟨[], [], .refl parser, by simpa using opens⟩

theorem behind {rule : Rule α} (left : Derives relaxed first front)
    (follows : Follows [] second rule) : Follows front (both first second) rule := by
  intro parser last
  constructor
  · intro value after run
    obtain ⟨read, noted, passed, derives⟩ := (follows parser last).reads run
    exact ⟨read, noted, passed, .both left derives⟩
  · intro error after run
    obtain ⟨read, noted, passed, opens⟩ := (follows parser last).opens run
    exact ⟨read, noted, passed, opens.behind left⟩

theorem bind {rule : Rule α} {next : α → Rule β} (early : Follows front first rule)
    (late : ∀ value, Follows [] second (next value)) :
    Follows front (both first second) (rule >>= next) := by
  intro parser last
  constructor
  · intro value after run
    obtain ⟨result, middle, head, tail⟩ := bind_eq_ok.mp run
    obtain ⟨read, noted, passed, derives⟩ := (early parser last).reads head
    obtain ⟨again, later, moved, derives'⟩ := (late result middle (passed.last last)).reads tail
    refine ⟨_, _, passed.trans moved, ?_⟩
    rw [List.map_append, ← List.append_assoc]
    exact .both derives derives'
  · intro error after run
    rcases bind_eq_error.mp run with failed | ⟨result, middle, head, tail⟩
    · obtain ⟨read, noted, passed, opens⟩ := (early parser last).opens failed
      exact ⟨read, noted, passed, opens.both second⟩
    · obtain ⟨read, noted, passed, derives⟩ := (early parser last).reads head
      obtain ⟨again, later, moved, opens⟩ := (late result middle (passed.last last)).opens tail
      refine ⟨_, _, passed.trans moved, ?_⟩
      rw [List.map_append, ← List.append_assoc]
      exact opens.behind derives

/-- The rule consumes nothing and cannot fail. -/
def Silent (rule : Rule α) : Prop :=
  ∀ parser, ∃ value noted after, rule parser = .ok value after ∧ Passed parser [] noted after

theorem silent_pure (value : α) : Silent (Pure.pure value : Rule α) :=
  fun parser => ⟨value, [], parser, rfl, .refl parser⟩

theorem silent_assigned (target : Expr) (equals : Token) (value : Expr) :
    Silent (Rule.assigned target equals value) := by
  intro parser
  unfold Rule.assigned
  split
  · exact ⟨_, [], parser, rfl, .refl parser⟩
  · exact ⟨_, [_], _, rfl, rfl, rfl⟩

theorem finish {rule : Rule α} {next : α → Rule β} (early : Follows front form rule)
    (late : ∀ value, Silent (next value)) : Follows front form (rule >>= next) := by
  intro parser last
  constructor
  · intro value after run
    obtain ⟨result, middle, head, tail⟩ := bind_eq_ok.mp run
    obtain ⟨read, noted, passed, derives⟩ := (early parser last).reads head
    obtain ⟨other, later, stop, silent, moved⟩ := late result middle
    rw [silent] at tail
    cases tail
    refine ⟨_, _, passed.trans moved, ?_⟩
    rwa [List.append_nil]
  · intro error after run
    rcases bind_eq_error.mp run with failed | ⟨result, middle, head, tail⟩
    · exact (early parser last).opens failed
    · obtain ⟨other, later, stop, silent, -⟩ := late result middle
      rw [silent] at tail
      cases tail

theorem map (change : α → β) {rule : Rule α} (follows : Follows front form rule) :
    Follows front form (change <$> rule) := by
  rw [map_eq_pure_bind]
  exact follows.finish fun value => silent_pure (change value)

theorem look {rule : Rule α} {next : α → Rule β} {parser : Parser} {value : α}
    (looked : rule parser = .ok value parser) (late : FollowsAt parser front form (next value)) :
    FollowsAt parser front form (rule >>= next) := by
  constructor
  · intro result after run
    rw [bind_of_ok next looked] at run
    exact late.reads run
  · intro error after run
    rw [bind_of_ok next looked] at run
    exact late.opens run

theorem given {value : α} {next : α → Rule β} (follows : Follows front form (next value)) :
    Follows front form (Pure.pure value >>= next) :=
  fun parser last => look rfl (follows parser last)

theorem bound {next : Nat → Rule α} (late : ∀ count, Follows front form (next count)) :
    Follows front form (Rule.bound >>= next) :=
  fun parser last => look rfl (late _ parser last)

theorem accept {kinds : List Kind} {next : Option Token → Rule α}
    (taken : ∀ token : Token, token.kind ∈ kinds →
      Follows (front ++ [token.kind]) form (next (some token)))
    (left : Follows front form (next none)) :
    Follows front form (Rule.accept? kinds >>= next) := by
  intro parser last
  constructor
  · intro value after run
    obtain ⟨accepted, middle, head, tail⟩ := bind_eq_ok.mp run
    rcases Rule.accept?_ok head with ⟨rfl, rfl⟩ | ⟨token, rfl, member, passed⟩
    · exact (left middle last).reads tail
    · obtain ⟨read, noted, moved, derives⟩ :=
        (taken token member middle (passed.last last)).reads tail
      exact ⟨_, _, passed.trans moved, by simpa using derives⟩
  · intro error after run
    rcases bind_eq_error.mp run with failed | ⟨accepted, middle, head, tail⟩
    · exact absurd failed Rule.accept?_not_error
    · rcases Rule.accept?_ok head with ⟨rfl, rfl⟩ | ⟨token, rfl, member, passed⟩
      · exact (left middle last).opens tail
      · obtain ⟨read, noted, moved, opens⟩ :=
          (taken token member middle (passed.last last)).opens tail
        exact ⟨_, _, passed.trans moved, by simpa using opens⟩

theorem expect (kind : Kind) (context : String) :
    Follows [] (terminal kind) (Rule.expect kind context) := by
  refine accept (fun token member => pure ?_) (fail (opens_nil _))
  rw [List.mem_singleton.mp member]
  exact .terminal kind

theorem expectName : Follows [] (terminal .identifier) Rule.expectName := by
  refine accept (fun token member => pure ?_) (fail (opens_nil _))
  rw [List.mem_singleton.mp member]
  exact .terminal .identifier

/-! ## Expressions -/

theorem chain (rung : Rung) {operand : Rule Expr} {kind : Kind} {others : List Kind}
    {symbol : Symbol} (operators : rung.operators = kind :: others)
    (follows : Follows [] (phrase symbol) operand) (count : Nat) (left : Expr) :
    Follows []
      (repeated (sequence (oneOf (terminal kind) (others.map terminal)) [phrase symbol]))
      (Rule.chain rung operand count left) := by
  induction count generalizing left with
  | zero => exact pure .done
  | succ count ih =>
      refine accept (fun token member => ?_) (pure .done)
      rw [operators] at member
      have next := (behind (.oneOf_terminals member) follows).bind fun right =>
        ih (rung.node left token right)
      exact next.mono fun _ => .again

theorem climb_step {symbol : Symbol} {chain : Chain} (level : chain? symbol = some chain)
    {operand : Rule Expr}
    (follows : Follows [] (phrase chain.operand) (Rule.climb (rungs chain.operand) operand)) :
    Follows [] (phrase symbol) (Rule.climb (rungs symbol) operand) := by
  obtain ⟨first, others, operators, rule⟩ := chained_of_chain? level
  rw [← relaxed_of_chain? level] at rule
  have whole := follows.bind fun left => bound fun count =>
    Follows.chain ⟨chain.operators, chain.node⟩ operators follows count left
  rw [rungs_of_chain? level]
  refine whole.mono fun word derives => .phrase ?_
  rw [rule]
  exact derives

theorem climb {operand : Rule Expr} (follows : Follows [] (phrase .unary) operand) :
    Follows [] (phrase .logicOr) (Rule.climb Rung.ladder operand) := by
  have factor := climb_step (show chain? .factor = some _ from rfl) follows
  have term := climb_step (show chain? .term = some _ from rfl) factor
  have comparison := climb_step (show chain? .comparison = some _ from rfl) term
  have equality := climb_step (show chain? .equality = some _ from rfl) comparison
  have logicAnd := climb_step (show chain? .logicAnd = some _ from rfl) equality
  exact climb_step (show chain? .logicOr = some _ from rfl) logicAnd

theorem prefixed {operand : Rule Expr} (follows : Follows [] (phrase .primary) operand)
    (count : Nat) : Follows [] (phrase .unary) (Rule.prefixed operand count) := by
  have plain : Follows [] (phrase .unary) operand :=
    ofSymbol (follows.mono fun _ => .second)
  induction count with
  | zero => exact plain
  | succ count ih =>
      refine accept (fun operator member => ?_) plain
      have rest := ih.finish fun right => silent_pure (Expr.unary operator right)
      exact ofSymbol ((behind (.oneOf_terminals member) rest).mono fun _ => .first)

theorem leaf {kind : Kind} (member : kind ∈ leafKinds) :
    Derives relaxed (phrase .primary) [kind] := by
  refine .phrase ?_
  simp only [leafKinds, List.mem_cons, List.not_mem_nil, or_false] at member
  rcases member with rfl | rfl | rfl | rfl | rfl
  · exact .first (.terminal _)
  · exact .second (.first (.terminal _))
  · exact .second (.second (.first (.terminal _)))
  · exact .second (.second (.second (.first (.terminal _))))
  · exact .second (.second (.second (.second (.first (.terminal _)))))

theorem stepped {next : Unit → Rule α} {parser : Parser} {token : Token} {rest : List Token}
    (last : parser.ending.kind = .eof) (ahead : parser.ahead = token :: rest)
    (late : Follows [token.kind] form (next ())) :
    FollowsAt parser [] form (Rule.step >>= next) := by
  have passed := Passed.step ahead
  have tail := late parser.step (passed.last last)
  constructor
  · intro value after run
    obtain ⟨read, noted, moved, derives⟩ := tail.reads run
    exact ⟨_, _, passed.trans moved, derives⟩
  · intro error after run
    obtain ⟨read, noted, moved, opens⟩ := tail.opens run
    exact ⟨_, _, passed.trans moved, opens⟩

theorem primary {inner : Rule Expr} (follows : Follows [] (phrase .expression) inner) :
    Follows [] (phrase .primary) (Rule.primary inner) := by
  intro parser last
  refine look (rfl : Rule.peek parser = .ok parser.next parser) ?_
  cases found : Rule.leafValue? parser.next with
  | some value =>
      have carries := leafValue?_eq_some_iff.mp found
      obtain ⟨rest, ahead⟩ := Rule.next_ahead last carries.kind_ne_eof
      exact stepped last ahead (pure (leaf carries.kind_mem))
  | none =>
      dsimp only
      generalize same : parser.next.kind = kind
      split
      · obtain ⟨rest, ahead⟩ := Rule.next_ahead last (by simp [same])
        refine stepped last ahead (pure (.phrase ?_))
        rw [same]
        exact .second (.second (.second (.second (.second (.first (.terminal _))))))
      · obtain ⟨rest, ahead⟩ := Rule.next_ahead last (by simp [same])
        refine stepped last ahead ?_
        have closed := follows.bind fun expr =>
          (expect .rightParen "after expression").finish fun _ => silent_pure (Expr.grouping expr)
        rw [same]
        exact ofSymbol ((behind (.terminal .leftParen) closed).mono fun _ derives =>
          .second (.second (.second (.second (.second (.second derives))))))
      · exact fail (opens_nil _) parser last

theorem expressionWithin (depth : Nat) :
    Follows [] (phrase .assignment) (Rule.expressionWithin depth) := by
  induction depth with
  | zero => exact fail (opens_nil _)
  | succ depth ih =>
      have inner : Follows [] (phrase .expression) (Rule.expressionWithin depth) := ofSymbol ih
      have operand : Follows [] (phrase .unary) (operandWithin depth) :=
        bound (prefixed (primary inner))
      have assigns (target : Expr) :
          Follows [] (optional (sequence (terminal .equal) [phrase .assignment]))
            (Rule.assignment depth target) := by
        refine accept (fun equals member => ?_) (pure .absent)
        have value := ih.finish fun value => silent_assigned target equals value
        rw [List.mem_singleton.mp member]
        exact (behind (.terminal .equal) value).mono fun _ => .present
      exact ofSymbol ((climb operand).bind assigns)

theorem expression : Follows [] (phrase .expression) Rule.expression :=
  bound fun count => ofSymbol (expressionWithin count)

/-! ## Statements -/

theorem expressionStatement : Follows [] (phrase .exprStmt) Rule.expressionStatement :=
  ofSymbol (expression.bind fun expr =>
    (expect .semicolon "after value").finish fun _ => silent_pure (Stmt.expression expr))

theorem printStatement : Follows [.keyPrint] (phrase .printStmt) Rule.printStatement :=
  ofSymbol (behind (.terminal .keyPrint) (expression.bind fun expr =>
    (expect .semicolon "after value").finish fun _ => silent_pure (Stmt.print expr)))

theorem variableDeclaration : Follows [.keyVar] (phrase .varDecl) Rule.variableDeclaration := by
  have close (name : Token) (initializer : Option Expr) :
      Follows [] (terminal .semicolon)
        (Rule.expect .semicolon "after variable declaration" >>= fun _ =>
          Pure.pure (Stmt.var name initializer)) :=
    (expect _ _).finish fun _ => silent_pure _
  refine ofSymbol (behind (.terminal .keyVar) (expectName.bind fun name => accept ?_ ?_))
  · intro equals member
    rw [List.mem_singleton.mp member]
    have value := (behind (.terminal .equal) expression).bind fun value =>
      given (close name (some value))
    exact value.mono fun _ => .include
  · exact (given (close name none)).mono fun _ => .omit

theorem optionalClause (endsWith : Kind) (context : String) :
    Follows [] (both (optional (phrase .expression)) (terminal endsWith))
      (Rule.optionalClause endsWith context) := by
  have close (clause : Option Expr) :
      Follows [] (terminal endsWith)
        (Rule.expect endsWith context >>= fun _ => Pure.pure clause) :=
    (expect _ _).finish fun _ => silent_pure clause
  intro parser last
  refine look rfl ?_
  split
  · exact (given (close none)).mono (fun _ => .omit) parser last
  · exact ((expression.map some).bind close).mono (fun _ => .include) parser last

theorem forInitializer :
    Follows [] (oneOf (phrase .varDecl) [phrase .exprStmt, terminal .semicolon])
      Rule.forInitializer := by
  refine accept (fun token member => ?_) ?_
  · simp only [List.mem_cons, List.not_mem_nil, or_false] at member
    rcases member with same | same
    · simp only [same, if_true]
      exact pure (.second (.second (.terminal .semicolon)))
    · simp only [same, reduceCtorEq, if_false]
      exact (variableDeclaration.map some).mono fun _ => .first
  · exact (expressionStatement.map some).mono fun _ derives => .second (.first derives)

section Nested

variable {statement : Rule Stmt} (nested : Follows [] (phrase .statement) statement)

include nested

theorem declaration : Follows [] (phrase .declaration) (Rule.declaration statement) := by
  refine ofSymbol (accept (fun token member => ?_) (nested.mono fun _ => .second))
  rw [List.mem_singleton.mp member]
  exact variableDeclaration.mono fun _ => .first

theorem declarations (count : Nat) :
    Follows [] (repeated (phrase .declaration)) (Rule.declarations statement count) := by
  induction count with
  | zero => exact pure .done
  | succ count ih =>
      have more := (declaration nested).bind fun first =>
        ih.finish fun rest => silent_pure (first :: rest)
      intro parser last
      refine look rfl (look rfl ?_)
      split
      · exact pure .done parser last
      · exact more.mono (fun _ => .again) parser last

theorem blockBody : Follows [.leftBrace] (phrase .block) (Rule.blockBody statement) :=
  ofSymbol (behind (.terminal .leftBrace) (bound fun count =>
    (declarations nested count).bind fun body =>
      (expect .rightBrace "after block").finish fun _ => silent_pure body))

theorem ifStatement : Follows [.keyIf] (phrase .ifStmt) (Rule.ifStatement statement) := by
  refine ofSymbol (behind (.terminal .keyIf) ((expect _ _).bind fun _ => expression.bind
    fun condition => (expect _ _).bind fun _ => nested.bind fun onTrue => accept ?_ ?_))
  · intro otherwise member
    rw [List.mem_singleton.mp member]
    have taken := behind (.terminal .keyElse) (nested.finish fun onFalse =>
      silent_pure (Stmt.branch condition onTrue (some onFalse)))
    exact taken.mono fun _ => .present
  · exact pure .absent

theorem whileStatement : Follows [.keyWhile] (phrase .whileStmt) (Rule.whileStatement statement) :=
  ofSymbol (behind (.terminal .keyWhile) ((expect _ _).bind fun _ => expression.bind
    fun condition => (expect _ _).bind fun _ => nested.finish fun body =>
      silent_pure (Stmt.loop condition body)))

theorem forStatement (keyword : Token) :
    Follows [.keyFor] (phrase .forStmt) (Rule.forStatement statement keyword) := by
  refine ofSymbol (behind (.terminal .keyFor) ((expect _ _).bind fun _ => forInitializer.bind
    fun initializer => ?_))
  have increment (condition : Option Expr) :=
    (optionalClause .rightParen "after for clauses").bind fun increment => nested.finish fun body =>
      silent_pure (Rule.forLoop keyword initializer condition increment body)
  have clauses := (optionalClause .semicolon "after loop condition").bind fun condition =>
    (increment condition).mono fun _ => .regroup
  exact clauses.mono fun _ => .regroup

end Nested

theorem statementWithin (depth : Nat) :
    Follows [] (phrase .statement) (Rule.statementWithin depth) := by
  have plain : Follows [] (phrase .statement) Rule.expressionStatement :=
    ofSymbol (expressionStatement.mono fun _ => .first)
  induction depth with
  | zero => exact plain
  | succ depth ih =>
      refine accept (fun token member => ofSymbol ?_) plain
      simp only [List.mem_cons, List.not_mem_nil, or_false] at member
      rcases member with same | same | same | same | same
      · simp only [same]
        exact printStatement.mono fun _ derives => .second (.first derives)
      · simp only [same]
        exact ((blockBody ih).map Stmt.block).mono fun _ derives =>
          .second (.second (.second (.second (.second derives))))
      · simp only [same]
        exact (ifStatement ih).mono fun _ derives => .second (.second (.first derives))
      · simp only [same]
        exact (whileStatement ih).mono fun _ derives =>
          .second (.second (.second (.first derives)))
      · simp only [same]
        exact (forStatement ih token).mono fun _ derives =>
          .second (.second (.second (.second (.first derives))))

theorem topDeclaration : Follows [] (phrase .declaration) Rule.topDeclaration :=
  bound fun count => declaration (statementWithin count)

end Follows

end TreeWalk
