import TreeWalk.Proofs.Syntax.ExpressionRules
import TreeWalk.Syntax.Statement

/-!
# Reading statements

The rules for statements and declarations, in the same two directions.  What can follow a
statement matters only when it is open: then an `else` would continue it.
-/

set_option autoImplicit false

namespace TreeWalk.Grammar

open TreeWalk.Parser (Passed Stops)
open Rule (Accepts Describes)

/-! ## Programs and their parts -/

theorem ReadsProgram.nil : ReadsProgram [] [] [] := ⟨[], by simp, rfl, rfl, rfl⟩

theorem ReadsProgram.cons {tokens more : List Token} {first : Stmt} {rest : List Stmt}
    {noted later : List SyntaxError} (head : ReadsStmt .declaration tokens first noted)
    (tail : ReadsProgram more rest later) :
    ReadsProgram (tokens ++ more) (first :: rest) (later ++ noted) := by
  obtain ⟨parts, each, rfl, rfl, rfl⟩ := tail
  refine ⟨⟨tokens, first, noted⟩ :: parts, ?_, rfl, rfl, ?_⟩
  · intro part member
    rcases List.mem_cons.mp member with rfl | member
    · exact head
    · exact each part member
  · simp [Part.notedIn]

/-! ## What the rules read -/

/-- Behind these tokens the rule reads the rest of a statement, and of an open one never in front
of an `else`. -/
def ReadsStatements (front : List Token) (rule : Rule Stmt) : Prop :=
  ∀ before result after, before.ending.kind = .eof → rule before = .ok result after →
    ∃ isOpen read noted, Passed before read noted after ∧
      ReadsStmt (.statement isOpen) (front ++ read) result noted ∧
        (isOpen = true → Stops [.keyElse] after.ahead)

theorem readsStatements_of_describes {front : List Token} {rule : Rule Stmt}
    (reads : Describes rule fun read result noted =>
      ReadsStmt (.statement false) (front ++ read) result noted) : ReadsStatements front rule := by
  intro before result after last run
  obtain ⟨tokens, noted, passed, inner⟩ := reads _ _ _ last run
  exact ⟨false, tokens, noted, passed, inner, by simp⟩

theorem expressionStatement_describes :
    Describes Rule.expressionStatement ReadsExprStmt := by
  intro before result after last run
  obtain ⟨expr, middle, exprRun, ended⟩ := Stateful.bind_eq_ok.mp run
  obtain ⟨semicolon, stop, endRun, finish⟩ := Stateful.bind_eq_ok.mp ended
  cases finish
  obtain ⟨tokens, noted, passed, inner⟩ := expression_describes _ _ _ last exprRun
  obtain ⟨kind, moved⟩ := Rule.expect_ok endRun
  exact ⟨_, _, passed.trans moved, .intro inner kind⟩

theorem printStatement_reads {keyword : Token} (keywordKind : keyword.kind = .keyPrint) :
    ReadsStatements [keyword] Rule.printStatement := by
  refine readsStatements_of_describes ?_
  intro before result after last run
  obtain ⟨expr, middle, exprRun, ended⟩ := Stateful.bind_eq_ok.mp run
  obtain ⟨semicolon, stop, endRun, finish⟩ := Stateful.bind_eq_ok.mp ended
  cases finish
  obtain ⟨tokens, noted, passed, inner⟩ := expression_describes _ _ _ last exprRun
  obtain ⟨kind, moved⟩ := Rule.expect_ok endRun
  exact ⟨_, _, passed.trans moved, .print keywordKind inner kind⟩

theorem variableDeclaration_describes {keyword : Token} (keywordKind : keyword.kind = .keyVar) :
    Describes Rule.variableDeclaration fun read result noted =>
      ReadsVar (keyword :: read) result noted := by
  intro before result after last run
  obtain ⟨name, named, nameRun, behindName⟩ := Stateful.bind_eq_ok.mp run
  obtain ⟨accepted, middle, acceptRun, chosen⟩ := Stateful.bind_eq_ok.mp behindName
  obtain ⟨nameKind, passed⟩ := Rule.expectName_ok nameRun
  rcases Rule.accept?_ok acceptRun with ⟨rfl, rfl⟩ | ⟨equals, rfl, equalsKind, moved⟩
  · obtain ⟨initializer, behind, initializerRun, ended⟩ := Stateful.bind_eq_ok.mp chosen
    cases initializerRun
    obtain ⟨semicolon, stop, endRun, finish⟩ := Stateful.bind_eq_ok.mp ended
    cases finish
    obtain ⟨kind, closed⟩ := Rule.expect_ok endRun
    exact ⟨_, _, passed.trans closed, .bare keywordKind nameKind kind⟩
  · obtain ⟨value, valued, valueRun, initialized⟩ := Stateful.bind_eq_ok.mp chosen
    obtain ⟨initializer, behind, initializerRun, ended⟩ := Stateful.bind_eq_ok.mp initialized
    cases initializerRun
    obtain ⟨semicolon, stop, endRun, finish⟩ := Stateful.bind_eq_ok.mp ended
    cases finish
    obtain ⟨kind, closed⟩ := Rule.expect_ok endRun
    obtain ⟨tokens, noted, went, inner⟩ :=
      expression_describes _ _ _ (moved.last (passed.last last)) valueRun
    refine ⟨_, _, passed.trans (moved.trans (went.trans closed)), ?_⟩
    simpa using ReadsVar.initialized keywordKind nameKind (List.mem_singleton.mp equalsKind)
      inner kind

theorem declaration_describes {statement : Rule Stmt} (reads : ReadsStatements [] statement) :
    Describes (Rule.declaration statement) (ReadsStmt .declaration) := by
  intro before result after last run
  obtain ⟨accepted, middle, acceptRun, chosen⟩ := Stateful.bind_eq_ok.mp run
  rcases Rule.accept?_ok acceptRun with ⟨rfl, rfl⟩ | ⟨keyword, rfl, kind, passed⟩
  · obtain ⟨isOpen, tokens, noted, passed, inner, -⟩ := reads _ _ _ last chosen
    exact ⟨tokens, noted, passed, .statement inner⟩
  · obtain ⟨tokens, noted, moved, declares⟩ :=
      variableDeclaration_describes (List.mem_singleton.mp kind) _ _ _ (passed.last last) chosen
    refine ⟨_, _, passed.trans moved, ?_⟩
    rw [List.append_nil]
    exact .var declares

theorem declarations_describes {statement : Rule Stmt} (reads : ReadsStatements [] statement)
    (count : Nat) : Describes (Rule.declarations statement count) ReadsProgram := by
  induction count with
  | zero =>
      intro before result after last run
      cases run
      exact ⟨[], [], .refl _, .nil⟩
  | succ count ih =>
      intro before result after last run
      obtain ⟨closing, same, seesRun, peeked⟩ := Stateful.bind_eq_ok.mp run
      cases seesRun
      obtain ⟨token, same, peekRun, chosen⟩ := Stateful.bind_eq_ok.mp peeked
      cases peekRun
      split at chosen
      · cases chosen
        exact ⟨[], [], .refl _, .nil⟩
      · obtain ⟨first, middle, firstRun, others⟩ := Stateful.bind_eq_ok.mp chosen
        obtain ⟨rest, stop, restRun, finish⟩ := Stateful.bind_eq_ok.mp others
        cases finish
        obtain ⟨tokens, noted, passed, head⟩ := declaration_describes reads _ _ _ last firstRun
        obtain ⟨more, later, moved, tail⟩ := ih _ _ _ (passed.last last) restRun
        exact ⟨_, _, passed.trans moved, .cons head tail⟩

theorem block_reads {statement : Rule Stmt} (reads : ReadsStatements [] statement)
    {left : Token} (leftKind : left.kind = .leftBrace) :
    ReadsStatements [left] (.block <$> Rule.blockBody statement) := by
  refine readsStatements_of_describes ?_
  intro before result after last run
  obtain ⟨body, blockRun, rfl⟩ := Stateful.map_eq_ok.mp run
  obtain ⟨count, same, boundRun, bodyRun⟩ := Stateful.bind_eq_ok.mp blockRun
  cases boundRun
  obtain ⟨body, middle, declarationsRun, closing⟩ := Stateful.bind_eq_ok.mp bodyRun
  obtain ⟨right, stop, closeRun, finish⟩ := Stateful.bind_eq_ok.mp closing
  cases finish
  obtain ⟨tokens, noted, passed, parts, each, rfl, rfl, rfl⟩ :=
    declarations_describes reads _ _ _ _ last declarationsRun
  obtain ⟨kind, moved⟩ := Rule.expect_ok closeRun
  exact ⟨_, _, passed.trans moved, .block leftKind each kind⟩

theorem condition_ok {α : Type} {opens closes : String} {next : Expr → Rule α}
    {before after : Parser} {result : α} (last : before.ending.kind = .eof)
    (run : (do
      let _ ← Rule.expect .leftParen opens
      let condition ← Rule.expression
      let _ ← Rule.expect .rightParen closes
      next condition) before = .ok result after) :
    ∃ left right test condition noted closed, left.kind = .leftParen ∧
      right.kind = .rightParen ∧ Reads .expression test condition noted ∧
        Passed before ([left] ++ (test ++ [right])) ([] ++ noted ++ []) closed ∧
          next condition closed = .ok result after := by
  obtain ⟨left, opened, leftRun, testing⟩ := Stateful.bind_eq_ok.mp run
  obtain ⟨condition, tested, testRun, closing⟩ := Stateful.bind_eq_ok.mp testing
  obtain ⟨right, closed, rightRun, behind⟩ := Stateful.bind_eq_ok.mp closing
  obtain ⟨leftKind, enter⟩ := Rule.expect_ok leftRun
  obtain ⟨test, noted, went, reads⟩ := expression_describes _ _ _ (enter.last last) testRun
  obtain ⟨rightKind, leave⟩ := Rule.expect_ok rightRun
  exact ⟨left, right, test, condition, noted, closed, leftKind, rightKind, reads,
    enter.trans (went.trans leave), behind⟩

theorem ifStatement_reads {statement : Rule Stmt} (reads : ReadsStatements [] statement)
    {keyword : Token} (keywordKind : keyword.kind = .keyIf) :
    ReadsStatements [keyword] (Rule.ifStatement statement) := by
  intro before result after last run
  obtain ⟨left, right, test, condition, early, closed, leftKind, rightKind, tested, front,
    branching⟩ := condition_ok last run
  obtain ⟨onTrue, taken, takenRun, behind⟩ := Stateful.bind_eq_ok.mp branching
  obtain ⟨accepted, middle, acceptRun, chosen⟩ := Stateful.bind_eq_ok.mp behind
  obtain ⟨isOpen, body, late, branch, inner, stops⟩ := reads _ _ _ (front.last last) takenRun
  cases accepted with
  | none =>
      cases chosen
      have other := Rule.stops_of_accept? acceptRun
      rcases Rule.accept?_ok acceptRun with ⟨-, rfl⟩ | ⟨_, same, _⟩
      · refine ⟨true, _, _, front.trans branch, ?_, fun _ => other⟩
        simpa using ReadsStmt.ifOnly keywordKind leftKind tested rightKind inner
      · cases same
  | some otherwise =>
      obtain ⟨onFalse, refused, refusedRun, finish⟩ := Stateful.bind_eq_ok.mp chosen
      cases finish
      rcases Rule.accept?_ok acceptRun with ⟨same, -⟩ | ⟨_, same, kind, skip⟩
      · cases same
      · cases same
        have otherwiseKind := List.mem_singleton.mp kind
        cases isOpen with
        | true =>
            have other := stops rfl otherwise (by simp [skip.ahead])
            exact absurd kind other
        | false =>
            have whole := front.trans (branch.trans skip)
            obtain ⟨isOpen, alternative, final, last, refused, stops⟩ :=
              reads _ _ _ (whole.last last) refusedRun
            refine ⟨isOpen, _, _, whole.trans last, ?_, stops⟩
            simpa using ReadsStmt.ifElse keywordKind leftKind tested rightKind inner
              otherwiseKind refused

theorem whileStatement_reads {statement : Rule Stmt} (reads : ReadsStatements [] statement)
    {keyword : Token} (keywordKind : keyword.kind = .keyWhile) :
    ReadsStatements [keyword] (Rule.whileStatement statement) := by
  intro before result after last run
  obtain ⟨left, right, test, condition, early, closed, leftKind, rightKind, tested, front,
    looping⟩ := condition_ok last run
  obtain ⟨body, stop, bodyRun, finish⟩ := Stateful.bind_eq_ok.mp looping
  cases finish
  obtain ⟨isOpen, body, late, round, inner, stops⟩ := reads _ _ _ (front.last last) bodyRun
  refine ⟨isOpen, _, _, front.trans round, ?_, stops⟩
  simpa using ReadsStmt.whileLoop keywordKind leftKind tested rightKind inner

theorem forInitializer_describes : Describes Rule.forInitializer ReadsInitializer := by
  intro before result after last run
  obtain ⟨accepted, middle, acceptRun, chosen⟩ := Stateful.bind_eq_ok.mp run
  rcases Rule.accept?_ok acceptRun with ⟨rfl, rfl⟩ | ⟨token, rfl, kind, passed⟩
  · obtain ⟨stmt, stmtRun, rfl⟩ := Stateful.map_eq_ok.mp chosen
    obtain ⟨tokens, noted, passed, inner⟩ := expressionStatement_describes _ _ _ last stmtRun
    exact ⟨tokens, noted, passed, .expression inner⟩
  · dsimp only at chosen
    split at chosen
    · next semicolonKind =>
        cases chosen
        exact ⟨_, _, passed, .absent semicolonKind⟩
    · next other =>
        have keywordKind : token.kind = .keyVar := by simpa [other] using kind
        obtain ⟨stmt, stmtRun, rfl⟩ := Stateful.map_eq_ok.mp chosen
        obtain ⟨tokens, noted, moved, declares⟩ :=
          variableDeclaration_describes keywordKind _ _ _ (passed.last last) stmtRun
        refine ⟨_, _, passed.trans moved, ?_⟩
        rw [List.append_nil]
        exact .var declares

theorem optionalClause_ok {endsWith : Kind} {context : String} {before after : Parser}
    {clause : Option Expr} (last : before.ending.kind = .eof)
    (run : Rule.optionalClause endsWith context before = .ok clause after) :
    ∃ read ending noted, Passed before (read ++ [ending]) noted after ∧
      ReadsOptional read clause noted ∧ ending.kind = endsWith := by
  obtain ⟨absent, same, seesRun, chosen⟩ := Stateful.bind_eq_ok.mp run
  cases seesRun
  split at chosen
  · obtain ⟨value, middle, clauseRun, ended⟩ := Stateful.bind_eq_ok.mp chosen
    cases clauseRun
    obtain ⟨ending, stop, endRun, finish⟩ := Stateful.bind_eq_ok.mp ended
    cases finish
    obtain ⟨kind, closed⟩ := Rule.expect_ok endRun
    exact ⟨[], ending, _, closed, .absent, kind⟩
  · obtain ⟨value, middle, clauseRun, ended⟩ := Stateful.bind_eq_ok.mp chosen
    obtain ⟨ending, stop, endRun, finish⟩ := Stateful.bind_eq_ok.mp ended
    cases finish
    obtain ⟨kind, closed⟩ := Rule.expect_ok endRun
    obtain ⟨expr, exprRun, rfl⟩ := Stateful.map_eq_ok.mp clauseRun
    obtain ⟨tokens, noted, passed, inner⟩ := expression_describes _ _ _ last exprRun
    exact ⟨tokens, ending, _, passed.trans closed, .present inner, kind⟩

theorem forLoop_eq (keyword : Token) (initializer : Option Stmt)
    (condition increment : Option Expr) (body : Stmt) :
    Rule.forLoop keyword initializer condition increment body =
      withInitializer
        (.loop (condition.getD (.literal (.boolean true) keyword.span))
          (withIncrement body increment))
        initializer := by
  cases initializer <;> cases increment <;> rfl

/-- Behind its keyword a `for` statement has these clauses and this body. -/
inductive ReadsFor (isOpen : Bool) (initializer : Option Stmt) (condition increment : Option Expr)
    (round : Stmt) : List Token → List SyntaxError → Prop where
  | intro {left middle right : Token} {first test last body : List Token}
      {noted₁ noted₂ noted₃ noted₄ : List SyntaxError} (leftKind : left.kind = .leftParen)
      (initialized : ReadsInitializer first initializer noted₁)
      (tested : ReadsOptional test condition noted₂) (middleKind : middle.kind = .semicolon)
      (stepped : ReadsOptional last increment noted₃) (rightKind : right.kind = .rightParen)
      (repeated : ReadsStmt (.statement isOpen) body round noted₄) :
      ReadsFor isOpen initializer condition increment round
        (left :: (first ++ (test ++ middle :: (last ++ right :: body))))
        (noted₄ ++ (noted₃ ++ (noted₂ ++ noted₁)))

theorem forStatement_ok {statement : Rule Stmt} (reads : ReadsStatements [] statement)
    {keyword : Token} {before after : Parser} {result : Stmt} (last : before.ending.kind = .eof)
    (run : Rule.forStatement statement keyword before = .ok result after) :
    ∃ isOpen initializer condition increment round read noted, Passed before read noted after ∧
      ReadsFor isOpen initializer condition increment round read noted ∧
      result = Rule.forLoop keyword initializer condition increment round ∧
      (isOpen = true → Stops [.keyElse] after.ahead) := by
  obtain ⟨left, opened, leftRun, starting⟩ := Stateful.bind_eq_ok.mp run
  obtain ⟨initializer, started, startRun, testing⟩ := Stateful.bind_eq_ok.mp starting
  obtain ⟨condition, tested, testRun, stepping⟩ := Stateful.bind_eq_ok.mp testing
  obtain ⟨increment, stepped, stepRun, looping⟩ := Stateful.bind_eq_ok.mp stepping
  obtain ⟨body, stop, bodyRun, finish⟩ := Stateful.bind_eq_ok.mp looping
  cases finish
  obtain ⟨leftKind, enter⟩ := Rule.expect_ok leftRun
  obtain ⟨first, noted₁, start, initialized⟩ :=
    forInitializer_describes _ _ _ (enter.last last) startRun
  have front := enter.trans start
  obtain ⟨test, middle, noted₂, went, tested, middleKind⟩ :=
    optionalClause_ok (front.last last) testRun
  have upTo := front.trans went
  obtain ⟨final, right, noted₃, leave, stepped, rightKind⟩ :=
    optionalClause_ok (upTo.last last) stepRun
  have clauses := upTo.trans leave
  obtain ⟨isOpen, body, noted₄, round, inner, stops⟩ := reads _ _ _ (clauses.last last) bodyRun
  refine ⟨isOpen, _, _, _, _, _, _, ?_,
    .intro leftKind initialized tested middleKind stepped rightKind inner, rfl, stops⟩
  simpa using clauses.trans round

theorem forStatement_reads {statement : Rule Stmt} (reads : ReadsStatements [] statement)
    {keyword : Token} (keywordKind : keyword.kind = .keyFor) :
    ReadsStatements [keyword] (Rule.forStatement statement keyword) := by
  intro before result after last run
  obtain ⟨isOpen, initializer, condition, increment, round, read, noted, passed, inner, rfl, stops⟩ :=
    forStatement_ok reads last run
  refine ⟨isOpen, read, noted, passed, ?_, stops⟩
  rw [forLoop_eq]
  cases inner with
  | intro leftKind initialized tested middleKind stepped rightKind repeated =>
      exact .forLoop keywordKind leftKind initialized tested middleKind stepped rightKind repeated

theorem statementWithin_reads (depth : Nat) : ReadsStatements [] (Rule.statementWithin depth) := by
  have evaluating : ReadsStatements [] Rule.expressionStatement :=
    readsStatements_of_describes (expressionStatement_describes.mono .expression)
  induction depth with
  | zero => exact evaluating
  | succ depth ih =>
      intro before result after last run
      obtain ⟨accepted, middle, acceptRun, chosen⟩ := Stateful.bind_eq_ok.mp run
      rcases Rule.accept?_ok acceptRun with ⟨rfl, rfl⟩ | ⟨keyword, rfl, kind, passed⟩
      · exact evaluating _ _ _ last chosen
      · have behind {rule : Rule Stmt} (reads : ReadsStatements [keyword] rule)
            (ruleRun : rule middle = .ok result after) :
            ∃ isOpen read noted, Passed before read noted after ∧
              ReadsStmt (.statement isOpen) ([] ++ read) result noted ∧
                (isOpen = true → Stops [.keyElse] after.ahead) := by
          obtain ⟨isOpen, tokens, noted, moved, inner, stops⟩ :=
            reads _ _ _ (passed.last last) ruleRun
          refine ⟨isOpen, _, _, passed.trans moved, ?_, stops⟩
          rwa [List.append_nil]
        dsimp only at chosen
        simp only [List.mem_cons, List.not_mem_nil, or_false] at kind
        rcases kind with kind | kind | kind | kind | kind <;> simp only [kind] at chosen
        · exact behind (printStatement_reads kind) chosen
        · exact behind (block_reads ih kind) chosen
        · exact behind (ifStatement_reads ih kind) chosen
        · exact behind (whileStatement_reads ih kind) chosen
        · exact behind (forStatement_reads ih kind) chosen

theorem topDeclaration_describes : Describes Rule.topDeclaration (ReadsStmt .declaration) :=
  .bound fun depth => declaration_describes (statementWithin_reads depth)

/-! ## What the rules accept -/

/-- The kinds of token that a statement begins with. -/
def statementStarts : List Kind :=
  [.keyPrint, .leftBrace, .keyIf, .keyWhile, .keyFor] ++ expressionStarts

theorem ReadsVar.starts {tokens : List Token} {stmt : Stmt} {noted : List SyntaxError}
    (reads : ReadsVar tokens stmt noted) :
    ∃ keyword others, tokens = keyword :: others ∧ keyword.kind = .keyVar := by
  cases reads with
  | bare keywordKind | initialized keywordKind => exact ⟨_, _, rfl, keywordKind⟩

theorem ReadsExprStmt.starts {tokens : List Token} {stmt : Stmt} {noted : List SyntaxError}
    (reads : ReadsExprStmt tokens stmt noted) :
    ∃ token others, tokens = token :: others ∧ token.kind ∈ expressionStarts := by
  cases reads with
  | intro inner =>
      obtain ⟨token, others, rfl, member⟩ := inner.starts
      exact ⟨token, _, rfl, member⟩

theorem ReadsStmt.starts {role : Role} {tokens : List Token} {stmt : Stmt}
    {noted : List SyntaxError} (reads : ReadsStmt role tokens stmt noted) :
    ∃ token others, tokens = token :: others ∧ token.kind ∈ Kind.keyVar :: statementStarts ∧
      (role ≠ .declaration → token.kind ∈ statementStarts) := by
  induction reads with
  | var declares =>
      obtain ⟨keyword, others, rfl, kind⟩ := declares.starts
      exact ⟨keyword, others, rfl, by simp [kind], by simp⟩
  | statement _ ih =>
      obtain ⟨token, others, same, member, -⟩ := ih
      exact ⟨token, others, same, member, by simp⟩
  | expression evaluates =>
      obtain ⟨token, others, rfl, member⟩ := evaluates.starts
      have starts : token.kind ∈ statementStarts := List.mem_append_right _ member
      exact ⟨token, others, rfl, List.mem_cons_of_mem _ starts, fun _ => starts⟩
  | print kind | block kind | ifOnly kind | ifElse kind | whileLoop kind | forLoop kind =>
      exact ⟨_, _, rfl, by simp [kind, statementStarts], by simp [kind, statementStarts]⟩

theorem expressionStatement_accepts {tokens : List Token} {stmt : Stmt} {noted : List SyntaxError}
    (reads : ReadsExprStmt tokens stmt noted) :
    Accepts Rule.expressionStatement [] tokens stmt noted := by
  cases reads with
  | intro inner kind =>
      exact (expression_accepts inner).close
        ((Rule.accepts_expect _ kind).cons (Rule.accepts_pure _)) (by rw [kind]; decide)

theorem printStatement_accepts {tokens : List Token} {expr : Expr} {noted : List SyntaxError}
    {semicolon : Token} (reads : Reads .expression tokens expr noted)
    (kind : semicolon.kind = .semicolon) :
    Accepts Rule.printStatement [] (tokens ++ [semicolon]) (.print expr) noted :=
  (expression_accepts reads).close
    ((Rule.accepts_expect _ kind).cons (Rule.accepts_pure _)) (by rw [kind]; decide)

theorem variableDeclaration_accepts {keyword : Token} {tokens : List Token} {stmt : Stmt}
    {noted : List SyntaxError} (reads : ReadsVar (keyword :: tokens) stmt noted) :
    Accepts Rule.variableDeclaration [] tokens stmt noted := by
  cases reads with
  | bare _ nameKind semicolonKind =>
      refine (Rule.accepts_expectName nameKind).cons
        ((Rule.accepts_none [.equal]).pass (.given ?_) ?_)
      · exact (Rule.accepts_expect _ semicolonKind).cons (Rule.accepts_pure _)
      · exact fun rest _ => Parser.stops_cons (by rw [semicolonKind]; decide)
  | initialized _ nameKind equalsKind initializer semicolonKind =>
      refine (Rule.accepts_expectName nameKind).cons
        ((Rule.accepts_some (List.mem_singleton.mpr equalsKind)).cons ?_)
      refine (expression_accepts initializer).close (.given ?_) (by rw [semicolonKind]; decide)
      exact (Rule.accepts_expect _ semicolonKind).cons (Rule.accepts_pure _)

theorem forInitializer_accepts {tokens : List Token} {initializer : Option Stmt}
    {noted : List SyntaxError} (reads : ReadsInitializer tokens initializer noted) :
    Accepts Rule.forInitializer [] tokens initializer noted := by
  cases reads with
  | @absent semicolon kind =>
      refine (Rule.accepts_some (by simp [kind])).cons ?_
      simp only [kind, if_true]
      exact Rule.accepts_pure none
  | var declares =>
      obtain ⟨keyword, others, rfl, kind⟩ := declares.starts
      refine (Rule.accepts_some (by simp [kind])).cons ?_
      simp only [kind, reduceCtorEq, if_false]
      exact (variableDeclaration_accepts declares).map some
  | expression evaluates =>
      exact (Rule.accepts_none [.semicolon, .keyVar]).pass
        ((expressionStatement_accepts evaluates).map some) fun rest _ =>
          Parser.stops_of_starts evaluates.starts (by decide) rest

theorem optionalClause_accepts {endsWith : Kind} (context : String)
    (outside : endsWith ∉ expressionStarts ∧ endsWith ∉ continuing .expression)
    {tokens : List Token} {clause : Option Expr} {noted : List SyntaxError} {ending : Token}
    (reads : ReadsOptional tokens clause noted) (kind : ending.kind = endsWith) :
    Accepts (Rule.optionalClause endsWith context) [] (tokens ++ [ending]) clause noted := by
  have ends : ending.kind ∉ continuing .expression := by
    rw [kind]
    exact outside.2
  cases reads with
  | absent =>
      refine Rule.Accepts.sees ?_
      simp only [kind, decide_true, if_true]
      exact .given ((Rule.accepts_expect _ kind).cons (Rule.accepts_pure _))
  | present inner =>
      obtain ⟨token, others, rfl, member⟩ := inner.starts
      have other : token.kind ≠ endsWith := fun same => outside.1 (same ▸ member)
      refine Rule.Accepts.sees ?_
      simp only [other, decide_false, Bool.false_eq_true, if_false]
      exact ((expression_accepts inner).map some).close
        ((Rule.accepts_expect _ kind).cons (Rule.accepts_pure _)) ends

/-- What would continue a phrase of this role. -/
def Role.continuing : Role → List Kind
  | .statement false => []
  | .statement true | .declaration => [.keyElse]

theorem Role.continuing_subset (role : Role) : ∀ kind ∈ role.continuing, kind ∈ [Kind.keyElse] := by
  cases role with
  | declaration => exact fun _ member => member
  | statement isOpen => cases isOpen <;> simp [continuing]

/-- The rule for a role, for statements nested this deep. -/
def Role.ruleWithin (depth : Nat) : Role → Rule Stmt
  | .declaration => Rule.declaration (Rule.statementWithin depth)
  | .statement _ => Rule.statementWithin depth

theorem stops_else_of_parts {parts : List Part}
    (begins : ∀ part ∈ parts, ∃ token others, part.tokens = token :: others ∧
      token.kind ∈ Kind.keyVar :: statementStarts)
    {rest : List Token} (stops : Stops [.keyElse] rest) :
    Stops [.keyElse] (Part.tokensOf parts ++ rest) := by
  cases parts with
  | nil => exact stops
  | cons part parts =>
      rw [show Part.tokensOf (part :: parts) = part.tokens ++ Part.tokensOf parts from rfl,
        List.append_assoc]
      exact Parser.stops_of_starts (begins part List.mem_cons_self) (by decide) _

theorem declarations_run {statement : Rule Stmt} {parts : List Part}
    (each : ∀ part ∈ parts,
      Accepts (Rule.declaration statement) [.keyElse] part.tokens part.tree part.noted)
    (begins : ∀ part ∈ parts, ∃ token others, part.tokens = token :: others ∧
      token.kind ∈ Kind.keyVar :: statementStarts)
    {count : Nat} (enough : (Part.tokensOf parts).length < count) {parser : Parser}
    {right : Token} {rest : List Token} (ahead : parser.ahead = Part.tokensOf parts ++ right :: rest)
    (rightKind : right.kind = .rightBrace) :
    Rule.declarations statement count parser =
      .ok (parts.map Part.tree)
        (parser.after (Part.tokensOf parts) (Part.notedIn parts) (right :: rest)) := by
  induction parts generalizing count parser with
  | nil =>
      cases count with
      | zero => omega
      | succ count =>
          have seen : Rule.sees .rightBrace parser = .ok true parser := by
            simp [Rule.sees, ahead, Part.tokensOf, rightKind]
          have stays : parser.after [] [] (right :: rest) = parser := by
            rw [← Parser.after_nil parser, ahead]
            rfl
          refine (Stateful.bind_of_ok _ seen).trans ((Stateful.bind_of_ok _ rfl).trans ?_)
          exact congrArg (EStateM.Result.ok []) stays.symm
  | cons part parts ih =>
      obtain ⟨token, others, same, member⟩ := begins part List.mem_cons_self
      have longer : (Part.tokensOf parts).length < (Part.tokensOf (part :: parts)).length := by
        rw [show Part.tokensOf (part :: parts) = part.tokens ++ Part.tokensOf parts from rfl,
          List.length_append, same, List.length_cons]
        omega
      cases count with
      | zero => omega
      | succ count =>
          have inside : token.kind ≠ .rightBrace ∧ token.kind ≠ .eof := by
            constructor <;> intro other <;> rw [other] at member <;> revert member <;> decide
          have start : parser.ahead =
              part.tokens ++ (Part.tokensOf parts ++ right :: rest) := by
            rw [ahead, ← List.append_assoc]
            rfl
          have next : parser.next = token := by
            rw [Parser.next, start, same]
            rfl
          have seen : Rule.sees .rightBrace parser = .ok false parser := by
            simp [Rule.sees, start, same, inside.1]
          have behind : Stops [.keyElse] (Part.tokensOf parts ++ right :: rest) :=
            stops_else_of_parts (fun part member => begins part (List.mem_cons_of_mem _ member))
              (Parser.stops_cons (by rw [rightKind]; decide))
          have first := each part List.mem_cons_self parser _ start behind
          have run := ih (fun part member => each part (List.mem_cons_of_mem _ member))
            (fun part member => begins part (List.mem_cons_of_mem _ member))
            (show (Part.tokensOf parts).length < count by omega)
            (show (parser.after part.tokens part.noted
              (Part.tokensOf parts ++ right :: rest)).ahead = _ from rfl)
          refine (Stateful.bind_of_ok _ seen).trans ((Stateful.bind_of_ok _ rfl).trans ?_)
          rw [next]
          simp only [Token.isEnd, inside.2, decide_false, Bool.or_false, Bool.false_eq_true,
            if_false]
          refine (Stateful.bind_of_ok _ first).trans ((Stateful.bind_of_ok _ run).trans ?_)
          simp [Part.tokensOf, Part.notedIn]

theorem block_accepts {statement : Rule Stmt} {parts : List Part}
    (each : ∀ part ∈ parts,
      Accepts (Rule.declaration statement) [.keyElse] part.tokens part.tree part.noted)
    (begins : ∀ part ∈ parts, ∃ token others, part.tokens = token :: others ∧
      token.kind ∈ Kind.keyVar :: statementStarts)
    {right : Token} (rightKind : right.kind = .rightBrace) :
    Accepts (Stmt.block <$> Rule.blockBody statement) [] (Part.tokensOf parts ++ [right])
      (.block (parts.map Part.tree)) (Part.notedIn parts) := by
  refine .map Stmt.block (.bound fun count enough => ?_)
  intro parser rest ahead _
  rw [List.append_assoc] at ahead
  rw [List.length_append] at enough
  have run := declarations_run each begins (show (Part.tokensOf parts).length < count by omega)
    ahead rightKind
  have closed := Rule.expect_of_kind "after block" (show (parser.after (Part.tokensOf parts)
    (Part.notedIn parts) (right :: rest)).ahead = right :: rest from rfl) rightKind
  refine (Stateful.bind_of_ok _ run).trans ((Stateful.bind_of_ok _ closed).trans ?_)
  simp

theorem condition_accepts {α : Type} {opens closes : String} {next : Expr → Rule α}
    {left right : Token} {stops : List Kind} {test tokens : List Token} {condition : Expr}
    {result : α} {before after : List SyntaxError} (leftKind : left.kind = .leftParen)
    (tested : Reads .expression test condition before) (rightKind : right.kind = .rightParen)
    (behind : Accepts (next condition) stops tokens result after) :
    Accepts (do
      let _ ← Rule.expect .leftParen opens
      let condition ← Rule.expression
      let _ ← Rule.expect .rightParen closes
      next condition) stops (left :: (test ++ right :: tokens)) result (after ++ before) := by
  have ends : right.kind ∉ continuing .expression := by
    rw [rightKind]
    decide
  exact (Rule.accepts_expect _ leftKind).cons ((expression_accepts tested).bind
    ((Rule.accepts_expect _ rightKind).cons behind) fun rest _ => Parser.stops_cons ends)

theorem ifOnly_accepts {statement : Rule Stmt} {left right : Token} {test body : List Token}
    {condition : Expr} {onTrue : Stmt} {before after : List SyntaxError}
    (leftKind : left.kind = .leftParen) (tested : Reads .expression test condition before)
    (rightKind : right.kind = .rightParen)
    (taken : Accepts statement [.keyElse] body onTrue after) :
    Accepts (Rule.ifStatement statement) [.keyElse] (left :: (test ++ right :: body))
      (.branch condition onTrue none) (after ++ before) := by
  refine condition_accepts leftKind tested rightKind ?_
  rw [← List.nil_append after]
  exact taken.last ((Rule.accepts_none [.keyElse]).pass (Rule.accepts_pure _)
    fun _ stops => stops)

theorem ifElse_accepts {statement : Rule Stmt} {left right otherwise : Token} {stops : List Kind}
    {test body alternative : List Token} {condition : Expr} {onTrue onFalse : Stmt}
    {before after last : List SyntaxError} (leftKind : left.kind = .leftParen)
    (tested : Reads .expression test condition before) (rightKind : right.kind = .rightParen)
    (taken : Accepts statement [] body onTrue after) (otherwiseKind : otherwise.kind = .keyElse)
    (refused : Accepts statement stops alternative onFalse last) :
    Accepts (Rule.ifStatement statement) stops
      (left :: (test ++ right :: (body ++ otherwise :: alternative)))
      (.branch condition onTrue (some onFalse)) (last ++ (after ++ before)) := by
  rw [← List.append_assoc]
  refine condition_accepts leftKind tested rightKind (taken.bind ?_ ?_)
  · exact (Rule.accepts_some (List.mem_singleton.mpr otherwiseKind)).cons
      (refused.yields fun onFalse => Stmt.branch condition onTrue (some onFalse))
  · exact Rule.follows_any _

theorem while_accepts {statement : Rule Stmt} {left right : Token} {stops : List Kind}
    {test body : List Token} {condition : Expr} {round : Stmt} {before after : List SyntaxError}
    (leftKind : left.kind = .leftParen) (tested : Reads .expression test condition before)
    (rightKind : right.kind = .rightParen) (repeated : Accepts statement stops body round after) :
    Accepts (Rule.whileStatement statement) stops (left :: (test ++ right :: body))
      (.loop condition round) (after ++ before) :=
  condition_accepts leftKind tested rightKind (repeated.yields (Stmt.loop condition))

theorem for_accepts {statement : Rule Stmt} {keyword left middle right : Token}
    {stops : List Kind} {first test last body : List Token} {initializer : Option Stmt}
    {condition increment : Option Expr} {round : Stmt}
    {noted₁ noted₂ noted₃ noted₄ : List SyntaxError} (leftKind : left.kind = .leftParen)
    (initialized : ReadsInitializer first initializer noted₁)
    (tested : ReadsOptional test condition noted₂) (middleKind : middle.kind = .semicolon)
    (stepped : ReadsOptional last increment noted₃) (rightKind : right.kind = .rightParen)
    (repeated : Accepts statement stops body round noted₄) :
    Accepts (Rule.forStatement statement keyword) stops
      (left :: (first ++ (test ++ middle :: (last ++ right :: body))))
      (Rule.forLoop keyword initializer condition increment round)
      (noted₄ ++ (noted₃ ++ (noted₂ ++ noted₁))) := by
  have clause := optionalClause_accepts "after loop condition" (by decide) tested middleKind
  have increments := optionalClause_accepts "after for clauses" (by decide) stepped rightKind
  have whole : Accepts (Rule.forStatement statement keyword) stops
      (left :: (first ++ ((test ++ [middle]) ++ ((last ++ [right]) ++ body))))
      (Rule.forLoop keyword initializer condition increment round)
      (noted₄ ++ noted₃ ++ noted₂ ++ noted₁) :=
    (Rule.accepts_expect _ leftKind).cons ((forInitializer_accepts initialized).bind
      (clause.bind (increments.bind
        (repeated.yields (Rule.forLoop keyword initializer condition increment))
        (Rule.follows_any _)) (Rule.follows_any _)) (Rule.follows_any _))
  simpa using whole

theorem Part.length_le_of_mem {part : Part} {parts : List Part} (member : part ∈ parts) :
    part.tokens.length ≤ (tokensOf parts).length := by
  obtain ⟨front, back, rfl⟩ := List.append_of_mem member
  simp only [tokensOf, List.flatMap_append, List.flatMap_cons, List.length_append]
  omega

/-- Behind its keyword a statement is read by the rule for that keyword. -/
theorem ReadsStmt.accepts {role : Role} {tokens : List Token} {stmt : Stmt}
    {noted : List SyntaxError} (reads : ReadsStmt role tokens stmt noted) {depth : Nat}
    (deep : tokens.length ≤ depth) :
    Accepts (role.ruleWithin depth) role.continuing tokens stmt noted := by
  induction reads generalizing depth with
  | var declares =>
      obtain ⟨keyword, others, rfl, kind⟩ := declares.starts
      exact (Rule.accepts_some (List.mem_singleton.mpr kind)).cons
        ((variableDeclaration_accepts declares).weaken (by simp))
  | statement inner ih =>
      obtain ⟨token, others, same, -, starts⟩ := inner.starts
      exact (Rule.accepts_none [.keyVar]).pass ((ih deep).weaken (Role.continuing_subset _))
        fun rest _ => Parser.stops_of_starts ⟨token, others, same, starts (by simp)⟩ (by decide) rest
  | expression evaluates =>
      have statement := expressionStatement_accepts evaluates
      cases depth with
      | zero => exact statement
      | succ depth =>
          exact (Rule.accepts_none [.keyPrint, .leftBrace, .keyIf, .keyWhile, .keyFor]).pass
            statement fun rest _ => Parser.stops_of_starts evaluates.starts (by decide) rest
  | print kind inner semicolonKind =>
      cases depth with
      | zero => simp at deep
      | succ depth =>
          refine (Rule.accepts_some (by simp [kind])).cons ?_
          simp only [kind]
          exact printStatement_accepts inner semicolonKind
  | block kind each rightKind ih =>
      cases depth with
      | zero => simp at deep
      | succ depth =>
          refine (Rule.accepts_some (by simp [kind])).cons ?_
          simp only [kind]
          simp only [List.length_cons, List.length_append] at deep
          refine block_accepts (fun part member => ih part member ?_) (fun part member => ?_)
            rightKind
          · have within := Part.length_le_of_mem member
            omega
          · obtain ⟨token, others, same, member, -⟩ := (each part member).starts
            exact ⟨token, others, same, member⟩
  | ifOnly kind leftKind tested rightKind _ ih =>
      cases depth with
      | zero => simp at deep
      | succ depth =>
          simp only [List.length_cons, List.length_append] at deep
          refine (Rule.accepts_some (by simp [kind])).cons ?_
          simp only [kind]
          exact ifOnly_accepts leftKind tested rightKind
            ((ih (by omega)).weaken (Role.continuing_subset _))
  | ifElse kind leftKind tested rightKind _ otherwiseKind _ takenIh refusedIh =>
      cases depth with
      | zero => simp at deep
      | succ depth =>
          simp only [List.length_cons, List.length_append] at deep
          refine (Rule.accepts_some (by simp [kind])).cons ?_
          simp only [kind]
          exact ifElse_accepts leftKind tested rightKind (takenIh (by omega)) otherwiseKind
            (refusedIh (by omega))
  | whileLoop kind leftKind tested rightKind _ ih =>
      cases depth with
      | zero => simp at deep
      | succ depth =>
          simp only [List.length_cons, List.length_append] at deep
          refine (Rule.accepts_some (by simp [kind])).cons ?_
          simp only [kind]
          exact while_accepts leftKind tested rightKind (ih (by omega))
  | forLoop kind leftKind initialized tested middleKind stepped rightKind _ ih =>
      cases depth with
      | zero => simp at deep
      | succ depth =>
          simp only [List.length_cons, List.length_append] at deep
          refine (Rule.accepts_some (by simp [kind])).cons ?_
          simp only [kind]
          rw [← forLoop_eq]
          exact for_accepts leftKind initialized tested middleKind stepped rightKind
            (ih (by omega))

theorem topDeclaration_accepts {tokens : List Token} {stmt : Stmt} {noted : List SyntaxError}
    (reads : ReadsStmt .declaration tokens stmt noted) :
    Accepts Rule.topDeclaration [.keyElse] tokens stmt noted :=
  .bound fun _ enough => reads.accepts (Nat.le_of_lt enough)

end TreeWalk.Grammar
