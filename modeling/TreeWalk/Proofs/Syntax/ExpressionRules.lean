import TreeWalk.Proofs.Syntax.Phrase
import TreeWalk.Proofs.Syntax.Rules
import TreeWalk.Syntax.Expression

/-!
# Reading expressions

The rules for expressions read phrases and nothing else, and they read every phrase behind which
no operator follows that could continue it.  The bounds of the rules are no restriction: each
round and each nesting consumes a token.
-/

set_option autoImplicit false

namespace TreeWalk.Grammar

open TreeWalk.Parser (Passed Stops)
open Rule (Accepts Describes)

/-! ## Symbols and rungs -/

/-- The rungs from which phrases of a symbol are climbed; none above an operand. -/
def rungs : Symbol → List Rung
  | .logicOr => Rung.ladder
  | .logicAnd => Rung.ladder.drop 1
  | .equality => Rung.ladder.drop 2
  | .comparison => Rung.ladder.drop 3
  | .term => Rung.ladder.drop 4
  | .factor => Rung.ladder.drop 5
  | _ => []

theorem rungs_of_chain? {symbol : Symbol} {chain : Chain} (level : chain? symbol = some chain) :
    rungs symbol = ⟨chain.operators, chain.node⟩ :: rungs chain.operand := by
  cases symbol <;> simp only [chain?, Option.some.injEq, reduceCtorEq] at level <;>
    subst level <;> rfl

theorem leafValue?_eq_some_iff {token : Token} {value : Value} :
    Rule.leafValue? token = some value ↔ Leaf token value := by
  constructor
  · intro found
    unfold Rule.leafValue? at found
    split at found
    · next kind => cases found; exact .keyFalse kind
    · next kind => cases found; exact .keyTrue kind
    · next kind => cases found; exact .keyNil kind
    · next kind =>
        cases carries : token.literal with
        | none =>
            rw [carries] at found
            cases found
            exact .missing (Or.inl kind) carries
        | some literal =>
            rw [carries] at found
            cases found
            exact .carried (Or.inl kind) carries
    · next kind =>
        cases carries : token.literal with
        | none =>
            rw [carries] at found
            cases found
            exact .missing (Or.inr kind) carries
        | some literal =>
            rw [carries] at found
            cases found
            exact .carried (Or.inr kind) carries
    · cases found
  · intro leaf
    cases leaf with
    | carried kind carries => rcases kind with kind | kind <;> simp [Rule.leafValue?, kind, carries]
    | missing kind carries => rcases kind with kind | kind <;> simp [Rule.leafValue?, kind, carries]
    | keyTrue kind | keyFalse kind | keyNil kind => simp [Rule.leafValue?, kind]

def leafKinds : List Kind := [.number, .string, .keyTrue, .keyFalse, .keyNil]

theorem Leaf.kind_mem {token : Token} {value : Value} (leaf : Leaf token value) :
    token.kind ∈ leafKinds := by
  cases leaf with
  | carried kind | missing kind => rcases kind with kind | kind <;> simp [kind, leafKinds]
  | keyTrue kind | keyFalse kind | keyNil kind => simp [kind, leafKinds]

theorem Leaf.kind_ne_eof {token : Token} {value : Value} (leaf : Leaf token value) :
    token.kind ≠ .eof := by
  intro last
  have member := leaf.kind_mem
  rw [last] at member
  exact absurd member (by decide)

theorem Reads.reference {symbol : Symbol} {tokens : List Token} {expr : Expr}
    {noted : List SyntaxError} (reads : Reads symbol tokens expr noted)
    (below : symbol ≠ .expression ∧ symbol ≠ .assignment) {name : Token}
    (shape : expr = .reference name) :
    tokens = [name] ∧ name.kind = .identifier ∧ noted = [] := by
  induction reads with
  | expression | value | assign | misassign => simp at below
  | @single symbol chain _ _ _ level _ ih =>
      refine ih ?_ shape
      cases symbol <;> simp only [chain?, Option.some.injEq, reduceCtorEq] at level <;>
        subst level <;> simp
  | @longer symbol chain _ _ _ _ _ _ _ level =>
      cases symbol <;> simp only [chain?, Option.some.injEq, reduceCtorEq] at level <;>
        subst level <;> cases shape
  | unary | leaf | group => cases shape
  | primary _ ih => exact ih (by simp) shape
  | name kind =>
      cases shape
      exact ⟨rfl, kind, rfl⟩

/-! ## What the rules read -/

theorem primary_describes {inner : Rule Expr} (reads : Describes inner (Reads .expression)) :
    Describes (Rule.primary inner) (Reads .primary) := by
  intro before result after last run
  obtain ⟨token, middle, peeked, chosen⟩ := Stateful.bind_eq_ok.mp run
  cases peeked
  cases found : Rule.leafValue? before.next with
  | some value =>
      have leaf := leafValue?_eq_some_iff.mp found
      obtain ⟨rest, ahead⟩ := Rule.next_ahead last leaf.kind_ne_eof
      rw [found] at chosen
      cases chosen
      exact ⟨_, _, .step ahead, .leaf leaf⟩
  | none =>
      rw [found] at chosen
      dsimp only at chosen
      generalize same : before.next.kind = kind at chosen
      split at chosen
      · obtain ⟨rest, ahead⟩ := Rule.next_ahead last (by simp [same])
        cases chosen
        exact ⟨_, _, .step ahead, .name same⟩
      · obtain ⟨rest, ahead⟩ := Rule.next_ahead last (by simp [same])
        obtain ⟨_, opened, stepped, inside⟩ := Stateful.bind_eq_ok.mp chosen
        cases stepped
        obtain ⟨expr, closing, innerRun, outside⟩ := Stateful.bind_eq_ok.mp inside
        obtain ⟨right, closed, closeRun, finish⟩ := Stateful.bind_eq_ok.mp outside
        cases finish
        have left := Passed.step ahead
        obtain ⟨tokens, noted, passed, reads⟩ := reads _ _ _ (left.last last) innerRun
        obtain ⟨rightKind, right⟩ := Rule.expect_ok closeRun
        refine ⟨_, _, left.trans (passed.trans right), ?_⟩
        rw [List.nil_append, List.append_nil]
        exact .group same reads rightKind
      · cases chosen

theorem prefixed_describes {operand : Rule Expr} (reads : Describes operand (Reads .primary))
    (count : Nat) : Describes (Rule.prefixed operand count) (Reads .unary) := by
  induction count with
  | zero => exact reads.mono .primary
  | succ count ih =>
      intro before result after last run
      obtain ⟨accepted, middle, acceptRun, chosen⟩ := Stateful.bind_eq_ok.mp run
      rcases Rule.accept?_ok acceptRun with ⟨rfl, rfl⟩ | ⟨operator, rfl, kind, passed⟩
      · obtain ⟨tokens, noted, passed, inner⟩ := reads _ _ _ last chosen
        exact ⟨tokens, noted, passed, .primary inner⟩
      · obtain ⟨right, stop, rightRun, finish⟩ := Stateful.bind_eq_ok.mp chosen
        cases finish
        obtain ⟨tokens, noted, moved, inner⟩ := ih _ _ _ (passed.last last) rightRun
        refine ⟨_, _, passed.trans moved, ?_⟩
        rw [List.append_nil]
        exact .unary kind inner

/-- A chain continues whatever phrase of its symbol stands to its left. -/
theorem chain_describes {symbol : Symbol} {chain : Chain} (level : chain? symbol = some chain)
    {operand : Rule Expr} (reads : Describes operand (Reads chain.operand)) (count : Nat)
    (left : Expr) :
    Describes (Rule.chain ⟨chain.operators, chain.node⟩ operand count left)
      fun read result noted => ∀ front early, Reads symbol front left early →
        Reads symbol (front ++ read) result (noted ++ early) := by
  induction count generalizing left with
  | zero =>
      intro before result after last run
      cases run
      exact ⟨[], [], .refl _, by simp⟩
  | succ count ih =>
      intro before result after last run
      obtain ⟨accepted, middle, acceptRun, chosen⟩ := Stateful.bind_eq_ok.mp run
      rcases Rule.accept?_ok acceptRun with ⟨rfl, rfl⟩ | ⟨operator, rfl, kind, passed⟩
      · cases chosen
        exact ⟨[], [], .refl _, by simp⟩
      · obtain ⟨right, stop, rightRun, tailRun⟩ := Stateful.bind_eq_ok.mp chosen
        obtain ⟨tokens, noted, moved, inner⟩ := reads _ _ _ (passed.last last) rightRun
        obtain ⟨tail, later, went, whole⟩ :=
          ih _ _ _ _ (moved.last (passed.last last)) tailRun
        refine ⟨_, _, passed.trans (moved.trans went), ?_⟩
        intro front early init
        simpa using whole _ _ (.longer level init kind inner)

theorem climb_describes_step {symbol : Symbol} {chain : Chain}
    (level : chain? symbol = some chain) {operand : Rule Expr}
    (reads : Describes (Rule.climb (rungs chain.operand) operand) (Reads chain.operand)) :
    Describes (Rule.climb (rungs symbol) operand) (Reads symbol) := by
  rw [rungs_of_chain? level]
  intro before result after last run
  obtain ⟨left, middle, leftRun, continued⟩ := Stateful.bind_eq_ok.mp run
  obtain ⟨count, same, boundRun, tailRun⟩ := Stateful.bind_eq_ok.mp continued
  cases boundRun
  obtain ⟨tokens, noted, passed, inner⟩ := reads _ _ _ last leftRun
  obtain ⟨tail, later, moved, whole⟩ :=
    chain_describes level reads _ _ _ _ _ (passed.last last) tailRun
  exact ⟨_, _, passed.trans moved, whole _ _ (.single level inner)⟩

theorem climb_describes {operand : Rule Expr} (reads : Describes operand (Reads .unary)) :
    Describes (Rule.climb Rung.ladder operand) (Reads .logicOr) := by
  have factor := climb_describes_step (show chain? .factor = some _ from rfl) reads
  have term := climb_describes_step (show chain? .term = some _ from rfl) factor
  have comparison := climb_describes_step (show chain? .comparison = some _ from rfl) term
  have equality := climb_describes_step (show chain? .equality = some _ from rfl) comparison
  have logicAnd := climb_describes_step (show chain? .logicAnd = some _ from rfl) equality
  exact climb_describes_step (show chain? .logicOr = some _ from rfl) logicAnd

theorem assigned_describes {front : List Token} {target : Expr} {early : List SyntaxError}
    (left : Reads .logicOr front target early) {equals : Token}
    (equalsKind : equals.kind = .equal) {back : List Token} {value : Expr}
    {late : List SyntaxError} (right : Reads .assignment back value late)
    {before after : Parser} {result : Expr}
    (run : Rule.assigned target equals value before = .ok result after) :
    ∃ noted, Passed before [] noted after ∧
      Reads .assignment (front ++ equals :: back) result (noted ++ (late ++ early)) := by
  unfold Rule.assigned at run
  split at run
  · next name =>
      cases run
      obtain ⟨rfl, nameKind, rfl⟩ := left.reference (by simp) rfl
      refine ⟨[], .refl _, ?_⟩
      rw [List.nil_append, List.append_nil]
      exact .assign nameKind equalsKind right
  · next other =>
      cases run
      have wrong : isReference target = false := by
        cases target with
        | reference name => exact absurd rfl (other name)
        | _ => rfl
      have whole := Reads.misassign left wrong equalsKind right
      exact ⟨[_], ⟨rfl, rfl⟩, whole⟩

/-- A prefixed operand whose parentheses hold expressions of this depth. -/
def operandWithin (depth : Nat) : Rule Expr := do
  Rule.prefixed (Rule.primary (Rule.expressionWithin depth)) (← Rule.bound)

theorem expressionWithin_describes (depth : Nat) :
    Describes (Rule.expressionWithin depth) (Reads .assignment) := by
  induction depth with
  | zero =>
      intro before result after last run
      cases run
  | succ depth ih =>
      have operand : Describes (operandWithin depth) (Reads .unary) :=
        .bound (prefixed_describes (primary_describes (ih.mono .expression)))
      intro before result after last run
      obtain ⟨target, middle, targetRun, behindTarget⟩ := Stateful.bind_eq_ok.mp run
      obtain ⟨accepted, behind, acceptRun, chosen⟩ := Stateful.bind_eq_ok.mp behindTarget
      obtain ⟨front, early, passed, left⟩ := climb_describes operand _ _ _ last targetRun
      rcases Rule.accept?_ok acceptRun with ⟨rfl, rfl⟩ | ⟨equals, rfl, kind, moved⟩
      · cases chosen
        exact ⟨front, early, passed, .value left⟩
      · obtain ⟨value, stop, valueRun, finish⟩ := Stateful.bind_eq_ok.mp chosen
        obtain ⟨back, late, went, right⟩ := ih _ _ _ (moved.last (passed.last last)) valueRun
        obtain ⟨noted, finished, whole⟩ :=
          assigned_describes left (List.mem_singleton.mp kind) right finish
        refine ⟨_, _, passed.trans (moved.trans (went.trans finished)), ?_⟩
        simpa using whole

theorem expression_describes : Describes Rule.expression (Reads .expression) :=
  .bound fun count => (expressionWithin_describes count).mono .expression

/-! ## What the rules accept -/

/-- The operators that continue a phrase of a symbol. -/
def continuing : Symbol → List Kind
  | .expression | .assignment => .equal :: Rung.ladder.flatMap Rung.operators
  | symbol => (rungs symbol).flatMap Rung.operators

/-- The rule that reads phrases of a symbol with parentheses and assignments nested this deep. -/
def ruleWithin (depth : Nat) : Symbol → Rule Expr
  | .expression | .assignment => Rule.expressionWithin (depth + 1)
  | .primary => Rule.primary (Rule.expressionWithin depth)
  | symbol => Rule.climb (rungs symbol) (operandWithin depth)

theorem continuing_of_chain? {symbol : Symbol} {chain : Chain}
    (level : chain? symbol = some chain) :
    continuing symbol = chain.operators ++ continuing chain.operand ∧
      ∀ kind ∈ chain.operators, kind ∉ continuing chain.operand := by
  cases symbol <;> simp only [chain?, Option.some.injEq, reduceCtorEq] at level <;>
    subst level <;> exact ⟨rfl, by decide⟩

theorem ruleWithin_of_chain? {symbol : Symbol} {chain : Chain}
    (level : chain? symbol = some chain) (depth : Nat) :
    ruleWithin depth symbol = Rule.climb (rungs symbol) (operandWithin depth) ∧
      ruleWithin depth chain.operand = Rule.climb (rungs chain.operand) (operandWithin depth) := by
  cases symbol <;> simp only [chain?, Option.some.injEq, reduceCtorEq] at level <;>
    subst level <;> exact ⟨rfl, rfl⟩

/-- The kinds of token that an expression begins with. -/
def expressionStarts : List Kind :=
  [.bang, .minus, .number, .string, .keyTrue, .keyFalse, .keyNil, .identifier, .leftParen]

theorem Leaf.starts {token : Token} {value : Value} (leaf : Leaf token value) :
    token.kind ∈ expressionStarts := by
  have starts : ∀ kind ∈ leafKinds, kind ∈ expressionStarts := by decide
  exact starts _ leaf.kind_mem

theorem Reads.starts {symbol : Symbol} {tokens : List Token} {expr : Expr}
    {noted : List SyntaxError} (reads : Reads symbol tokens expr noted) :
    ∃ token others, tokens = token :: others ∧ token.kind ∈ expressionStarts := by
  induction reads with
  | expression _ ih | value _ ih | single _ _ ih | primary _ ih => exact ih
  | assign nameKind => exact ⟨_, _, rfl, by simp [nameKind, expressionStarts]⟩
  | misassign _ _ _ _ ih _ | longer _ _ _ _ ih _ =>
      obtain ⟨token, others, rfl, member⟩ := ih
      exact ⟨token, _, rfl, member⟩
  | unary kind =>
      refine ⟨_, _, rfl, ?_⟩
      simp only [List.mem_cons, List.not_mem_nil, or_false] at kind
      rcases kind with kind | kind <;> simp [kind, expressionStarts]
  | leaf leaf => exact ⟨_, _, rfl, leaf.starts⟩
  | name kind => exact ⟨_, _, rfl, by simp [kind, expressionStarts]⟩
  | group leftKind => exact ⟨_, _, rfl, by simp [leftKind, expressionStarts]⟩

theorem Reads.ne_nil {symbol : Symbol} {tokens : List Token} {expr : Expr}
    {noted : List SyntaxError} (reads : Reads symbol tokens expr noted) : tokens ≠ [] := by
  obtain ⟨token, others, rfl, -⟩ := reads.starts
  exact List.cons_ne_nil token others

/-- The rule for a chain has read this much and may go on. -/
def Resumes (symbol : Symbol) (chain : Chain) (tokens : List Token) (expr : Expr)
    (noted : List SyntaxError) : Prop :=
  ∀ depth, tokens.length ≤ depth + 1 → ∀ parser rest, parser.ahead = tokens ++ rest →
    Stops (continuing chain.operand) rest →
      ∃ count, rest.length < count ∧
        Rule.climb (rungs symbol) (operandWithin depth) parser =
          Rule.chain ⟨chain.operators, chain.node⟩
            (Rule.climb (rungs chain.operand) (operandWithin depth)) count expr
            (parser.after tokens noted rest)

/-- How the rules of a symbol treat one of its phrases.  Chains and prefix operators need more
than acceptance: a longer phrase is read in the middle of the run on a shorter one. -/
def Behaves (symbol : Symbol) (tokens : List Token) (expr : Expr) (noted : List SyntaxError) :
    Prop :=
  match chain? symbol with
  | some chain => Resumes symbol chain tokens expr noted
  | none =>
      if symbol = .unary then
        ∀ depth count, tokens.length ≤ depth + 1 → tokens.length ≤ count →
          Accepts (Rule.prefixed (Rule.primary (Rule.expressionWithin depth)) count) [] tokens
            expr noted
      else
        ∀ depth, tokens.length ≤ depth + 1 →
          Accepts (ruleWithin depth symbol) (continuing symbol) tokens expr noted

theorem behaves_chain {symbol : Symbol} {chain : Chain} (level : chain? symbol = some chain)
    {tokens : List Token} {expr : Expr} {noted : List SyntaxError} :
    Behaves symbol tokens expr noted ↔ Resumes symbol chain tokens expr noted := by
  simp [Behaves, level]

theorem Resumes.accepts {symbol : Symbol} {chain : Chain} (level : chain? symbol = some chain)
    {tokens : List Token} {expr : Expr} {noted : List SyntaxError}
    (resumes : Resumes symbol chain tokens expr noted) {depth : Nat}
    (deep : tokens.length ≤ depth + 1) :
    Accepts (ruleWithin depth symbol) (continuing symbol) tokens expr noted := by
  intro parser rest ahead stops
  obtain ⟨kinds, -⟩ := continuing_of_chain? level
  rw [kinds] at stops
  obtain ⟨count, enough, run⟩ := resumes depth deep parser rest ahead
    (stops.mono fun kind member => List.mem_append_right _ member)
  rw [(ruleWithin_of_chain? level depth).1, run]
  cases count with
  | zero => omega
  | succ count =>
      have none : Rule.accept? chain.operators (parser.after tokens noted rest) =
          .ok none (parser.after tokens noted rest) :=
        Rule.accept?_of_stops (stops.mono fun kind member => List.mem_append_left _ member)
      exact Stateful.bind_of_ok _ none

theorem Behaves.accepts {symbol : Symbol} {tokens : List Token} {expr : Expr}
    {noted : List SyntaxError} (behaves : Behaves symbol tokens expr noted) {depth : Nat}
    (deep : tokens.length ≤ depth + 1) :
    Accepts (ruleWithin depth symbol) (continuing symbol) tokens expr noted := by
  cases level : chain? symbol with
  | some chain => exact ((behaves_chain level).mp behaves).accepts level deep
  | none =>
      unfold Behaves at behaves
      simp only [level] at behaves
      split at behaves
      · next same =>
          subst same
          intro parser rest ahead stops
          have enough : tokens.length ≤ parser.ahead.length + 1 := by
            rw [ahead, List.length_append]
            omega
          exact behaves depth _ deep enough parser rest ahead stops
      · exact behaves depth deep

theorem behaves_single {symbol : Symbol} {chain : Chain} (level : chain? symbol = some chain)
    {tokens : List Token} {expr : Expr} {noted : List SyntaxError}
    (operand : Behaves chain.operand tokens expr noted) : Behaves symbol tokens expr noted := by
  rw [behaves_chain level]
  intro depth deep parser rest ahead stops
  have run := operand.accepts deep parser rest ahead stops
  rw [(ruleWithin_of_chain? level depth).2] at run
  refine ⟨rest.length + 1, by omega, ?_⟩
  rw [rungs_of_chain? level]
  exact Stateful.bind_of_ok _ run

theorem behaves_longer {symbol : Symbol} {chain : Chain} (level : chain? symbol = some chain)
    {front back : List Token} {left right : Expr} {early late : List SyntaxError}
    {operator : Token} (init : Behaves symbol front left early)
    (kind : operator.kind ∈ chain.operators) (operand : Behaves chain.operand back right late) :
    Behaves symbol (front ++ operator :: back) (chain.node left operator right)
      (late ++ early) := by
  rw [behaves_chain level] at init ⊢
  intro depth deep parser rest ahead stops
  rw [List.length_append, List.length_cons] at deep
  rw [List.append_assoc, List.cons_append] at ahead
  obtain ⟨count, enough, run⟩ := init depth (by omega) parser _ ahead
    (Parser.stops_cons ((continuing_of_chain? level).2 _ kind))
  rw [List.length_cons, List.length_append] at enough
  cases count with
  | zero => omega
  | succ count =>
      refine ⟨count, by omega, run.trans ?_⟩
      have deepEnough : back.length ≤ depth + 1 := by omega
      have accepts := operand.accepts deepEnough
      rw [(ruleWithin_of_chain? level depth).2] at accepts
      have taken : Rule.accept? chain.operators
          (parser.after front early (operator :: (back ++ rest))) = .ok (some operator) _ :=
        Rule.accept?_of_mem rfl kind
      have rightRun := accepts
        ((parser.after front early (operator :: (back ++ rest))).after [operator] []
          (back ++ rest)) rest rfl stops
      refine (Stateful.bind_of_ok _ taken).trans ((Stateful.bind_of_ok _ rightRun).trans ?_)
      simp

theorem behaves_unary {operator : Token} {tokens : List Token} {expr : Expr}
    {noted : List SyntaxError} (kind : operator.kind ∈ [Kind.bang, .minus])
    (operand : Behaves .unary tokens expr noted) :
    Behaves .unary (operator :: tokens) (.unary operator expr) noted := by
  intro depth count deep enough
  rw [List.length_cons] at deep enough
  cases count with
  | zero => omega
  | succ count =>
      have right := operand depth count (by omega) (by omega)
      exact (Rule.accepts_some kind).cons (right.yields (Expr.unary operator))

theorem Reads.first_not_prefix {tokens : List Token} {expr : Expr} {noted : List SyntaxError}
    (reads : Reads .primary tokens expr noted) (rest : List Token) :
    Stops [.bang, .minus] (tokens ++ rest) := by
  cases reads with
  | single level | longer level => cases level
  | leaf leaf =>
      have apart : ∀ kind ∈ leafKinds, kind ∉ [Kind.bang, .minus] := by decide
      exact Parser.stops_cons (apart _ leaf.kind_mem)
  | name kind => exact Parser.stops_cons (by simp [kind])
  | group leftKind => exact Parser.stops_cons (by simp [leftKind])

theorem behaves_primary {tokens : List Token} {expr : Expr} {noted : List SyntaxError}
    (reads : Reads .primary tokens expr noted) (inner : Behaves .primary tokens expr noted) :
    Behaves .unary tokens expr noted := by
  intro depth count deep _
  have accepts := inner.accepts deep
  cases count with
  | zero => exact accepts
  | succ count =>
      exact (Rule.accepts_none [.bang, .minus]).pass accepts fun rest _ =>
        reads.first_not_prefix rest

theorem behaves_leaf {token : Token} {value : Value} (leaf : Leaf token value) :
    Behaves .primary [token] (.literal value token.span) [] := by
  intro depth _
  refine Rule.Accepts.peek ?_
  rw [leafValue?_eq_some_iff.mpr leaf]
  exact (Rule.accepts_step token).cons (Rule.accepts_pure _)

theorem leafValue?_eq_none {token : Token} (kind : token.kind ∈ [Kind.identifier, .leftParen]) :
    Rule.leafValue? token = none := by
  simp only [List.mem_cons, List.not_mem_nil, or_false] at kind
  rcases kind with kind | kind <;> simp [Rule.leafValue?, kind]

theorem behaves_name {token : Token} (kind : token.kind = .identifier) :
    Behaves .primary [token] (.reference token) [] := by
  intro depth _
  refine Rule.Accepts.peek ?_
  rw [leafValue?_eq_none (by simp [kind])]
  simp only [kind]
  exact (Rule.accepts_step token).cons (Rule.accepts_pure _)

theorem behaves_group {left right : Token} {tokens : List Token} {expr : Expr}
    {noted : List SyntaxError} (leftKind : left.kind = .leftParen)
    (inner : Behaves .expression tokens expr noted) (rightKind : right.kind = .rightParen) :
    Behaves .primary (left :: (tokens ++ [right])) (.grouping expr) noted := by
  intro depth deep
  rw [List.length_cons, List.length_append, List.length_singleton] at deep
  refine Rule.Accepts.peek ?_
  rw [leafValue?_eq_none (by simp [leftKind])]
  simp only [leftKind]
  cases depth with
  | zero => omega
  | succ depth =>
      have inside := inner.accepts (show tokens.length ≤ depth + 1 by omega)
      refine (Rule.accepts_step left).cons (inside.close ?_ (by rw [rightKind]; decide))
      exact (Rule.accepts_expect _ rightKind).cons (Rule.accepts_pure _)

theorem behaves_climb {tokens : List Token} {expr : Expr} {noted : List SyntaxError}
    (operand : Behaves .unary tokens expr noted) : Behaves .logicOr tokens expr noted := by
  have factor := behaves_single (show chain? .factor = some _ from rfl) operand
  have term := behaves_single (show chain? .term = some _ from rfl) factor
  have comparison := behaves_single (show chain? .comparison = some _ from rfl) term
  have equality := behaves_single (show chain? .equality = some _ from rfl) comparison
  have logicAnd := behaves_single (show chain? .logicAnd = some _ from rfl) equality
  exact behaves_single (show chain? .logicOr = some _ from rfl) logicAnd

theorem accepts_target {tokens : List Token} {expr : Expr} {noted : List SyntaxError}
    (inner : Behaves .logicOr tokens expr noted) {depth : Nat} (deep : tokens.length ≤ depth + 1) :
    Accepts (Rule.climb Rung.ladder (operandWithin depth)) (continuing .logicOr) tokens expr noted :=
  inner.accepts deep

theorem behaves_value {tokens : List Token} {expr : Expr} {noted : List SyntaxError}
    (inner : Behaves .logicOr tokens expr noted) : Behaves .assignment tokens expr noted := by
  intro depth deep parser rest ahead stops
  have target := accepts_target inner deep parser rest ahead
    (stops.mono (by decide))
  have none : Rule.accept? [.equal] (parser.after tokens noted rest) =
      .ok none (parser.after tokens noted rest) :=
    Rule.accept?_of_stops (stops.mono (by decide))
  exact (Stateful.bind_of_ok _ target).trans (Stateful.bind_of_ok _ none)

theorem behaves_assign {name equals : Token} {tokens : List Token} {expr : Expr}
    {noted : List SyntaxError} (nameKind : name.kind = .identifier)
    (equalsKind : equals.kind = .equal) (value : Behaves .assignment tokens expr noted) :
    Behaves .assignment (name :: equals :: tokens) (.assign name expr) noted := by
  intro depth deep
  rw [List.length_cons, List.length_cons] at deep
  have left := behaves_climb (behaves_primary (.name nameKind) (behaves_name nameKind))
  cases depth with
  | zero => omega
  | succ depth =>
      have target := accepts_target left (show [name].length ≤ depth + 1 + 1 by simp)
      have right := value.accepts (show tokens.length ≤ depth + 1 by omega)
      have other : equals.kind ∉ continuing .logicOr := by
        rw [equalsKind]
        decide
      have whole : Accepts (Rule.expressionWithin (depth + 2)) (continuing .assignment)
          ([name] ++ equals :: tokens) (.assign name expr) (noted ++ []) :=
        target.bind ((Rule.accepts_some (List.mem_singleton.mpr equalsKind)).cons
          (right.yields (Expr.assign name))) fun rest _ => Parser.stops_cons other
      rwa [List.append_nil] at whole

theorem behaves_misassign {equals : Token} {front back : List Token} {target expr : Expr}
    {early late : List SyntaxError} (nonempty : front ≠ [])
    (left : Behaves .logicOr front target early) (wrong : isReference target = false)
    (equalsKind : equals.kind = .equal) (value : Behaves .assignment back expr late) :
    Behaves .assignment (front ++ equals :: back) target
      (⟨.invalidAssignmentTarget, equals⟩ :: (late ++ early)) := by
  intro depth deep
  rw [List.length_append, List.length_cons] at deep
  have consumes := List.length_pos_iff.mpr nonempty
  have other : equals.kind ∉ continuing .logicOr := by
    rw [equalsKind]
    decide
  cases depth with
  | zero => omega
  | succ depth =>
      have before := accepts_target left (show front.length ≤ depth + 1 + 1 by omega)
      have right := value.accepts (show back.length ≤ depth + 1 by omega)
      have noting : Accepts (Rule.assigned target equals expr) (continuing .assignment) [] target
          [⟨.invalidAssignmentTarget, equals⟩] := by
        intro parser rest ahead _
        rw [List.nil_append] at ahead
        cases target with
        | reference name => simp [isReference] at wrong
        | _ => rw [← ahead]; rfl
      have whole : Accepts (Rule.expressionWithin (depth + 2)) (continuing .assignment)
          (front ++ equals :: back) target
          ([⟨.invalidAssignmentTarget, equals⟩] ++ late ++ early) :=
        before.bind ((Rule.accepts_some (List.mem_singleton.mpr equalsKind)).cons
          (right.last noting)) fun rest _ => Parser.stops_cons other
      exact whole

theorem Reads.behaves {symbol : Symbol} {tokens : List Token} {expr : Expr}
    {noted : List SyntaxError} (reads : Reads symbol tokens expr noted) :
    Behaves symbol tokens expr noted := by
  induction reads with
  | expression _ ih => exact ih
  | value _ ih => exact behaves_value ih
  | assign nameKind equalsKind _ ih => exact behaves_assign nameKind equalsKind ih
  | misassign left wrong equalsKind _ leftIh valueIh =>
      exact behaves_misassign left.ne_nil leftIh wrong equalsKind valueIh
  | single level _ ih => exact behaves_single level ih
  | longer level _ kind _ initIh operandIh => exact behaves_longer level initIh kind operandIh
  | unary kind _ ih => exact behaves_unary kind ih
  | primary inner ih => exact behaves_primary inner ih
  | leaf leaf => exact behaves_leaf leaf
  | name kind => exact behaves_name kind
  | group leftKind _ rightKind ih => exact behaves_group leftKind ih rightKind

theorem expression_accepts {tokens : List Token} {expr : Expr} {noted : List SyntaxError}
    (reads : Reads .expression tokens expr noted) :
    Accepts Rule.expression (continuing .expression) tokens expr noted := by
  refine Rule.Accepts.bound fun count enough => ?_
  cases count with
  | zero => omega
  | succ depth => exact reads.behaves.accepts (show tokens.length ≤ depth + 1 by omega)

end TreeWalk.Grammar
