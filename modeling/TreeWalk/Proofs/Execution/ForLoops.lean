import TreeWalk.Proofs.Execution.Interpretation
import TreeWalk.Proofs.Execution.Padding

/-!
# `for` statements

A `for` statement is read as a loop with blocks around it.  Told directly, its initializer opens one
scope, and in that scope the test, the body and the increment follow each other until the test
fails.  The block in which the tree keeps the body and the increment together is not part of
that: it adds an empty scope to each round, which no body can tell since a declaration is no body.
So running the tree is running the loop as it is told.
-/

set_option autoImplicit false

namespace TreeWalk

open Grammar (ReadsFor withIncrement withInitializer)
open Semantics

namespace Semantics

theorem runs_singleton_iff {statement : Stmt} {chain after : Chain} {result : Option Fault}
    {output : String} :
    Runs chain (.all [statement]) result output after ↔
      Runs chain (.one statement) result output after := by
  constructor
  · intro runs
    cases runs with
    | next head tail =>
        cases tail
        rwa [String.append_empty]
    | stops head => exact head
  · intro runs
    cases result with
    | none =>
        have whole := Runs.next runs .done
        rwa [String.append_empty] at whole
    | some fault => exact .stops runs

theorem runs_pair_iff {one other : Stmt} {chain after : Chain} {result : Option Fault}
    {output : String} :
    Runs chain (.all [one, other]) result output after ↔
      (∃ fault, result = some fault ∧ Runs chain (.one one) (some fault) output after) ∨
        ∃ early late middle, output = early ++ late ∧ Runs chain (.one one) none early middle ∧
          Runs middle (.one other) result late after := by
  constructor
  · intro runs
    cases runs with
    | next head tail => exact Or.inr ⟨_, _, _, rfl, head, runs_singleton_iff.mp tail⟩
    | stops head => exact Or.inl ⟨_, rfl, head⟩
  · rintro (⟨fault, rfl, head⟩ | ⟨early, late, middle, rfl, head, tail⟩)
    · exact .stops head
    · exact .next head (runs_singleton_iff.mpr tail)

end Semantics

/-- The clauses of a `for` statement, any of which may be absent, and its body. -/
structure ForLoop where
  initializer : Option Stmt
  condition : Option Expr
  increment : Option Expr
  body : Stmt

namespace ForLoop

/-! ## The loop as it is told -/

/-- The value of a test.  An absent one is true. -/
inductive Tests : Option Expr → Chain → Except Fault Value → Chain → Prop where
  | absent (chain : Chain) : Tests none chain (.ok (.boolean true)) chain
  | present {condition : Expr} {chain after : Chain} {result : Except Fault Value}
      (evaluates : Evaluates chain condition result after) :
      Tests (some condition) chain result after

inductive Steps : Option Expr → Chain → Option Fault → Chain → Prop where
  | absent (chain : Chain) : Steps none chain none chain
  | present {increment : Expr} {chain after : Chain} {value : Value}
      (evaluates : Evaluates chain increment (.ok value) after) :
      Steps (some increment) chain none after
  | fails {increment : Expr} {chain after : Chain} {fault : Fault}
      (evaluates : Evaluates chain increment (.error fault) after) :
      Steps (some increment) chain (some fault) after

/-- The body and then the increment, in the same scope. -/
inductive Round (loop : ForLoop) : Chain → Option Fault → String → Chain → Prop where
  | stops {chain after : Chain} {fault : Fault} {output : String}
      (body : Runs chain (.one loop.body) (some fault) output after) :
      Round loop chain (some fault) output after
  | goes {chain middle after : Chain} {result : Option Fault} {output : String}
      (body : Runs chain (.one loop.body) none output middle)
      (steps : Steps loop.increment middle result after) : Round loop chain result output after

inductive Repeats (loop : ForLoop) : Chain → Option Fault → String → Chain → Prop where
  | done {chain after : Chain} {value : Value}
      (tests : Tests loop.condition chain (.ok value) after) (falsy : ¬ Truthy value) :
      Repeats loop chain none "" after
  | testFails {chain after : Chain} {fault : Fault}
      (tests : Tests loop.condition chain (.error fault) after) :
      Repeats loop chain (some fault) "" after
  | roundFails {chain middle after : Chain} {value : Value} {fault : Fault} {output : String}
      (tests : Tests loop.condition chain (.ok value) middle) (truthy : Truthy value)
      (round : loop.Round middle (some fault) output after) :
      Repeats loop chain (some fault) output after
  | again {chain middle next after : Chain} {value : Value} {result : Option Fault}
      {output more : String} (tests : Tests loop.condition chain (.ok value) middle)
      (truthy : Truthy value) (round : loop.Round middle none output next)
      (rest : Repeats loop next result more after) : Repeats loop chain result (output ++ more) after

/-- A loop with an initializer has a scope of its own, which is dropped however the loop ends. -/
inductive Executes (loop : ForLoop) : Chain → Option Fault → String → Chain → Prop where
  | bare {chain after : Chain} {result : Option Fault} {output : String}
      (absent : loop.initializer = none) (repeats : loop.Repeats chain result output after) :
      Executes loop chain result output after
  | initialized {chain middle after : Chain} {first : Stmt} {names : Names}
      {result : Option Fault} {output more : String} (present : loop.initializer = some first)
      (starts : Runs (.inside .empty chain) (.one first) none output middle)
      (repeats : loop.Repeats middle result more (.inside names after)) :
      Executes loop chain result (output ++ more) after
  | initializerFails {chain after : Chain} {first : Stmt} {names : Names} {fault : Fault}
      {output : String} (present : loop.initializer = some first)
      (starts : Runs (.inside .empty chain) (.one first) (some fault) output
        (.inside names after)) : Executes loop chain (some fault) output after

/-! ## The tree of the loop -/

def tree (loop : ForLoop) (keyword : Token) : Stmt :=
  Rule.forLoop keyword loop.initializer loop.condition loop.increment loop.body

def repeated (loop : ForLoop) (keyword : Token) : Stmt :=
  .loop (loop.condition.getD (.literal (.boolean true) keyword.span))
    (withIncrement loop.body loop.increment)

theorem tree_eq (loop : ForLoop) (keyword : Token) :
    loop.tree keyword = withInitializer (loop.repeated keyword) loop.initializer :=
  Grammar.forLoop_eq keyword loop.initializer loop.condition loop.increment loop.body

theorem tests_iff {condition : Option Expr} {span : Span} {chain after : Chain}
    {result : Except Fault Value} :
    Evaluates chain (condition.getD (.literal (.boolean true) span)) result after ↔
      Tests condition chain result after := by
  constructor
  · intro evaluates
    cases condition with
    | none =>
        cases evaluates
        exact .absent chain
    | some condition => exact .present evaluates
  · intro tests
    cases tests with
    | absent => exact .literal (.boolean true) span
    | present evaluates => exact evaluates

theorem steps_iff {increment : Expr} {chain after : Chain} {result : Option Fault}
    {output : String} :
    Runs chain (.one (.expression increment)) result output after ↔
      output = "" ∧ Steps (some increment) chain result after := by
  constructor
  · intro runs
    cases runs with
    | expression evaluates => exact ⟨rfl, .present evaluates⟩
    | expressionFails evaluates => exact ⟨rfl, .fails evaluates⟩
  · rintro ⟨rfl, steps⟩
    cases steps with
    | present evaluates => exact .expression evaluates
    | fails evaluates => exact .expressionFails evaluates

variable {loop : ForLoop}

/-- The block around the body and the increment makes no difference, since the body declares no
name in it. -/
theorem round_iff (nothing : loop.body.declared = []) {chain after : Chain}
    {result : Option Fault} {output : String} :
    Runs chain (.one (withIncrement loop.body loop.increment)) result output after ↔
      loop.Round chain result output after := by
  obtain ⟨initializer, condition, increment, body⟩ := loop
  cases increment with
  | none =>
      constructor
      · intro runs
        cases result with
        | none => exact .goes runs (.absent after)
        | some fault => exact .stops runs
      · rintro (runs | ⟨runs, steps⟩)
        · exact runs
        · cases steps
          exact runs
  | some increment =>
      have quiet : (Task.all [body, .expression increment]).declared = [] := by
        simpa [Task.declared, Stmt.allDeclared, Stmt.declared] using nothing
      refine (runs_block_iff quiet).trans (runs_pair_iff.trans ?_)
      constructor
      · rintro (⟨fault, rfl, runs⟩ | ⟨early, late, middle, rfl, runs, stepped⟩)
        · exact .stops runs
        · obtain ⟨rfl, steps⟩ := steps_iff.mp stepped
          rw [String.append_empty]
          exact .goes runs steps
      · rintro (runs | ⟨runs, steps⟩)
        · exact Or.inl ⟨_, rfl, runs⟩
        · exact Or.inr ⟨output, "", _, String.append_empty.symm, runs, steps_iff.mpr ⟨rfl, steps⟩⟩

theorem repeated_iff (nothing : loop.body.declared = []) (keyword : Token) {chain after : Chain}
    {result : Option Fault} {output : String} :
    Runs chain (.one (loop.repeated keyword)) result output after ↔
      loop.Repeats chain result output after := by
  constructor
  · intro runs
    generalize task : Task.one (loop.repeated keyword) = which at runs
    induction runs with
    | loopDone tested falsy =>
        cases task
        exact .done (tests_iff.mp tested) falsy
    | loopFails tested =>
        cases task
        exact .testFails (tests_iff.mp tested)
    | loopBodyFails tested truthy round =>
        cases task
        exact .roundFails (tests_iff.mp tested) truthy ((round_iff nothing).mp round)
    | loopAgain tested truthy round _ _ againIh =>
        cases task
        exact .again (tests_iff.mp tested) truthy ((round_iff nothing).mp round) (againIh rfl)
    | _ => cases task
  · intro repeats
    induction repeats with
    | done tests falsy => exact .loopDone (tests_iff.mpr tests) falsy
    | testFails tests => exact .loopFails (tests_iff.mpr tests)
    | roundFails tests truthy round =>
        exact .loopBodyFails (tests_iff.mpr tests) truthy ((round_iff nothing).mpr round)
    | again tests truthy round _ ih =>
        exact .loopAgain (tests_iff.mpr tests) truthy ((round_iff nothing).mpr round) ih

/-- Running the tree is executing the loop as it is told. -/
theorem tree_iff (nothing : loop.body.declared = []) (keyword : Token) {chain after : Chain}
    {result : Option Fault} {output : String} :
    Runs chain (.one (loop.tree keyword)) result output after ↔
      loop.Executes chain result output after := by
  rw [tree_eq]
  cases clause : loop.initializer with
  | none =>
      constructor
      · intro runs
        exact .bare clause ((repeated_iff nothing keyword).mp runs)
      · intro executes
        cases executes with
        | bare _ repeats => exact (repeated_iff nothing keyword).mpr repeats
        | initialized present => simp [clause] at present
        | initializerFails present => simp [clause] at present
  | some first =>
      constructor
      · intro runs
        cases runs with
        | block inner =>
            obtain ⟨fault, rfl, starts⟩ | ⟨early, late, middle, rfl, starts, loops⟩ :=
              runs_pair_iff.mp inner
            · exact .initializerFails clause starts
            · exact .initialized clause starts ((repeated_iff nothing keyword).mp loops)
      · intro executes
        cases executes with
        | bare absent => simp [clause] at absent
        | initialized present starts repeats =>
            obtain rfl : first = _ := Option.some.inj (clause.symm.trans present)
            have loops := (repeated_iff nothing keyword).mpr repeats
            exact .block (runs_pair_iff.mpr (Or.inr ⟨_, _, _, rfl, starts, loops⟩))
        | initializerFails present starts =>
            obtain rfl : first = _ := Option.some.inj (clause.symm.trans present)
            exact .block (runs_pair_iff.mpr (Or.inl ⟨_, rfl, starts⟩))

/-! ## The names that are seen -/

theorem Tests.domains {condition : Option Expr} {chain after : Chain} {result : Except Fault Value}
    (tests : Tests condition chain result after) : after.domains = chain.domains := by
  cases tests with
  | absent => rfl
  | present evaluates => exact evaluates.domains

theorem Steps.domains {increment : Option Expr} {chain after : Chain} {result : Option Fault}
    (steps : Steps increment chain result after) : after.domains = chain.domains := by
  cases steps with
  | absent => rfl
  | present evaluates | fails evaluates => exact evaluates.domains

theorem Round.domains (nothing : loop.body.declared = []) {chain after : Chain}
    {result : Option Fault} {output : String} (round : loop.Round chain result output after) :
    after.domains = chain.domains := by
  cases round with
  | stops body => exact body.domains nothing
  | goes body steps => exact steps.domains.trans (body.domains nothing)

/-- The chains in which the test is evaluated when the rounds start from this one. -/
inductive Begins (loop : ForLoop) (start : Chain) : Chain → Prop where
  | first : Begins loop start start
  | next {chain middle after : Chain} {value : Value} {output : String}
      (begins : Begins loop start chain) (tests : Tests loop.condition chain (.ok value) middle)
      (truthy : Truthy value) (round : loop.Round middle none output after) :
      Begins loop start after

inductive Increments (loop : ForLoop) (start : Chain) : Chain → Prop where
  | intro {chain middle after : Chain} {value : Value} {output : String}
      (begins : loop.Begins start chain) (tests : Tests loop.condition chain (.ok value) middle)
      (truthy : Truthy value) (body : Runs middle (.one loop.body) none output after) :
      Increments loop start after

theorem Begins.domains (nothing : loop.body.declared = []) {start chain : Chain}
    (begins : loop.Begins start chain) : chain.domains = start.domains := by
  induction begins with
  | first => rfl
  | next _ tests _ round ih => exact (round.domains nothing).trans (tests.domains.trans ih)

theorem Increments.domains (nothing : loop.body.declared = []) {start chain : Chain}
    (increments : loop.Increments start chain) : chain.domains = start.domains := by
  cases increments with
  | intro begins tests _ body =>
      exact (body.domains nothing).trans (tests.domains.trans (begins.domains nothing))

end ForLoop

/-! ## The loop that was read -/

theorem Stmt.declared_eq_nil (statement : Stmt) (placed : statement.Placed)
    (other : ¬ statement.IsVar) : statement.declared = [] := by
  fun_induction Stmt.declared statement with
  | case1 => exact absurd trivial other
  | case2 | case3 | case4 => rfl
  | case5 condition onTrue ih => exact ih placed.1 placed.2
  | case6 condition onTrue onFalse firstIh secondIh =>
      rw [firstIh placed.1.1 placed.1.2, secondIh placed.2.1 placed.2.2]
      rfl
  | case7 condition body ih => exact ih placed.1 placed.2

namespace ForLoop

def ReadFrom (loop : ForLoop) (tokens : List Token) (noted : List SyntaxError) : Prop :=
  ∃ isOpen, ReadsFor isOpen loop.initializer loop.condition loop.increment loop.body tokens noted

variable {loop : ForLoop} {tokens : List Token} {noted : List SyntaxError}

theorem ReadFrom.quiet (reads : loop.ReadFrom tokens noted) : loop.body.declared = [] := by
  obtain ⟨isOpen, reads⟩ := reads
  cases reads with
  | intro _ _ _ _ _ _ repeated =>
      obtain ⟨placed, other⟩ := repeated.placed
      exact loop.body.declared_eq_nil placed (other Grammar.Role.noConfusion)

theorem ReadFrom.wellOperated (reads : loop.ReadFrom tokens noted) (keyword : Token) :
    (loop.tree keyword).WellOperated := by
  obtain ⟨isOpen, reads⟩ := reads
  rw [tree_eq]
  cases reads with
  | intro _ initialized tested _ stepped _ repeated =>
      exact Grammar.forLoop_wellOperated initialized tested stepped repeated.wellOperated

/-- Runs of a tree are executions of the loop: they end alike, with the same fault or none, the
same output and the same names and values. -/
structure Agrees (loop : ForLoop) (tree : Stmt) (machine : Machine) : Prop where
  executes : ∀ result left, machine.Ends [tree] result left →
    ∃ output, left.sink.output = machine.sink.output ++ output ∧ left.environment.WellFormed ∧
      loop.Executes machine.environment.chain result output left.environment.chain
  ends : ∀ result output final, loop.Executes machine.environment.chain result output final →
    ∃ left, machine.Ends [tree] result left ∧ left.sink.output = machine.sink.output ++ output ∧
      left.environment.WellFormed ∧ left.environment.chain = final

theorem agrees_tree (reads : loop.ReadFrom tokens noted) (keyword : Token) {machine : Machine}
    (formed : machine.environment.WellFormed) (unfailing : machine.sink.Unfailing) :
    loop.Agrees (loop.tree keyword) machine := by
  have operated : Stmt.AllWellOperated [loop.tree keyword] := ⟨reads.wellOperated keyword, trivial⟩
  refine ⟨?_, ?_⟩
  · intro result left ends
    obtain ⟨output, printed, kept, runs⟩ := ends.derived operated formed unfailing
    exact ⟨output, printed, kept, (tree_iff reads.quiet keyword).mp (runs_singleton_iff.mp runs)⟩
  · intro result output final executes
    have runs := runs_singleton_iff.mpr ((tree_iff reads.quiet keyword).mpr executes)
    exact Machine.ends_of_runs runs formed unfailing

end ForLoop

/-- Whenever a `for` statement is read, running its tree is executing the loop with the clauses and
the body that were read.  Each round and each increment starts with the names bound that were bound
when the rounds began, so neither sees a declaration of a body. -/
theorem forStatement_agrees {depth : Nat} {keyword : Token} {before after : Parser} {tree : Stmt}
    (last : before.ending.kind = .eof)
    (run : Rule.forStatement (Rule.statementWithin depth) keyword before = .ok tree after) :
    ∃ (loop : ForLoop) (read : List Token) (noted : List SyntaxError),
      Parser.Passed before read noted after ∧ loop.ReadFrom read noted ∧
      (∀ machine : Machine, machine.environment.WellFormed → machine.sink.Unfailing →
        loop.Agrees tree machine) ∧
      (∀ start chain, loop.Begins start chain → chain.domains = start.domains) ∧
      ∀ start chain, loop.Increments start chain → chain.domains = start.domains := by
  obtain ⟨isOpen, initializer, condition, increment, round, read, noted, passed, inner, rfl, -⟩ :=
    Grammar.forStatement_ok (Grammar.statementWithin_reads depth) last run
  let loop : ForLoop := ⟨initializer, condition, increment, round⟩
  have reads : loop.ReadFrom read noted := ⟨isOpen, inner⟩
  refine ⟨loop, read, noted, passed, reads, ?_, ?_, ?_⟩
  · intro machine formed unfailing
    exact ForLoop.agrees_tree reads keyword formed unfailing
  · intro start chain begins
    exact begins.domains reads.quiet
  · intro start chain increments
    exact increments.domains reads.quiet

/-- Behind the first round of `for (var a;; b) a;` the increment fails. -/
theorem forStatement_agrees_unbound :
    ∃ (before after : Parser) (tree : Stmt) (loop : ForLoop) (read : List Token)
      (noted : List SyntaxError) (output : String) (final : Chain),
      before = (Parser.ofTokens (Scan.ofSource "for (var a;; b) a;").tokens).step ∧
      before.ending.kind = .eof ∧
      Rule.forStatement (Rule.statementWithin 1) ⟨.keyFor, "for", none, 1, ⟨0, 3⟩⟩ before =
        .ok tree after ∧
      Parser.Passed before read noted after ∧ loop.ReadFrom read noted ∧
      loop.Executes Environment.empty.chain
        (some (Fault.undefined ⟨.identifier, "b", none, 1, ⟨13, 14⟩⟩)) output final := by
  have formed : (Machine.start .unfailing).environment.WellFormed := Environment.wellFormed_empty
  have unfailing : Sink.unfailing.Unfailing := fun _ _ => rfl
  let before := (Parser.ofTokens (Scan.ofSource "for (var a;; b) a;").tokens).step
  let tree := Rule.forLoop ⟨.keyFor, "for", none, 1, ⟨0, 3⟩⟩
    (some (.var ⟨.identifier, "a", none, 1, ⟨9, 10⟩⟩ none)) none
    (some (.reference ⟨.identifier, "b", none, 1, ⟨13, 14⟩⟩))
    (.expression (.reference ⟨.identifier, "a", none, 1, ⟨16, 17⟩⟩))
  have last : before.ending.kind = .eof := rfl
  obtain ⟨after, run⟩ : ∃ after,
      Rule.forStatement (Rule.statementWithin 1) ⟨.keyFor, "for", none, 1, ⟨0, 3⟩⟩ before =
        .ok tree after := ⟨_, rfl⟩
  obtain ⟨left, ends⟩ : ∃ left, (Machine.start .unfailing).Ends [tree]
      (some (Fault.undefined ⟨.identifier, "b", none, 1, ⟨13, 14⟩⟩)) left := ⟨_, 1, rfl⟩
  obtain ⟨loop, read, noted, passed, reads, agrees, -⟩ := forStatement_agrees last run
  obtain ⟨output, -, -, executes⟩ := (agrees _ formed unfailing).executes _ left ends
  exact ⟨before, after, tree, loop, read, noted, output, _, rfl, last, run, passed, reads, executes⟩

end TreeWalk
