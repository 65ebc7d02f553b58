import TreeWalk.Proofs.Syntax.Course

/-!
# Parses behind each other

No rule looks at the tokens behind a parser, nor does recovery look back beyond the declaration
that has failed.  So a parser does the same whatever another one has left behind it, and a sequence
of tokens that is parsed without errors may stand in front of any other that does not begin with
`else`.
-/

set_option autoImplicit false

namespace TreeWalk

open Grammar (Part ReadsStmt)
open TreeWalk.Parser (Stops)
open Stateful (Simulates)

/-- The recovery when so many tokens stand in front of its own. -/
def Recovery.further (recovery : Recovery) (count : Nat) : Recovery :=
  { recovery with
    start := recovery.start + count
    failed := recovery.failed + count
    resumed := recovery.resumed + count }

namespace Parser

/-- The parser behind an earlier one: what that one has consumed and noted comes first. -/
def behind (parser earlier : Parser) : Parser :=
  { parser with
    consumed := parser.consumed ++ earlier.consumed
    errors := parser.errors ++ earlier.errors
    recoveries :=
      parser.recoveries.map (·.further earlier.position) ++ earlier.recoveries }

section Behind

variable (parser earlier : Parser)

theorem ahead_behind : (parser.behind earlier).ahead = parser.ahead := rfl

theorem position_behind : (parser.behind earlier).position = parser.position + earlier.position :=
  List.length_append

theorem step_behind : (parser.behind earlier).step = parser.step.behind earlier := by
  unfold step
  cases ahead : parser.ahead with
  | nil => simp [behind, ahead]
  | cons token rest => simp [behind, ahead, position]

end Behind

end Parser

/-! ## Rules -/

namespace Rule

variable {α : Type}

/-- The rule does the same behind an earlier parser. -/
def Ignores (earlier : Parser) (rule : Rule α) : Prop :=
  Simulates Eq (fun parser further => further = parser.behind earlier) Eq rule rule

section Ignores

variable {earlier parser after : Parser} {rule : Rule α} (ignores : Ignores earlier rule)

include ignores

theorem Ignores.ok {value : α} (run : rule parser = .ok value after) :
    rule (parser.behind earlier) = .ok value (after.behind earlier) := by
  have matched := ignores parser _ rfl
  rw [run] at matched
  generalize rule (parser.behind earlier) = result at matched ⊢
  cases matched with
  | ok same left => rw [same, left]

theorem Ignores.error {error : SyntaxError} (run : rule parser = .error error after) :
    rule (parser.behind earlier) = .error error (after.behind earlier) := by
  have matched := ignores parser _ rfl
  rw [run] at matched
  generalize rule (parser.behind earlier) = result at matched ⊢
  cases matched with
  | error same left => rw [same, left]

end Ignores

theorem ignores_accept? (earlier : Parser) (kinds : List Kind) :
    Ignores earlier (accept? kinds) := by
  rintro parser _ rfl
  unfold accept?
  rw [Parser.ahead_behind]
  cases parser.ahead with
  | nil => exact .ok rfl rfl
  | cons token rest =>
      dsimp only
      split
      · exact .ok rfl (Parser.step_behind parser earlier)
      · exact .ok rfl rfl

theorem ignores_note (earlier : Parser) (error : SyntaxError) : Ignores earlier (note error) := by
  rintro parser _ rfl
  exact .ok rfl rfl

theorem ignores_assigned (earlier : Parser) (target : Expr) (equals : Token) (value : Expr) :
    Ignores earlier (assigned target equals value) := by
  unfold assigned
  split
  · exact .pure rfl
  · exact Simulates.bind (ignores_note earlier _) fun _ _ _ => .pure rfl

theorem Composed.ignores {rule : Rule α} (composed : Composed rule) (earlier : Parser) :
    Ignores earlier rule := by
  induction composed with
  | pure value => exact .pure rfl
  | fail =>
      rintro parser _ rfl
      exact .error rfl rfl
  | peek | sees | bound =>
      rintro parser _ rfl
      exact .ok rfl rfl
  | step =>
      rintro parser _ rfl
      exact .ok rfl (Parser.step_behind parser earlier)
  | accept? kinds => exact ignores_accept? earlier kinds
  | bind _ _ early late =>
      refine Simulates.bind early ?_
      rintro value _ rfl
      exact late value
  | assignment target _ ih =>
      refine Simulates.bind (ignores_accept? earlier [.equal]) ?_
      rintro accepted _ rfl
      cases accepted with
      | none => exact .pure rfl
      | some equals =>
          refine Simulates.bind ih ?_
          rintro value _ rfl
          exact ignores_assigned earlier target equals value

end Rule

/-! ## Recovery and programs -/

namespace Parser

variable {parser : Parser} (earlier : Parser)

theorem atBoundary_behind (some : parser.consumed ≠ []) :
    (parser.behind earlier).atBoundary = parser.atBoundary := by
  obtain ⟨token, rest, consumed⟩ := List.exists_cons_of_ne_nil some
  simp [atBoundary, behind, consumed, next]

theorem consumed_step (some : parser.consumed ≠ []) : parser.step.consumed ≠ [] := by
  unfold step
  split
  · exact some
  · exact List.cons_ne_nil _ _

theorem skipToBoundary_behind (count : Nat) (some : parser.consumed ≠ []) :
    skipToBoundary count (parser.behind earlier) =
      (skipToBoundary count parser).behind earlier := by
  induction count generalizing parser with
  | zero => rfl
  | succ count ih =>
      unfold skipToBoundary
      rw [ahead_behind, atBoundary_behind earlier some, step_behind, ih (consumed_step some)]
      split
      · rfl
      · rfl

theorem moved_behind (start : Nat) :
    (parser.behind earlier).moved (start + earlier.position) =
      (parser.moved start).behind earlier := by
  unfold moved
  simp only [position_behind, Nat.add_right_cancel_iff, step_behind]
  split
  · rfl
  · rfl

theorem synchronize_behind {start : Nat} (some : (parser.moved start).consumed ≠ []) :
    (parser.behind earlier).synchronize (start + earlier.position) =
      (parser.synchronize start).behind earlier := by
  rw [synchronize_eq, synchronize_eq, moved_behind, ahead_behind]
  exact skipToBoundary_behind earlier _ some

theorem recover_behind {start : Nat} (error : SyntaxError)
    (some : (parser.moved start).consumed ≠ []) :
    (parser.behind earlier).recover (start + earlier.position) error =
      (parser.recover start error).behind earlier := by
  unfold recover
  rw [synchronize_behind earlier some]
  dsimp only
  rw [position_behind, position_behind]
  rfl

theorem consumed_moved {after : Parser} {error : SyntaxError} (more : parser.ahead ≠ [])
    (run : Rule.topDeclaration parser = .error error after) :
    (after.moved parser.position).consumed ≠ [] := by
  obtain ⟨read, noted, passed⟩ := Rule.confined_topDeclaration parser
  rw [Rule.left_of_error run] at passed
  have forward := passed.position
  have moved := position_moved more run
  intro nothing
  have none : (after.moved parser.position).position = 0 := by
    rw [position, nothing]
    rfl
  rw [none] at moved
  unfold Recovery.skipsFrom at moved
  dsimp only at moved
  split at moved <;> omega

/-- Whatever an earlier parser has left behind, a run goes on as if there were nothing. -/
theorem program_behind (parser earlier : Parser) (count : Nat) (done others : List Stmt) :
    program count (done ++ others) (parser.behind earlier) =
      ((program count done parser).1 ++ others,
        (program count done parser).2.behind earlier) := by
  induction count generalizing done parser with
  | zero => rfl
  | succ count ih =>
      rcases Decidable.em (parser.ahead = []) with nothing | more
      · have end' : (parser.behind earlier).ahead = [] := nothing
        rw [program_of_end nothing, program_of_end end']
      · have more' : (parser.behind earlier).ahead ≠ [] := more
        have ignores := Rule.composed_topDeclaration.ignores earlier
        cases run : Rule.topDeclaration parser with
        | ok statement after =>
            rw [program_of_ok more _ _ run, program_of_ok more' _ _ (ignores.ok run)]
            exact ih _ (statement :: done)
        | error failure after =>
            rw [program_of_error more _ _ run, program_of_error more' _ _ (ignores.error run),
              position_behind, recover_behind earlier failure (consumed_moved more run)]
            exact ih _ done

theorem program_enough {count other : Nat} (done : List Stmt) (last : parser.ending.kind = .eof)
    (enough : parser.ahead.length ≤ count) (enough' : parser.ahead.length ≤ other) :
    program count done parser = program other done parser := by
  induction count generalizing other done parser with
  | zero =>
      have nothing : parser.ahead = [] := List.eq_nil_of_length_eq_zero (Nat.le_zero.mp enough)
      rw [program_of_end nothing, program_of_end nothing]
  | succ count ih =>
      rcases Decidable.em (parser.ahead = []) with nothing | more
      · rw [program_of_end nothing, program_of_end nothing]
      · have some := List.length_pos_iff.mpr more
        obtain ⟨other, rfl⟩ := Nat.exists_eq_succ_of_ne_zero (show other ≠ 0 by omega)
        cases run : Rule.topDeclaration parser with
        | ok statement after =>
            obtain ⟨ends, fewer⟩ := shorter_of_ok last more run
            rw [program_of_ok more _ _ run, program_of_ok more _ _ run]
            exact ih _ ends (by omega) (by omega)
        | error failure after =>
            obtain ⟨ends, fewer⟩ := shorter_of_error last more run
            rw [program_of_error more _ _ run, program_of_error more _ _ run]
            exact ih done ends (by omega) (by omega)

/-- Declarations at the front are read as if nothing came behind them, and what comes behind them
is parsed as if it stood alone. -/
theorem program_append {parts : List Part}
    (each : ∀ part ∈ parts, ReadsStmt .declaration part.tokens part.tree part.noted)
    (done : List Stmt) {rest : List Token} (ahead : parser.ahead = Part.tokensOf parts ++ rest)
    (stops : Stops [.keyElse] rest) (last : parser.ending.kind = .eof) :
    program parser.ahead.length done parser =
      program rest.length ((parts.map Part.tree).reverse ++ done)
        (parser.after (Part.tokensOf parts) (Part.notedIn parts) rest) := by
  have few := length_le_tokensOf each
  have length : parser.ahead.length = (Part.tokensOf parts).length + rest.length := by
    rw [ahead, List.length_append]
  obtain ⟨count, total⟩ : ∃ count, parser.ahead.length = count + parts.length :=
    Nat.exists_eq_add_of_le' (by omega)
  rw [total, program_of_parts each count done ahead stops]
  exact program_enough _ last (show rest.length ≤ count by omega) (Nat.le_refl _)

end Parser

/-! ## Sequences of tokens -/

namespace Parsed

/-- What a run of the parser yields. -/
def ofRun (run : List Stmt × Parser) : Parsed :=
  ⟨run.1.reverse, run.2.errors.reverse, run.2.recoveries.reverse⟩

theorem ofRun_behind (run : List Stmt × Parser) (front : List Stmt) (earlier : Parser) :
    ofRun (run.1 ++ front.reverse, run.2.behind earlier) =
      ⟨front ++ (ofRun run).statements, earlier.errors.reverse ++ (ofRun run).errors,
        earlier.recoveries.reverse ++ (ofRun run).recoveries.map (·.further earlier.position)⟩ := by
  simp [ofRun, Parser.behind]

theorem ofTokens_eq_ofRun {body : List Token} {ending : Token}
    (inside : ∀ token ∈ body, token.kind ≠ .eof) (last : ending.kind = .eof) :
    Parsed.ofTokens (body ++ [ending]) =
      ofRun (Parser.program body.length [] ⟨[], body, ending, [], []⟩) := by
  unfold Parsed.ofTokens
  rw [ofTokens_sentence inside last]
  rfl

theorem ahead_of_inside {tokens : List Token} (inside : ∀ token ∈ tokens, token.kind ≠ .eof) :
    (Parser.ofTokens tokens).ahead = tokens := by
  have all : ∀ token ∈ tokens, (!token.isEnd) = true := by
    intro token member
    simpa [Token.isEnd] using inside token member
  have whole : (tokens ++ []).takeWhile (fun token => !token.isEnd) = tokens ++ [] :=
    List.takeWhile_append_of_pos all
  rwa [List.append_nil] at whole

/-- Tokens that are parsed without errors may stand in front of others that do not begin with
`else`.  The others are parsed as if they stood alone: they have the same statements, errors and
recoveries. -/
theorem append_of_ok {first body : List Token} {ending : Token}
    (inside : ∀ token ∈ first, token.kind ≠ .eof) (ok : (Parsed.ofTokens first).isOk = true)
    (within : ∀ token ∈ body, token.kind ≠ .eof) (last : ending.kind = .eof)
    (other : body.head?.map Token.kind ≠ some .keyElse) :
    Parsed.ofTokens (first ++ (body ++ [ending])) =
      ⟨(Parsed.ofTokens first).statements ++ (Parsed.ofTokens (body ++ [ending])).statements,
        (Parsed.ofTokens (body ++ [ending])).errors,
        (Parsed.ofTokens (body ++ [ending])).recoveries.map (·.further first.length)⟩ := by
  have reads := reads_of_ok ok
  rw [ahead_of_inside inside] at reads
  obtain ⟨parts, each, split, trees, quiet⟩ := reads
  have stops : Stops [.keyElse] body := by
    intro token head member
    rw [List.mem_singleton] at member
    exact other (by rw [Option.mem_def.mp head, Option.map_some, member])
  have both : ∀ token ∈ first ++ body, token.kind ≠ .eof :=
    List.forall_mem_append.mpr ⟨inside, within⟩
  -- the whole run is that of the first tokens and then, behind these, that of the others alone
  let start : Parser := ⟨[], first ++ body, ending, [], []⟩
  let alone : Parser := ⟨[], body, ending, [], []⟩
  have early := Parser.program_append each []
    (show start.ahead = Part.tokensOf parts ++ body from congrArg (· ++ body) split) stops last
  rw [← split, ← quiet, List.append_nil] at early
  have late := Parser.program_behind alone (start.after first [] body) body.length []
    (parts.map Part.tree).reverse
  have run : Parser.program (first ++ body).length [] start = _ := early.trans late
  rw [← List.append_assoc, ofTokens_eq_ofRun both last, ofTokens_eq_ofRun within last, run,
    ofRun_behind, trees]
  simp [start, alone, Parser.after, Parser.position]

/-- Behind `print nil;` a parenthesis that closes nothing is the same error as by itself. -/
theorem append_of_ok_closing :
    (∀ token ∈ printNil, token.kind ≠ .eof) ∧ (Parsed.ofTokens printNil).isOk = true ∧
      Parsed.ofTokens (printNil ++ ([⟨.rightParen, ")", none, 2, ⟨11, 12⟩⟩] ++ [.ending 2 12])) =
        ⟨[.print (.literal .nil ⟨6, 9⟩)],
          [⟨.expectedExpression, ⟨.rightParen, ")", none, 2, ⟨11, 12⟩⟩⟩],
          [⟨⟨.expectedExpression, ⟨.rightParen, ")", none, 2, ⟨11, 12⟩⟩⟩, 3, 3, 4⟩]⟩ := by
  have inside : ∀ token ∈ printNil, token.kind ≠ .eof := by decide
  have ok : (Parsed.ofTokens printNil).isOk = true := rfl
  have whole := @append_of_ok printNil [⟨.rightParen, ")", none, 2, ⟨11, 12⟩⟩] (.ending 2 12)
    inside ok (by decide) rfl (by decide)
  exact ⟨inside, ok, whole.trans rfl⟩

end Parsed

end TreeWalk
