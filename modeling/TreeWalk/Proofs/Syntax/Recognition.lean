import TreeWalk.Proofs.Syntax.Confinement
import TreeWalk.Proofs.Syntax.Derivation
import TreeWalk.Proofs.Syntax.StatementRules

/-!
# The parser recognizes its grammar

A parse ends without errors exactly on the sentences of the grammar, and its statements are then
the tree of the sentence.  Errors are never taken back, so one failed declaration or one wrong
assignment is enough to tell that the tokens are no sentence.  Statements that are read beside
errors are trees of the grammar too.
-/

set_option autoImplicit false

namespace TreeWalk

open Grammar (Derives Part ReadsProgram ReadsStmt language)
open TreeWalk.Parser (Passed Stops)

namespace Parser

/-! ## Recovery -/

theorem passed_skipToBoundary (count : Nat) (parser : Parser) :
    ∃ read, Passed parser read [] (skipToBoundary count parser) := by
  induction count generalizing parser with
  | zero => exact ⟨[], .refl parser⟩
  | succ count ih =>
      unfold skipToBoundary
      split
      · exact ⟨[], .refl parser⟩
      · obtain ⟨read, stepped⟩ := Rule.passed_step parser
        obtain ⟨skipped, passed⟩ := ih parser.step
        exact ⟨read ++ skipped, stepped.trans passed⟩

theorem passed_synchronize (parser : Parser) (start : Nat) :
    ∃ read, Passed parser read [] (parser.synchronize start) := by
  unfold synchronize
  split
  · obtain ⟨read, stepped⟩ := Rule.passed_step parser
    obtain ⟨skipped, passed⟩ := passed_skipToBoundary parser.step.ahead.length parser.step
    exact ⟨read ++ skipped, stepped.trans passed⟩
  · exact passed_skipToBoundary parser.ahead.length parser

theorem ending_recover (parser : Parser) (start : Nat) (error : SyntaxError) :
    (parser.recover start error).ending = parser.ending := by
  obtain ⟨read, passed⟩ := passed_synchronize parser start
  exact passed.ending

theorem errors_recover (parser : Parser) (start : Nat) (error : SyntaxError) :
    (parser.recover start error).errors = error :: parser.errors := by
  obtain ⟨read, passed⟩ := passed_synchronize parser start
  exact congrArg (List.cons error) passed.errors

/-! ## Programs -/

theorem program_of_end {parser : Parser} (nothing : parser.ahead = []) (count : Nat)
    (done : List Stmt) : program count done parser = (done, parser) := by
  cases count with
  | zero => rfl
  | succ count => simp [program, nothing]

section Round

variable {parser after : Parser} (more : parser.ahead ≠ []) (count : Nat) (done : List Stmt)

include more

theorem program_of_ok {statement : Stmt}
    (run : Rule.topDeclaration parser = .ok statement after) :
    program (count + 1) done parser = program count (statement :: done) after := by
  have some : parser.ahead.isEmpty = false := by simpa using more
  simp [program, some, run]

theorem program_of_error {error : SyntaxError}
    (run : Rule.topDeclaration parser = .error error after) :
    program (count + 1) done parser =
      program count done (after.recover parser.position error) := by
  have some : parser.ahead.isEmpty = false := by simpa using more
  simp [program, some, run]

end Round

theorem program_errors_ne_nil (count : Nat) (done : List Stmt) {parser : Parser}
    (wrong : parser.errors ≠ []) : (program count done parser).2.errors ≠ [] := by
  induction count generalizing done parser with
  | zero => exact wrong
  | succ count ih =>
      unfold program
      split
      · exact wrong
      · split
        · next statement after run =>
            obtain ⟨read, noted, passed⟩ := Rule.confined_topDeclaration parser
            rw [Rule.left_of_ok run] at passed
            refine ih (statement :: done) ?_
            rw [passed.errors]
            simp [wrong]
        · next error after run =>
            refine ih done ?_
            rw [errors_recover]
            exact List.cons_ne_nil _ _

theorem topDeclaration_consumes {before after : Parser} {statement : Stmt}
    (last : before.ending.kind = .eof)
    (run : Rule.topDeclaration before = .ok statement after) :
    ∃ read noted, Passed before read noted after ∧
      ReadsStmt .declaration read statement noted ∧ after.ahead.length < before.ahead.length := by
  obtain ⟨read, noted, passed, reads⟩ := Grammar.topDeclaration_describes _ _ _ last run
  refine ⟨read, noted, passed, reads, ?_⟩
  obtain ⟨token, others, rfl, -⟩ := reads.starts
  rw [passed.ahead, List.length_append, List.length_cons]
  omega

theorem reads_of_program {count : Nat} {done : List Stmt} {parser : Parser}
    (last : parser.ending.kind = .eof) (enough : parser.ahead.length ≤ count)
    (clean : (program count done parser).2.errors = []) :
    ∃ statements, ReadsProgram parser.ahead statements [] ∧
      (program count done parser).1 = statements.reverse ++ done := by
  induction count generalizing done parser with
  | zero =>
      have nothing : parser.ahead = [] := List.eq_nil_of_length_eq_zero (by omega)
      rw [nothing]
      exact ⟨[], .nil, rfl⟩
  | succ count ih =>
      rcases Decidable.em (parser.ahead = []) with nothing | more
      · refine ⟨[], ?_, ?_⟩
        · rw [nothing]
          exact .nil
        · rw [program_of_end nothing]
          rfl
      · cases run : Rule.topDeclaration parser with
        | ok statement after =>
            rw [program_of_ok more _ _ run] at clean ⊢
            obtain ⟨read, noted, passed, head, shorter⟩ := topDeclaration_consumes last run
            have right : after.errors = [] := by
              by_cases right : after.errors = []
              · exact right
              · exact absurd clean (program_errors_ne_nil count _ right)
            have quiet : noted = [] := by
              rw [passed.errors] at right
              exact (List.append_eq_nil_iff.mp right).1
            subst quiet
            obtain ⟨statements, tail, result⟩ := ih (passed.last last) (by omega) clean
            refine ⟨statement :: statements, ?_, ?_⟩
            · rw [passed.ahead]
              exact .cons head tail
            · rw [result]
              simp
        | error failure after =>
            rw [program_of_error more _ _ run] at clean
            have wrong : (after.recover parser.position failure).errors ≠ [] := by
              rw [errors_recover]
              exact List.cons_ne_nil _ _
            exact absurd clean (program_errors_ne_nil count done wrong)

theorem program_of_parts {parts : List Part}
    (each : ∀ part ∈ parts, ReadsStmt .declaration part.tokens part.tree part.noted)
    (count : Nat) (done : List Stmt) {parser : Parser} {rest : List Token}
    (ahead : parser.ahead = Part.tokensOf parts ++ rest) (stops : Stops [.keyElse] rest) :
    program (count + parts.length) done parser =
      program count ((parts.map Part.tree).reverse ++ done)
        (parser.after (Part.tokensOf parts) (Part.notedIn parts) rest) := by
  induction parts generalizing done parser with
  | nil =>
      have stays : parser.after [] [] rest = parser := by
        rw [← show parser.ahead = rest from ahead]
        rfl
      exact congrArg (program count done) stays.symm
  | cons part parts ih =>
      have head := each part List.mem_cons_self
      have tail := fun part member => each part (List.mem_cons_of_mem _ member)
      obtain ⟨token, others, same, -⟩ := head.starts
      have start : parser.ahead = part.tokens ++ (Part.tokensOf parts ++ rest) := by
        rw [ahead, ← List.append_assoc]
        rfl
      have behind : Stops [.keyElse] (Part.tokensOf parts ++ rest) := by
        refine Grammar.stops_else_of_parts (fun part member => ?_) stops
        obtain ⟨token, others, same, starts, -⟩ := (tail part member).starts
        exact ⟨token, others, same, starts⟩
      have run := Grammar.topDeclaration_accepts head parser _ start behind
      have more : parser.ahead ≠ [] := by simp [start, same]
      rw [List.length_cons, ← Nat.add_assoc, program_of_ok more _ _ run, ih tail _ rfl]
      simp [Part.tokensOf, Part.notedIn]

theorem length_le_tokensOf {parts : List Part}
    (each : ∀ part ∈ parts, ReadsStmt .declaration part.tokens part.tree part.noted) :
    parts.length ≤ (Part.tokensOf parts).length := by
  induction parts with
  | nil => exact Nat.le_refl 0
  | cons part parts ih =>
      obtain ⟨token, others, same, -⟩ := (each part List.mem_cons_self).starts
      have fewer := ih fun part member => each part (List.mem_cons_of_mem _ member)
      rw [show Part.tokensOf (part :: parts) = part.tokens ++ Part.tokensOf parts from rfl,
        List.length_append, same, List.length_cons, List.length_cons]
      omega

theorem program_of_reads {parts : List Part}
    (each : ∀ part ∈ parts, ReadsStmt .declaration part.tokens part.tree part.noted)
    {count : Nat} (done : List Stmt) {parser : Parser}
    (ahead : parser.ahead = Part.tokensOf parts) (enough : parser.ahead.length ≤ count) :
    program count done parser =
      ((parts.map Part.tree).reverse ++ done,
        parser.after (Part.tokensOf parts) (Part.notedIn parts) []) := by
  have few := length_le_tokensOf each
  rw [ahead] at enough
  obtain ⟨more, rfl⟩ := Nat.exists_eq_add_of_le' (Nat.le_trans few enough)
  rw [program_of_parts each more done (by rw [ahead, List.append_nil]) (stops_end _)]
  exact program_of_end rfl more _

theorem tokens_recover (parser : Parser) (start : Nat) (error : SyntaxError) :
    (parser.recover start error).tokens = parser.tokens := by
  obtain ⟨read, passed⟩ := passed_synchronize parser start
  exact passed.tokens

theorem Passed.read_infix {before after : Parser} {read : List Token} {noted : List SyntaxError}
    (passed : Passed before read noted after) : read <:+: before.tokens := by
  refine ⟨before.consumed.reverse, after.ahead, ?_⟩
  rw [List.append_assoc, ← passed.ahead]
  rfl

/-- Every statement that a run adds is the tree of a declaration among the tokens, whatever else
went wrong. -/
theorem program_trees (count : Nat) (done : List Stmt) {parser : Parser}
    (last : parser.ending.kind = .eof) {statement : Stmt}
    (member : statement ∈ (program count done parser).1) :
    statement ∈ done ∨ ∃ tokens noted, tokens <:+: parser.tokens ∧
      ReadsStmt .declaration tokens statement noted := by
  induction count generalizing done parser with
  | zero => exact Or.inl member
  | succ count ih =>
      unfold program at member
      split at member
      · exact Or.inl member
      · split at member
        · next first after run =>
            obtain ⟨read, noted, passed, reads, -⟩ := topDeclaration_consumes last run
            have later := ih _ (passed.last last) member
            rw [passed.tokens] at later
            rcases later with early | late
            · rcases List.mem_cons.mp early with rfl | early
              · exact Or.inr ⟨read, noted, passed.read_infix, reads⟩
              · exact Or.inl early
            · exact Or.inr late
        · next error after run =>
            obtain ⟨read, noted, passed⟩ := Rule.confined_topDeclaration parser
            rw [Rule.left_of_error run] at passed
            have tokens := (tokens_recover after parser.position error).trans passed.tokens
            rw [← tokens]
            refine ih done ?_ member
            rw [ending_recover]
            exact passed.last last

end Parser

namespace Parsed

theorem ending_ofTokens (tokens : List Token) : (Parser.ofTokens tokens).ending.kind = .eof := by
  unfold Parser.ofTokens
  cases found : tokens.find? Token.isEnd with
  | none =>
      unfold Token.endingAfter
      cases tokens.getLast? <;> rfl
  | some token => simpa [Token.isEnd] using List.find?_some found

theorem trees_ofTokens (tokens : List Token) {statement : Stmt}
    (member : statement ∈ (Parsed.ofTokens tokens).statements) :
    ∃ read noted, read <:+: tokens.takeWhile (fun token => !token.isEnd) ∧
      ReadsStmt .declaration read statement noted := by
  have read := List.mem_reverse.mp member
  rcases Parser.program_trees _ _ (ending_ofTokens tokens) read with none | tree
  · cases none
  · rwa [Parser.tokens_ofTokens] at tree

theorem reads_of_ok {tokens : List Token} (ok : (Parsed.ofTokens tokens).isOk = true) :
    ReadsProgram (Parser.ofTokens tokens).ahead (Parsed.ofTokens tokens).statements [] := by
  have clean : (Parser.program (Parser.ofTokens tokens).ahead.length []
      (Parser.ofTokens tokens)).2.errors = [] := by
    simpa [Parsed.ofTokens, Parser.parse, isOk] using ok
  obtain ⟨statements, reads, result⟩ :=
    Parser.reads_of_program (ending_ofTokens tokens) (Nat.le_refl _) clean
  have same : (Parsed.ofTokens tokens).statements = statements := by
    simp [Parsed.ofTokens, Parser.parse, result]
  rw [same]
  exact reads

section Sentences

variable {body : List Token} {ending : Token}
variable (inside : ∀ token ∈ body, token.kind ≠ .eof) (last : ending.kind = .eof)

include inside last

theorem ofTokens_sentence :
    Parser.ofTokens (body ++ [ending]) = ⟨[], body, ending, [], []⟩ := by
  have all : ∀ token ∈ body, (!token.isEnd) = true := by
    intro token member
    simpa [Token.isEnd] using inside token member
  have none : body.find? Token.isEnd = none := by
    rw [List.find?_eq_none]
    intro token member
    simpa using all token member
  unfold Parser.ofTokens
  rw [List.takeWhile_append_of_pos all, List.find?_append, none]
  simp [Token.isEnd, last]

theorem ahead_ofTokens : (Parser.ofTokens (body ++ [ending])).ahead = body := by
  rw [ofTokens_sentence inside last]

/-- A parse without errors yields the tree of its tokens, and every tree is so obtained. -/
theorem ok_iff_reads (program : List Stmt) :
    ((Parsed.ofTokens (body ++ [ending])).isOk = true ∧
        (Parsed.ofTokens (body ++ [ending])).statements = program) ↔
      ReadsProgram body program [] := by
  have ahead := ahead_ofTokens inside last
  have start : (Parser.ofTokens (body ++ [ending])).errors = [] := rfl
  constructor
  · rintro ⟨ok, rfl⟩
    have reads := reads_of_ok ok
    rwa [ahead] at reads
  · rintro ⟨parts, each, tokens, rfl, quiet⟩
    have run := Parser.program_of_reads each [] (ahead.trans tokens) (Nat.le_refl _)
    constructor
    · simp [Parsed.ofTokens, Parser.parse, isOk, run, Parser.after, ← quiet, start]
    · simp [Parsed.ofTokens, Parser.parse, run]

theorem ok_iff_derives :
    (Parsed.ofTokens (body ++ [ending])).isOk = true ↔
      Derives language (.phrase .program) ((body ++ [ending]).map Token.kind) := by
  rw [Grammar.derives_program_iff last]
  constructor
  · intro ok
    exact ⟨_, (ok_iff_reads inside last _).mp ⟨ok, rfl⟩⟩
  · rintro ⟨program, reads⟩
    exact ((ok_iff_reads inside last program).mpr reads).1

/-- The parser accepts the sentences of the grammar and no others.  On a sentence it yields the
tree of the sentence; on other tokens it notes an error. -/
theorem recognizes_language :
    ((Parsed.ofTokens (body ++ [ending])).isOk = true ↔
        Derives language (.phrase .program) ((body ++ [ending]).map Token.kind)) ∧
      (∀ program, ((Parsed.ofTokens (body ++ [ending])).isOk = true ∧
          (Parsed.ofTokens (body ++ [ending])).statements = program) ↔
        ReadsProgram body program []) ∧
      (¬ Derives language (.phrase .program) ((body ++ [ending]).map Token.kind) →
        (Parsed.ofTokens (body ++ [ending])).isOk = false ∧
          ∃ error, error ∈ (Parsed.ofTokens (body ++ [ending])).errors) := by
  refine ⟨ok_iff_derives inside last, ok_iff_reads inside last, ?_⟩
  intro other
  rw [← ok_iff_derives inside last] at other
  refine ⟨by simpa using other, List.exists_mem_of_ne_nil _ ?_⟩
  intro none
  exact other (by simp [isOk, none])

end Sentences

/-- The tokens of `print nil;`. -/
def printNil : List Token :=
  [⟨.keyPrint, "print", none, 1, ⟨0, 5⟩⟩, ⟨.keyNil, "nil", none, 1, ⟨6, 9⟩⟩,
    ⟨.semicolon, ";", none, 1, ⟨9, 10⟩⟩]

theorem recognizes_printNil :
    ReadsProgram printNil [.print (.literal .nil ⟨6, 9⟩)] [] ∧
      Derives language (.phrase .program) [.keyPrint, .keyNil, .semicolon, .eof] :=
  have inside : ∀ token ∈ printNil, token.kind ≠ .eof := by decide
  have whole := recognizes_language inside (show (Token.ending 1 10).kind = .eof from rfl)
  ⟨(whole.2.1 _).mp ⟨by rfl, by rfl⟩, whole.1.mp (by rfl)⟩

end Parsed

end TreeWalk
