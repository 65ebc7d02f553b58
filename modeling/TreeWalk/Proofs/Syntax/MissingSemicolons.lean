import TreeWalk.Proofs.Syntax.Concatenation

/-!
# Missing semicolons

Expression and print statements and variable declarations end with a semicolon.  Where it is
missing in front of a keyword that starts a statement, the keyword continues no expression, so the
declaration fails there, behind all its other tokens.  Recovery has arrived then, and what begins
with the keyword is parsed as if it stood alone.
-/

set_option autoImplicit false

namespace TreeWalk

/-- How the message goes on when the semicolon of a statement is missing; statements of the other
kinds do not end with one. -/
def Stmt.closing? : Stmt → Option String
  | .expression _ | .print _ => some "after value"
  | .var _ _ => some "after variable declaration"
  | .block _ | .branch _ _ _ | .loop _ _ => none

namespace Rule

open TreeWalk.Parser (Stops)
open Stateful (bind_of_error bind_of_ok)

variable {α β : Type}

/-- Behind these tokens the rule fails at any keyword that starts a statement. -/
def Stalls (rule : Rule α) (tokens : List Token) (noted : List SyntaxError) (cause : SyntaxCause) :
    Prop :=
  ∀ parser token rest, parser.ahead = tokens ++ token :: rest →
    token.kind.startsStatement = true →
      rule parser = .error ⟨cause, token⟩ (parser.after tokens noted (token :: rest))

theorem stalls_expect {kind : Kind} (other : kind.startsStatement = false) (context : String) :
    Stalls (expect kind context) [] [] (.unexpectedToken kind context) := by
  intro parser token rest ahead starts
  have different : token.kind ≠ kind := by
    rintro rfl
    exact absurd starts (by simp [other])
  have stops : Stops [kind] parser.ahead := by
    rw [ahead]
    exact Parser.stops_cons (by simpa using different)
  refine (bind_of_ok _ (accept?_of_stops stops)).trans ?_
  rw [show token :: rest = parser.ahead from ahead.symm, Parser.after_nil,
    ← Parser.next_of_ahead ahead]
  rfl

section Behind

variable {first : Rule α} {next : α → Rule β} {early : List Kind} {front back : List Token}
variable {value : α} {noted later : List SyntaxError} {cause : SyntaxCause}

theorem Accepts.stalls (before : Accepts first early front value noted)
    (after : Stalls (next value) back later cause)
    (follows : ∀ token rest, token.kind.startsStatement = true →
      Stops early (back ++ token :: rest)) :
    Stalls (first >>= next) (front ++ back) (later ++ noted) cause := by
  intro parser token rest ahead starts
  rw [List.append_assoc] at ahead
  have run := before parser _ ahead (follows token rest starts)
  have stalled := after (parser.after front noted (back ++ token :: rest)) token rest rfl starts
  rw [Parser.after_after] at stalled
  exact (bind_of_ok next run).trans stalled

theorem Accepts.stalls_at_once (before : Accepts first early front value noted)
    (after : Stalls (next value) [] [] cause)
    (others : ∀ kind ∈ early, kind.startsStatement = false) :
    Stalls (first >>= next) front noted cause := by
  have whole := before.stalls after fun token rest starts =>
    Parser.stops_cons fun member => absurd starts (by simp [others _ member])
  rwa [List.append_nil] at whole

theorem Accepts.cons_stalls {token : Token} {tokens : List Token}
    (before : Accepts first [] [token] value []) (after : Stalls (next value) tokens noted cause) :
    Stalls (first >>= next) (token :: tokens) noted cause := by
  have whole := before.stalls after fun _ _ _ => Parser.stops_nil _
  rwa [List.append_nil] at whole

theorem Accepts.pass_stalls {tokens : List Token} (before : Accepts first early [] value [])
    (after : Stalls (next value) tokens noted cause)
    (follows : ∀ token rest, token.kind.startsStatement = true →
      Stops early (tokens ++ token :: rest)) :
    Stalls (first >>= next) tokens noted cause := by
  have whole := before.stalls after follows
  rwa [List.append_nil] at whole

end Behind

theorem Stalls.bind {first : Rule α} {tokens : List Token} {noted : List SyntaxError}
    {cause : SyntaxCause} (stalls : Stalls first tokens noted cause) (next : α → Rule β) :
    Stalls (first >>= next) tokens noted cause :=
  fun parser token rest ahead starts => bind_of_error next (stalls parser token rest ahead starts)

theorem Stalls.bound {next : Nat → Rule β} {tokens : List Token} {noted : List SyntaxError}
    {cause : SyntaxCause}
    (stalls : ∀ count, tokens.length < count → Stalls (next count) tokens noted cause) :
    Stalls (Rule.bound >>= next) tokens noted cause := by
  intro parser token rest ahead starts
  have enough : tokens.length < parser.ahead.length + 1 := by
    rw [ahead, List.length_append]
    omega
  exact stalls _ enough parser token rest ahead starts

end Rule

/-! ## Statements without their semicolon -/

namespace Grammar

open Rule (Stalls)

/-- These tokens are a statement whose closing semicolon has been left out. -/
inductive ReadsUnclosed : List Token → Stmt → List SyntaxError → Prop where
  | expression {tokens : List Token} {expr : Expr} {noted : List SyntaxError}
      (inner : Reads .expression tokens expr noted) :
      ReadsUnclosed tokens (.expression expr) noted
  | print {keyword : Token} {tokens : List Token} {expr : Expr} {noted : List SyntaxError}
      (keywordKind : keyword.kind = .keyPrint) (inner : Reads .expression tokens expr noted) :
      ReadsUnclosed (keyword :: tokens) (.print expr) noted
  | bare {keyword name : Token} (keywordKind : keyword.kind = .keyVar)
      (nameKind : name.kind = .identifier) : ReadsUnclosed [keyword, name] (.var name none) []
  | initialized {keyword name equals : Token} {tokens : List Token} {expr : Expr}
      {noted : List SyntaxError} (keywordKind : keyword.kind = .keyVar)
      (nameKind : name.kind = .identifier) (equalsKind : equals.kind = .equal)
      (initializer : Reads .expression tokens expr noted) :
      ReadsUnclosed (keyword :: name :: equals :: tokens) (.var name (some expr)) noted

theorem ReadsStmt.unclosed {role : Role} {tokens : List Token} {stmt : Stmt}
    {noted : List SyntaxError} (reads : ReadsStmt role tokens stmt noted)
    (closes : stmt.closing?.isSome = true) :
    ∃ opening semicolon, tokens = opening ++ [semicolon] ∧ semicolon.kind = .semicolon ∧
      ReadsUnclosed opening stmt noted := by
  induction reads with
  | var declares =>
      cases declares with
      | bare keywordKind nameKind kind => exact ⟨[_, _], _, rfl, kind, .bare keywordKind nameKind⟩
      | initialized keywordKind nameKind equalsKind initializer kind =>
          exact ⟨_ :: _ :: _ :: _, _, rfl, kind,
            .initialized keywordKind nameKind equalsKind initializer⟩
  | statement _ ih => exact ih closes
  | expression evaluates =>
      cases evaluates with
      | intro inner kind => exact ⟨_, _, rfl, kind, .expression inner⟩
  | print keywordKind inner kind => exact ⟨_ :: _, _, rfl, kind, .print keywordKind inner⟩
  | block | ifOnly | ifElse | whileLoop => cases closes
  | @forLoop _ _ _ _ _ _ _ _ _ initializer => cases initializer <;> cases closes

theorem ReadsUnclosed.starts {tokens : List Token} {stmt : Stmt} {noted : List SyntaxError}
    (reads : ReadsUnclosed tokens stmt noted) :
    ∃ token others, tokens = token :: others ∧ token.kind ∈ Kind.keyVar :: statementStarts := by
  cases reads with
  | expression inner =>
      obtain ⟨token, others, rfl, member⟩ := inner.starts
      exact ⟨token, others, rfl, List.mem_cons_of_mem _ (List.mem_append_right _ member)⟩
  | print kind | bare kind | initialized kind =>
      exact ⟨_, _, rfl, by simp [kind, statementStarts]⟩

theorem startsStatement_of_continuing :
    ∀ kind ∈ continuing .expression, kind.startsStatement = false := by
  decide

theorem expression_stalls {tokens : List Token} {expr : Expr} {noted : List SyntaxError}
    (reads : Reads .expression tokens expr noted) (context : String)
    (next : Expr → Token → Rule Stmt) :
    Stalls (do
      let expr ← Rule.expression
      let semicolon ← Rule.expect .semicolon context
      next expr semicolon) tokens noted (.unexpectedToken .semicolon context) :=
  (expression_accepts reads).stalls_at_once ((Rule.stalls_expect rfl context).bind _)
    startsStatement_of_continuing

theorem variableDeclaration_stalls {keyword : Token} {tokens : List Token} {name : Token}
    {initializer : Option Expr} {noted : List SyntaxError}
    (reads : ReadsUnclosed (keyword :: tokens) (.var name initializer) noted) :
    Stalls Rule.variableDeclaration tokens noted
      (.unexpectedToken .semicolon "after variable declaration") := by
  cases reads with
  | bare _ nameKind =>
      refine (Rule.accepts_expectName nameKind).cons_stalls ?_
      refine (Rule.accepts_none [.equal]).stalls_at_once ?_ (by decide)
      exact (Rule.stalls_expect rfl _).bind _
  | initialized _ nameKind equalsKind inner =>
      refine (Rule.accepts_expectName nameKind).cons_stalls ?_
      refine (Rule.accepts_some (List.mem_singleton.mpr equalsKind)).cons_stalls ?_
      exact expression_stalls inner "after variable declaration" fun value _ =>
        pure (.var _ (some value))

/-- A keyword that starts a statement is not taken for the missing semicolon, nor for more of what
stands before it. -/
theorem ReadsUnclosed.stalls {tokens : List Token} {stmt : Stmt} {noted : List SyntaxError}
    (reads : ReadsUnclosed tokens stmt noted) {context : String}
    (closes : stmt.closing? = some context) :
    Stalls Rule.topDeclaration tokens noted (.unexpectedToken .semicolon context) := by
  refine .bound fun depth enough => ?_
  cases reads with
  | expression inner =>
      cases closes
      have starts := inner.starts
      have statement := expression_stalls inner "after value" fun expr _ => pure (.expression expr)
      refine (Rule.accepts_none [.keyVar]).pass_stalls ?_ fun token rest _ =>
        Parser.stops_of_starts starts (by decide) _
      cases depth with
      | zero => exact statement
      | succ depth =>
          exact (Rule.accepts_none [.keyPrint, .leftBrace, .keyIf, .keyWhile, .keyFor]).pass_stalls
            statement fun token rest _ => Parser.stops_of_starts starts (by decide) _
  | print keywordKind inner =>
      cases closes
      cases depth with
      | zero => simp at enough
      | succ depth =>
          refine (Rule.accepts_none [.keyVar]).pass_stalls ?_ fun token rest _ =>
            Parser.stops_cons (by rw [keywordKind]; decide)
          refine (Rule.accepts_some (by simp [keywordKind])).cons_stalls ?_
          simp only [keywordKind]
          exact expression_stalls inner "after value" _
  | bare keywordKind nameKind =>
      cases closes
      exact (Rule.accepts_some (List.mem_singleton.mpr keywordKind)).cons_stalls
        (variableDeclaration_stalls (.bare keywordKind nameKind))
  | initialized keywordKind nameKind equalsKind inner =>
      cases closes
      exact (Rule.accepts_some (List.mem_singleton.mpr keywordKind)).cons_stalls
        (variableDeclaration_stalls (.initialized keywordKind nameKind equalsKind inner))

end Grammar

/-! ## Recovery -/

namespace Parser

open Grammar (Part ReadsStmt ReadsUnclosed)

theorem position_after (parser : Parser) (read : List Token) (noted : List SyntaxError)
    (rest : List Token) :
    (parser.after read noted rest).position = parser.position + read.length := by
  simp only [position, after, List.length_append, List.length_reverse]
  exact Nat.add_comm _ _

/-- Recovery skips nothing where a declaration that has consumed tokens fails at a boundary. -/
theorem recover_at_boundary {parser : Parser} {start : Nat} (beyond : parser.position ≠ start)
    (boundary : parser.atBoundary = true) (error : SyntaxError) :
    parser.recover start error =
      { parser with
        errors := error :: parser.errors
        recoveries := ⟨error, start, parser.position, parser.position⟩ :: parser.recoveries } := by
  have stays : parser.synchronize start = parser := by
    rw [synchronize_eq, moved, if_neg beyond]
    cases parser.ahead.length with
    | zero => rfl
    | succ count => simp [skipToBoundary, boundary]
  unfold recover
  rw [stays]

/-- Having read these tokens in vain, the parser goes on at the next one. -/
def gaveUp (parser : Parser) (opening : List Token) (error : SyntaxError) (rest : List Token) :
    Parser :=
  { parser.after opening [error] rest with
    recoveries :=
      ⟨error, parser.position, parser.position + opening.length,
        parser.position + opening.length⟩ :: parser.recoveries }

theorem position_gaveUp (parser : Parser) (opening : List Token) (error : SyntaxError)
    (rest : List Token) :
    (parser.gaveUp opening error rest).position = parser.position + opening.length :=
  parser.position_after opening [error] rest

section Unclosed

variable {parser : Parser} {opening rest : List Token} {next : Token} {stmt : Stmt}
variable {context : String} (reads : ReadsUnclosed opening stmt [])
variable (closes : stmt.closing? = some context) (starts : next.kind.startsStatement = true)

include reads closes starts

theorem program_of_unclosed (ahead : parser.ahead = opening ++ next :: rest) (count : Nat)
    (done : List Stmt) :
    program (count + 1) done parser =
      program count done
        (parser.gaveUp opening ⟨.unexpectedToken .semicolon context, next⟩ (next :: rest)) := by
  obtain ⟨first, others, rfl, -⟩ := reads.starts
  have more : parser.ahead ≠ [] := by simp [ahead]
  have run := reads.stalls closes parser next rest ahead starts
  have moved := parser.position_after (first :: others) [] (next :: rest)
  have beyond : (parser.after (first :: others) [] (next :: rest)).position ≠
      parser.position := by
    simp [moved]
  have boundary : (parser.after (first :: others) [] (next :: rest)).atBoundary = true := by
    simp [atBoundary, Parser.next, after, starts]
  rw [program_of_error more _ _ run, recover_at_boundary beyond boundary, moved]
  rfl

theorem program_append_unclosed {parts : List Part}
    (each : ∀ part ∈ parts, ReadsStmt .declaration part.tokens part.tree part.noted)
    (quiet : Part.notedIn parts = []) (done : List Stmt)
    (ahead : parser.ahead = Part.tokensOf parts ++ opening ++ next :: rest)
    (last : parser.ending.kind = .eof) :
    program parser.ahead.length done parser =
      program (next :: rest).length ((parts.map Part.tree).reverse ++ done)
        ((parser.after (Part.tokensOf parts) [] (opening ++ next :: rest)).gaveUp opening
          ⟨.unexpectedToken .semicolon context, next⟩ (next :: rest)) := by
  have begins := reads.starts
  have stops : Stops [.keyElse] (opening ++ next :: rest) :=
    stops_of_starts begins (by decide) _
  rw [List.append_assoc] at ahead
  have early := program_append each done ahead stops last
  obtain ⟨first, others, rfl, -⟩ := begins
  have total : (first :: others ++ next :: rest).length = (others ++ next :: rest).length + 1 := rfl
  rw [early, quiet, total, program_of_unclosed reads closes starts rfl]
  refine program_enough _ last ?_ (Nat.le_refl _)
  rw [List.length_append]
  exact Nat.le_add_left _ _

end Unclosed

end Parser

namespace Grammar

theorem ReadsProgram.unclosed {front : List Token} {semicolon : Token} {others : List Stmt}
    {last : Stmt} (reads : ReadsProgram (front ++ [semicolon]) (others ++ [last]) [])
    (closes : last.closing?.isSome = true) :
    semicolon.kind = .semicolon ∧
      ∃ (parts : List Part) (opening : List Token),
        (∀ part ∈ parts, ReadsStmt .declaration part.tokens part.tree part.noted) ∧
          front = Part.tokensOf parts ++ opening ∧ others = parts.map Part.tree ∧
            [] = Part.notedIn parts ∧ ReadsUnclosed opening last [] := by
  obtain ⟨parts, each, split, trees, quiet⟩ := reads
  obtain ⟨parts, rest, rfl, rfl, final⟩ := List.map_eq_append_iff.mp trees.symm
  obtain ⟨part, rfl, rfl⟩ := List.map_eq_singleton_iff.mp final
  obtain ⟨opening, closing, tokens, kind, unclosed⟩ := (each part (by simp)).unclosed closes
  have silent : [] = Part.notedIn parts ∧ part.noted = [] := by
    simpa [Part.notedIn, and_comm] using quiet
  have whole : front ++ [semicolon] = (Part.tokensOf parts ++ opening) ++ [closing] := by
    rw [split, List.append_assoc, ← tokens]
    simp [Part.tokensOf]
  obtain ⟨rfl, same⟩ := List.append_inj' whole rfl
  cases same
  rw [silent.2] at unclosed
  exact ⟨kind, parts, opening, fun part member => each part (List.mem_append_left _ member), rfl,
    rfl, silent.1, unclosed⟩

end Grammar

namespace Parsed

open Grammar (Part)
open TreeWalk.Parser (Stops)

/-- Where the semicolon that closes the last statement of a program is left out in front of a
keyword that starts a statement, that statement is lost and one error about the keyword is noted.
The tokens from the keyword on are parsed as if they stood alone. -/
theorem append_unclosed {front rest : List Token} {semicolon next ending : Token}
    {others : List Stmt} {last : Stmt} {context : String}
    (inside : ∀ token ∈ front ++ [semicolon], token.kind ≠ .eof)
    (ok : (Parsed.ofTokens (front ++ [semicolon])).isOk = true)
    (statements : (Parsed.ofTokens (front ++ [semicolon])).statements = others ++ [last])
    (closes : last.closing? = some context) (starts : next.kind.startsStatement = true)
    (within : ∀ token ∈ next :: rest, token.kind ≠ .eof) (ends : ending.kind = .eof) :
    semicolon.kind = .semicolon ∧
      ∃ start < front.length,
        Parsed.ofTokens (front ++ (next :: rest ++ [ending])) =
          ⟨others ++ (Parsed.ofTokens (next :: rest ++ [ending])).statements,
            ⟨.unexpectedToken .semicolon context, next⟩ ::
              (Parsed.ofTokens (next :: rest ++ [ending])).errors,
            ⟨⟨.unexpectedToken .semicolon context, next⟩, start, front.length, front.length⟩ ::
              (Parsed.ofTokens (next :: rest ++ [ending])).recoveries.map
                (·.further front.length)⟩ := by
  have reads := reads_of_ok ok
  rw [ahead_of_inside inside, statements] at reads
  obtain ⟨kind, parts, opening, each, rfl, rfl, quiet, unclosed⟩ :=
    reads.unclosed (by simp [closes])
  have outside : ∀ token ∈ Part.tokensOf parts ++ opening, token.kind ≠ .eof :=
    fun token member => inside token (List.mem_append_left _ member)
  have both : ∀ token ∈ Part.tokensOf parts ++ opening ++ next :: rest, token.kind ≠ .eof :=
    List.forall_mem_append.mpr ⟨outside, within⟩
  let error : SyntaxError := ⟨.unexpectedToken .semicolon context, next⟩
  let start : Parser := ⟨[], Part.tokensOf parts ++ opening ++ next :: rest, ending, [], []⟩
  let alone : Parser := ⟨[], next :: rest, ending, [], []⟩
  let read : Parser := start.after (Part.tokensOf parts) [] (opening ++ next :: rest)
  let lost : Parser := read.gaveUp opening error (next :: rest)
  -- the run up to the keyword, and then that of the other tokens behind it
  have early : Parser.program start.ahead.length [] start =
      Parser.program (next :: rest).length ((parts.map Part.tree).reverse ++ [])
        (alone.behind lost) :=
    Parser.program_append_unclosed unclosed closes starts each quiet.symm [] rfl ends
  rw [List.append_nil] at early
  have late := Parser.program_behind alone lost (next :: rest).length []
    (parts.map Part.tree).reverse
  have run : Parser.program (Part.tokensOf parts ++ opening ++ next :: rest).length [] start =
      _ := early.trans late
  have position : read.position = (Part.tokensOf parts).length := by
    rw [start.position_after]
    exact Nat.zero_add _
  have here : lost.position = (Part.tokensOf parts ++ opening).length := by
    rw [read.position_gaveUp, position, List.length_append]
  refine ⟨kind, (Part.tokensOf parts).length, ?_, ?_⟩
  · obtain ⟨first, more, rfl, -⟩ := unclosed.starts
    simp
  · rw [← List.append_assoc, ofTokens_eq_ofRun both ends, ofTokens_eq_ofRun within ends, run,
      ofRun_behind, here]
    simp [start, alone, read, lost, error, Parser.gaveUp, Parser.after, Parser.position]

/-- Of `print nil print nil;` the second statement is left, behind one error. -/
theorem append_unclosed_printNil :
    (∀ token ∈ printNil, token.kind ≠ .eof) ∧ (Parsed.ofTokens printNil).isOk = true ∧
      (Parsed.ofTokens printNil).statements = [.print (.literal .nil ⟨6, 9⟩)] ∧
        (Parsed.ofTokens (printNil.take 2 ++ (printNil ++ [.ending 1 20]))).statements =
          [.print (.literal .nil ⟨6, 9⟩)] ∧
        (Parsed.ofTokens (printNil.take 2 ++ (printNil ++ [.ending 1 20]))).errors =
          [⟨.unexpectedToken .semicolon "after value", ⟨.keyPrint, "print", none, 1, ⟨0, 5⟩⟩⟩] := by
  have inside : ∀ token ∈ printNil, token.kind ≠ .eof := by decide
  have ok : (Parsed.ofTokens printNil).isOk = true := rfl
  have statements : (Parsed.ofTokens printNil).statements = [.print (.literal .nil ⟨6, 9⟩)] := rfl
  obtain ⟨-, start, -, whole⟩ := @append_unclosed (printNil.take 2) (printNil.drop 1)
    ⟨.semicolon, ";", none, 1, ⟨9, 10⟩⟩ ⟨.keyPrint, "print", none, 1, ⟨0, 5⟩⟩ (.ending 1 20)
    [] (.print (.literal .nil ⟨6, 9⟩)) "after value" inside ok statements rfl rfl inside rfl
  refine ⟨inside, ok, statements, ?_, ?_⟩
  · exact (congrArg Parsed.statements whole).trans rfl
  · exact (congrArg Parsed.errors whole).trans rfl

end Parsed

end TreeWalk
