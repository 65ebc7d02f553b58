import TreeWalk.Proofs.Syntax.Concatenation
import TreeWalk.Proofs.Syntax.CursorPrograms

/-!
# Calls on a parser

A parser may be called from outside in any order: to parse what is left, to step over a token, or
to expect a token of some kind.  Whatever the tokens are and whatever was called before, no call
meets a trap, and each one does what `Turn.Sound` says of it.
-/

set_option autoImplicit false

namespace TreeWalk

open TreeWalk.Parser (Passed)
open Stateful (bind_of_ok)

inductive Parser.Call where
  | parse
  | step
  | expect (kind : Kind) (context : String)
  | expectName
  deriving DecidableEq

inductive Parser.Reply where
  | parsed (statements : List Stmt) (errors : List SyntaxError)
  | stepped
  | found (token : Token)
  | refused (error : SyntaxError)

open TreeWalk.Parser (Call Reply)

/-- A call with its answer, between two places of the cursor. -/
structure Turn where
  call : Call
  before : Nat
  reply : Reply
  after : Nat

/-! ## Calls with and without a cursor -/

namespace Cursor

def expected (action : Action Token) : Action Reply := do
  match ← attempt action with
  | .ok token => pure (.found token)
  | .error error => pure (.refused error)

def perform (limit : Nat) : Call → Action Reply
  | .parse => do
    let (statements, errors) ← parse limit
    pure (.parsed statements errors)
  | .step => do
    step
    pure .stepped
  | .expect kind context => expected (expectOne kind context)
  | .expectName => expected expectIdent

/-- All these calls, one behind the other. -/
def turns (limit : Nat) : List Call → Action (List Turn)
  | [] => pure []
  | call :: calls => do
    let before ← place
    let reply ← perform limit call
    let after ← place
    let rest ← turns limit calls
    pure (⟨call, before, reply, after⟩ :: rest)

end Cursor

namespace Parser

def expected (rule : Rule Token) (parser : Parser) : Reply × Parser :=
  match rule parser with
  | .ok token after => (.found token, after)
  | .error error after => (.refused error, after)

def perform (parser : Parser) : Call → Reply × Parser
  | .parse => (.parsed parser.parse.1.statements parser.parse.1.errors, parser.parse.2)
  | .step => (.stepped, parser.step)
  | .expect kind context => expected (Rule.expect kind context) parser
  | .expectName => expected Rule.expectName parser

def turns : List Call → Parser → List Turn
  | [], _ => []
  | call :: calls, parser =>
    let (reply, after) := parser.perform call
    ⟨call, parser.position, reply, after.position⟩ :: turns calls after

/-- Between two calls nothing is noted. -/
structure Idle (parser : Parser) (given : List Token) : Prop where
  shown : parser.Shown given
  errors : parser.errors = []
  recoveries : parser.recoveries = []

/-- What a call expects and how it puts it if that is not there. -/
def Call.expects? : Call → Option (Kind × SyntaxCause)
  | .expect kind context => some (kind, .unexpectedToken kind context)
  | .expectName => some (.identifier, .expectedVariableName)
  | .parse | .step => none

end Parser

/-- What a call on a cursor over these tokens comes to.  A parse is that of the tokens from the
cursor on, as if nothing had been parsed before, and ends on the first end token. -/
inductive Turn.Sound (tokens : List Token) : Turn → Prop where
  | parsed {place : Nat} (inside : place ≤ tokens.findIdx Token.isEnd) :
      Sound tokens ⟨.parse, place,
        .parsed (Parsed.ofTokens (tokens.drop place)).statements
          (Parsed.ofTokens (tokens.drop place)).errors,
        tokens.findIdx Token.isEnd⟩
  | stepped {place : Nat} (inside : place < tokens.findIdx Token.isEnd) :
      Sound tokens ⟨.step, place, .stepped, place + 1⟩
  | stayed : Sound tokens ⟨.step, tokens.findIdx Token.isEnd, .stepped, tokens.findIdx Token.isEnd⟩
  | found {call : Call} {kind : Kind} {cause : SyntaxCause} {place : Nat} {token : Token}
      (expects : call.expects? = some (kind, cause))
      (inside : place < tokens.findIdx Token.isEnd) (next : tokens[place]? = some token)
      (same : token.kind = kind) (other : kind ≠ .eof) :
      Sound tokens ⟨call, place, .found token, place + 1⟩
  | refused {call : Call} {kind : Kind} {cause : SyntaxCause} {place : Nat} {token : Token}
      (expects : call.expects? = some (kind, cause))
      (inside : place ≤ tokens.findIdx Token.isEnd) (next : tokens[place]? = some token)
      (other : token.kind = kind → kind = .eof) :
      Sound tokens ⟨call, place, .refused ⟨cause, token⟩, place⟩

/-! ## Single calls -/

namespace Parser

theorem ofTokens_split {body : List Token} {ending : Token}
    (inside : ∀ token ∈ body, token.kind ≠ .eof) (last : ending.kind = .eof)
    (rest : List Token) : ofTokens (body ++ ending :: rest) = ⟨[], body, ending, [], []⟩ := by
  have all : ∀ token ∈ body, (!token.isEnd) = true := by
    intro token member
    simpa [Token.isEnd] using inside token member
  have none : body.find? Token.isEnd = none := by
    rw [List.find?_eq_none]
    intro token member
    simpa using all token member
  unfold ofTokens
  rw [List.takeWhile_append_of_pos all, List.find?_append, none]
  simp [Token.isEnd, last]

section Idle

variable {parser : Parser} {given : List Token} (idle : parser.Idle given)

include idle

theorem Idle.ofTokens_drop :
    ofTokens (given.drop parser.position) = ⟨[], parser.ahead, parser.ending, [], []⟩ := by
  obtain ⟨rest, split⟩ := idle.shown.split
  rw [split, List.drop_append_of_le_length parser.position_le, drop_position]
  refine ofTokens_split (fun token member => ?_) idle.shown.sound.last rest
  exact idle.shown.sound.inside token (List.mem_append_right _ member)

theorem Idle.parse_eq :
    parser.parse.1.statements = (Parsed.ofTokens (given.drop parser.position)).statements ∧
      parser.parse.1.errors = (Parsed.ofTokens (given.drop parser.position)).errors := by
  let start : Parser := ⟨[], parser.ahead, parser.ending, [], []⟩
  let earlier : Parser := ⟨parser.consumed, [], parser.ending, [], []⟩
  have split : parser = start.behind earlier := by
    obtain ⟨-, errors, recoveries⟩ := idle
    cases parser
    simp_all [start, earlier, behind]
  have run := program_behind start earlier parser.ahead.length [] []
  rw [← split, List.append_nil] at run
  unfold Parsed.ofTokens
  rw [idle.ofTokens_drop]
  unfold parse
  rw [run]
  exact ⟨congrArg List.reverse (List.append_nil _),
    congrArg List.reverse (List.append_nil _)⟩

theorem Idle.parse_ends : parser.parse.2.Idle given ∧
    parser.parse.2.position = given.findIdx Token.isEnd := by
  obtain ⟨nothing, tokens, ending⟩ :=
    program_ends [] idle.shown.sound.last (Nat.le_refl parser.ahead.length)
  have whole := length_tokens (program parser.ahead.length [] parser).2
  rw [nothing, tokens, List.length_nil, Nat.add_zero] at whole
  refine ⟨⟨idle.shown.of_same tokens ending, rfl, rfl⟩, ?_⟩
  rw [idle.shown.findIdx_eq, whole]
  rfl

theorem Idle.expected_sound {call : Call} {kind : Kind} {cause : SyntaxCause} {rule : Rule Token}
    (expects : call.expects? = some (kind, cause))
    (taken : ∀ token after, Rule.accept? [kind] parser = .ok (some token) after →
      rule parser = .ok token after)
    (missed : ∀ after, Rule.accept? [kind] parser = .ok none after →
      rule parser = .error ⟨cause, after.next⟩ after) :
    (expected rule parser).2.Idle given ∧
      Turn.Sound given ⟨call, parser.position, (expected rule parser).1,
        (expected rule parser).2.position⟩ := by
  have next := idle.shown.here.here
  unfold expected
  cases run : Rule.accept? [kind] parser with
  | error failure middle => exact absurd run Rule.accept?_not_error
  | ok accepted middle =>
      cases accepted with
      | some token =>
          rw [taken token middle run]
          obtain ⟨rest, ahead, member, rfl⟩ := Rule.accept?_some run
          have same := List.mem_singleton.mp member
          have passed := Passed.step ahead
          have more : parser.ahead ≠ [] := by simp [ahead]
          have inside : token ∈ parser.tokens := by simp [tokens, ahead]
          rw [next_of_ahead ahead] at next
          refine ⟨⟨passed.shown idle.shown, passed.errors.trans idle.errors,
            passed.recoveries.trans idle.recoveries⟩, ?_⟩
          dsimp only
          rw [position_step more]
          refine .found expects (idle.shown.here.position_lt_findIdx idle.shown.sound more) next
            same ?_
          rw [← same]
          exact idle.shown.sound.inside token inside
      | none =>
          rw [missed middle run]
          have stops := Rule.stops_of_accept? run
          have stays : middle = parser := by
            rcases Rule.accept?_ok run with ⟨-, same⟩ | ⟨token, something, -⟩
            · exact same
            · cases something
          subst stays
          refine ⟨idle, .refused expects ?_ next fun same => ?_⟩
          · rw [idle.shown.findIdx_eq]
            exact middle.position_le
          · unfold Parser.next at same
            cases ahead : middle.ahead with
            | nil =>
                rw [ahead] at same
                exact same.symm.trans idle.shown.sound.last
            | cons token rest =>
                rw [ahead] at same
                exact absurd (List.mem_singleton.mpr same) (stops token (by simp [ahead]))

theorem Idle.perform_sound (call : Call) :
    (parser.perform call).2.Idle given ∧
      Turn.Sound given ⟨call, parser.position, (parser.perform call).1,
        (parser.perform call).2.position⟩ := by
  cases call with
  | parse =>
      obtain ⟨statements, errors⟩ := idle.parse_eq
      obtain ⟨idle', ends⟩ := idle.parse_ends
      have inside := parser.position_le
      rw [← idle.shown.findIdx_eq] at inside
      refine ⟨idle', ?_⟩
      unfold perform
      dsimp only
      rw [statements, errors, ends]
      exact .parsed inside
  | step =>
      obtain ⟨read, passed⟩ := Rule.passed_step parser
      refine ⟨⟨passed.shown idle.shown, passed.errors.trans idle.errors,
        passed.recoveries.trans idle.recoveries⟩, ?_⟩
      unfold perform
      rcases Decidable.em (parser.ahead = []) with nothing | more
      · have stays : parser.step = parser := by simp [step, nothing]
        have here := length_tokens parser
        rw [nothing, List.length_nil, Nat.add_zero, ← idle.shown.findIdx_eq] at here
        dsimp only
        rw [stays, ← here]
        exact .stayed
      · dsimp only
        rw [position_step more]
        exact .stepped (idle.shown.here.position_lt_findIdx idle.shown.sound more)
  | expect kind context =>
      exact idle.expected_sound rfl (fun _ _ run => bind_of_ok _ run)
        fun _ run => bind_of_ok _ run
  | expectName =>
      exact idle.expected_sound rfl (fun _ _ run => bind_of_ok _ run)
        fun _ run => bind_of_ok _ run

end Idle

end Parser

/-! ## Histories -/

namespace Cursor

section Shown

variable {parser : Parser} {given : List Token} {limit : Nat} (shown : parser.Shown given)

include shown

theorem expected_eq {action : Action Token} {rule : Rule Token}
    (mirrors : Mirrors parser action rule) :
    expected action (parser.cursor given) =
      .ok (Parser.expected rule parser).1 ((Parser.expected rule parser).2.cursor given) := by
  obtain ⟨read, noted, passed⟩ := mirrors.passed
  have tried := attempt_of_seen (mirrors.same given (passed.shows.mp (passed.shown shown).here))
  unfold Parser.expected
  cases run : rule parser with
  | ok token after =>
      rw [run] at tried
      exact bind_of_ok _ tried
  | error error after =>
      rw [run] at tried
      exact bind_of_ok _ tried

theorem perform_eq (wide : parser.tokens.length < limit) (call : Call) :
    perform limit call (parser.cursor given) =
      .ok (parser.perform call).1 ((parser.perform call).2.cursor given) := by
  have few := Parser.length_tokens parser
  cases call with
  | parse => exact bind_of_ok _ (parse_eq shown (by omega))
  | step =>
      obtain ⟨read, passed⟩ := Rule.passed_step parser
      have moved : step (parser.cursor given) = .ok () (parser.step.cursor given) :=
        (Mirrors.step shown.sound).same given (passed.shows.mp (passed.shown shown).here)
      exact bind_of_ok _ moved
  | expect kind context => exact expected_eq shown (.expect shown.sound kind context)
  | expectName => exact expected_eq shown (.expectName shown.sound)

end Shown

/-- No history of calls meets a trap. -/
theorem turns_eq {parser : Parser} {given : List Token} {limit : Nat} (idle : parser.Idle given)
    (wide : given.findIdx Token.isEnd < limit) (calls : List Call) :
    ∃ last : Parser, last.Idle given ∧
      turns limit calls (parser.cursor given) =
        .ok (Parser.turns calls parser) (last.cursor given) := by
  induction calls generalizing parser with
  | nil => exact ⟨parser, idle, rfl⟩
  | cons call calls ih =>
      have performed := perform_eq idle.shown (by rwa [← idle.shown.findIdx_eq]) call
      obtain ⟨last, idle', later⟩ := ih (idle.perform_sound call).1
      refine ⟨last, idle', ?_⟩
      refine (bind_of_ok _ (show place (parser.cursor given) = .ok parser.position _ from rfl)).trans
        ((bind_of_ok _ performed).trans ?_)
      exact bind_of_ok _ later

end Cursor

namespace Parser

theorem turns_sound {parser : Parser} {given : List Token} (idle : parser.Idle given)
    (calls : List Call) : ∀ turn ∈ turns calls parser, turn.Sound given := by
  induction calls generalizing parser with
  | nil => simp [turns]
  | cons call calls ih =>
      obtain ⟨idle', sound⟩ := idle.perform_sound call
      intro turn member
      rcases List.mem_cons.mp member with rfl | member
      · exact sound
      · exact ih idle' turn member

theorem closed_split (given : List Token) :
    ∃ rest, Cursor.closed given = (ofTokens given).tokens ++ (ofTokens given).ending :: rest := by
  cases found : given.find? Token.isEnd with
  | some ending =>
      obtain ⟨ends, body, back, rfl, others⟩ := List.find?_eq_some_iff_append.mp found
      have inside : ∀ token ∈ body, token.kind ≠ .eof := by
        intro token member
        simpa [Token.isEnd] using others token member
      rw [ofTokens_split inside (by simpa [Token.isEnd] using ends)]
      unfold Cursor.closed
      split
      · exact ⟨back, rfl⟩
      · exact ⟨back ++ [.endingAfter (body ++ ending :: back)], by simp [tokens]⟩
  | none =>
      have inside : ∀ token ∈ given, token.kind ≠ .eof := by
        intro token member
        simpa [Token.isEnd] using List.find?_eq_none.mp found token member
      have opened : given.getLast?.any Token.isEnd = false := by
        cases last : given.getLast? with
        | none => rfl
        | some token => simpa using List.find?_eq_none.mp found token (List.mem_of_getLast? last)
      have tokens : (ofTokens given).tokens = given := Parsed.ahead_of_inside inside
      have ending : (ofTokens given).ending = .endingAfter given := by
        unfold ofTokens
        rw [found]
        rfl
      refine ⟨[], ?_⟩
      unfold Cursor.closed
      rw [opened, tokens, ending, if_neg Bool.false_ne_true]

theorem idle_ofTokens (given : List Token) : (ofTokens given).Idle (Cursor.closed given) := by
  refine ⟨⟨⟨fun token member => ?_, Parsed.ending_ofTokens given⟩, closed_split given⟩, rfl, rfl⟩
  rw [tokens_ofTokens] at member
  have inside := List.all_eq_true.mp List.all_takeWhile token member
  simpa [Token.isEnd] using inside

end Parser

namespace Cursor

/-- The tokens of a vector up to its first end token. -/
def front (given : List Token) : List Token :=
  (closed given).take ((closed given).findIdx Token.isEnd + 1)

theorem ofTokens_front (given rest : List Token) :
    Parser.ofTokens (front given ++ rest) = Parser.ofTokens given := by
  have idle := Parser.idle_ofTokens given
  obtain ⟨others, split⟩ := idle.shown.split
  have front_eq : front given = (Parser.ofTokens given).tokens ++ [(Parser.ofTokens given).ending] := by
    unfold front
    rw [idle.shown.findIdx_eq, split, List.take_append, List.take_of_length_le (Nat.le_succ _),
      Nat.add_sub_cancel_left]
    rfl
  rw [front_eq, List.append_assoc, List.singleton_append,
    Parser.ofTokens_split idle.shown.sound.inside idle.shown.sound.last]
  rfl

/-- Calls on a new cursor, in any number and order.  The first end token is a valid index.  The
calls come to an end without a trap, provided that there are more rounds than tokens, and they give
the answers of the parser.  Each call does what `Turn.Sound` says, and no answer depends on what
stands behind the first end token. -/
theorem calls_safe (given : List Token) (calls : List Call) (spare : Nat) :
    (closed given).findIdx Token.isEnd < (closed given).length ∧
      (∃ last : Cursor, last.current ≤ (closed given).findIdx Token.isEnd ∧ last.errors = [] ∧
        turns ((closed given).length + spare) calls (new given) =
          .ok (Parser.turns calls (.ofTokens given)) last) ∧
      (∀ turn ∈ Parser.turns calls (.ofTokens given), turn.Sound (closed given)) ∧
      ∀ rest, ∃ last : Cursor,
        turns ((closed (front given ++ rest)).length + spare) calls (new (front given ++ rest)) =
          .ok (Parser.turns calls (.ofTokens given)) last := by
  have idle := Parser.idle_ofTokens given
  have start (vector : List Token) : (Parser.ofTokens vector).cursor (closed vector) = new vector :=
    rfl
  have valid (vector : List Token) :
      (closed vector).findIdx Token.isEnd < (closed vector).length := by
    obtain ⟨rest, split⟩ := Parser.closed_split vector
    rw [(Parser.idle_ofTokens vector).shown.findIdx_eq, split, List.length_append,
      List.length_cons]
    omega
  refine ⟨valid given, ?_, Parser.turns_sound idle calls, fun rest => ?_⟩
  · obtain ⟨last, idle', run⟩ :=
      turns_eq idle (Nat.lt_of_lt_of_le (valid given) (Nat.le_add_right _ spare)) calls
    refine ⟨last.cursor (closed given), ?_, ?_, run⟩
    · rw [idle'.shown.findIdx_eq]
      exact last.position_le
    · exact congrArg List.reverse idle'.errors
  · obtain ⟨last, -, run⟩ := turns_eq (Parser.idle_ofTokens (front given ++ rest))
      (Nat.lt_of_lt_of_le (valid _) (Nat.le_add_right _ spare)) calls
    rw [start, ofTokens_front] at run
    exact ⟨last.cursor _, run⟩

end Cursor

end TreeWalk
