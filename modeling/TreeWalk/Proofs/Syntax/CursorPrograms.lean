import TreeWalk.Proofs.Syntax.CursorRules

/-!
# Programs under a cursor

Recovery and whole parses with a cursor.  They end because every declaration gets further, read or
not: with more rounds than tokens ahead no trap is met, and the cursor comes to rest on the end.
-/

set_option autoImplicit false

namespace TreeWalk

open TreeWalk.Parser (Passed)
open Stateful (bind_of_ok)

namespace Parser

/-- A vector has all tokens of a sound parser, then its end token and then any others. -/
structure Shown (parser : Parser) (given : List Token) : Prop where
  sound : parser.Sound
  split : ∃ rest, given = parser.tokens ++ parser.ending :: rest

variable {parser : Parser} {given : List Token}

theorem Shown.whole (shown : parser.Shown given) : parser.Shows given parser.tokens.length := by
  obtain ⟨rest, split⟩ := shown.split
  intro place le
  rw [split]
  rcases Nat.lt_or_eq_of_le le with inside | rfl
  · rw [List.getElem?_append_left inside]
    exact getElem?_of_inside inside parser.ending
  · rw [List.getElem?_append_right (Nat.le_refl _), Nat.sub_self, tokenAt, List.drop_length]
    rfl

theorem Shown.here (shown : parser.Shown given) : parser.Shows given parser.position :=
  shown.whole.mono parser.position_le

theorem Shown.findIdx_eq (shown : parser.Shown given) :
    given.findIdx Token.isEnd = parser.tokens.length := by
  obtain ⟨rest, split⟩ := shown.split
  have other : parser.tokens.findIdx Token.isEnd = parser.tokens.length := by
    rw [List.findIdx_eq_length]
    intro token member
    simpa [Token.isEnd] using shown.sound.inside token member
  have last : parser.ending.isEnd = true := by simpa [Token.isEnd] using shown.sound.last
  rw [split, List.findIdx_append, other]
  simp [List.findIdx_cons, last]

theorem Shown.of_same {after : Parser} (shown : parser.Shown given)
    (tokens : after.tokens = parser.tokens) (ending : after.ending = parser.ending) :
    after.Shown given := by
  refine ⟨⟨?_, ?_⟩, ?_⟩
  · rw [tokens]
    exact shown.sound.inside
  · rw [ending]
    exact shown.sound.last
  · rw [tokens, ending]
    exact shown.split

theorem Passed.shown {after : Parser} {read : List Token} {noted : List SyntaxError}
    (passed : Passed parser read noted after) (shown : parser.Shown given) : after.Shown given :=
  shown.of_same passed.tokens passed.ending

theorem Shown.recover (shown : parser.Shown given) (start : Nat) (error : SyntaxError) :
    (parser.recover start error).Shown given :=
  shown.of_same (tokens_recover parser start error) (ending_recover parser start error)

/-- A run reads or gives up all tokens ahead and keeps all of them. -/
theorem program_ends {count : Nat} (done : List Stmt) (last : parser.ending.kind = .eof)
    (enough : parser.ahead.length ≤ count) :
    (program count done parser).2.ahead = [] ∧
      (program count done parser).2.tokens = parser.tokens ∧
      (program count done parser).2.ending = parser.ending := by
  induction count generalizing done parser with
  | zero => exact ⟨List.eq_nil_of_length_eq_zero (Nat.le_zero.mp enough), rfl, rfl⟩
  | succ count ih =>
      rcases Decidable.em (parser.ahead = []) with nothing | more
      · rw [program_of_end nothing]
        exact ⟨nothing, rfl, rfl⟩
      · obtain ⟨read, noted, passed⟩ := Rule.confined_topDeclaration parser
        cases run : Rule.topDeclaration parser with
        | ok statement after =>
            obtain ⟨ends, fewer⟩ := shorter_of_ok last more run
            obtain ⟨nothing, tokens, ending⟩ := ih (statement :: done) ends (by omega)
            rw [Rule.left_of_ok run] at passed
            rw [program_of_ok more _ _ run]
            exact ⟨nothing, tokens.trans passed.tokens, ending.trans passed.ending⟩
        | error failure after =>
            obtain ⟨ends, fewer⟩ := shorter_of_error last more run
            obtain ⟨nothing, tokens, ending⟩ := ih done ends (by omega)
            rw [Rule.left_of_error run] at passed
            rw [tokens_recover] at tokens
            rw [ending_recover] at ending
            rw [program_of_error more _ _ run]
            exact ⟨nothing, tokens.trans passed.tokens, ending.trans passed.ending⟩

end Parser

namespace Cursor

/-- The result of a rule once its failure is caught. -/
def caught {α : Type} (given : List Token) :
    EStateM.Result SyntaxError Parser α → EStateM.Result Halt Cursor (Except SyntaxError α)
  | .ok value after => .ok (.ok value) (after.cursor given)
  | .error error after => .ok (.error error) (after.cursor given)

theorem attempt_of_seen {α : Type} {action : Action α} {cursor : Cursor} {given : List Token}
    {result : EStateM.Result SyntaxError Parser α} (same : action cursor = seen given result) :
    attempt action cursor = caught given result := by
  unfold attempt
  rw [same]
  cases result with
  | ok value after => rfl
  | error error after => rfl

section Look

variable {parser : Parser} {given : List Token} {errors : List SyntaxError}
variable (sound : parser.Sound) (shows_ : parser.Shows given parser.position)

include shows_

theorem isBehindSemicolon_eq : isBehindSemicolon ⟨given, parser.position, errors⟩ =
    .ok (parser.consumed.head?.map Token.kind = some .semicolon)
      ⟨given, parser.position, errors⟩ := by
  unfold isBehindSemicolon
  rw [bind_of_ok _ (show place ⟨given, parser.position, errors⟩ = .ok parser.position _ from rfl)]
  cases consumed : parser.consumed with
  | nil =>
      have none : parser.position = 0 := by rw [Parser.position, consumed, List.length_nil]
      simp [none, pure, EStateM.pure]
  | cons token earlier =>
      have some : 0 < parser.position := by simp [Parser.position, consumed]
      simp only [some, if_true]
      rw [bind_of_ok _ (previous_eq shows_ consumed)]
      simp [pure, EStateM.pure]

include sound

theorem skip_succ (limit : Nat) : skip (limit + 1) ⟨given, parser.position, errors⟩ =
    if parser.ahead.isEmpty || parser.atBoundary then .ok () ⟨given, parser.position, errors⟩
    else skip limit ⟨given, parser.step.position, errors⟩ := by
  rw [skip, bind_of_ok _ (isAtEnd_eq shows_ sound)]
  cases parser.ahead.isEmpty with
  | true => rfl
  | false =>
      simp only [Bool.false_eq_true, if_false, Bool.false_or]
      rw [bind_of_ok _ (isBehindSemicolon_eq shows_)]
      by_cases semicolon : parser.consumed.head?.map Token.kind = some .semicolon
      · simp [semicolon, Parser.atBoundary, pure, EStateM.pure]
      · simp only [semicolon, decide_false, Bool.false_eq_true, if_false]
        rw [bind_of_ok _ (peek_eq shows_)]
        cases starts : parser.next.kind.startsStatement with
        | true => simp [starts, Parser.atBoundary, pure, EStateM.pure]
        | false =>
            simp only [Bool.false_eq_true, if_false]
            rw [bind_of_ok _ (step_eq shows_ sound)]
            simp [semicolon, starts, Parser.atBoundary]

end Look

section Whole

variable {given : List Token} {errors : List SyntaxError} {parser : Parser}
variable (shown : parser.Shown given)

include shown

theorem skip_eq {limit count : Nat} (wide : parser.ahead.length < limit)
    (enough : parser.ahead.length ≤ count) :
    skip limit ⟨given, parser.position, errors⟩ =
      .ok () ⟨given, (Parser.skipToBoundary count parser).position, errors⟩ := by
  induction limit generalizing count parser with
  | zero => exact absurd wide (Nat.not_lt_zero _)
  | succ limit ih =>
      rw [skip_succ shown.sound shown.here]
      cases count with
      | zero =>
          have nothing : parser.ahead = [] := List.eq_nil_of_length_eq_zero (by omega)
          simp [nothing, Parser.skipToBoundary]
      | succ count =>
          unfold Parser.skipToBoundary
          split
          · rfl
          · next goes =>
              have more : parser.ahead ≠ [] := by
                intro nothing
                simp [nothing] at goes
              obtain ⟨token, rest, ahead⟩ := List.exists_cons_of_ne_nil more
              have passed := Passed.step ahead
              have fewer := passed.length_ahead_lt
              exact ih (passed.shown shown) (by omega) (by omega)

theorem synchronize_eq {limit : Nat} (start : Nat) (wide : parser.ahead.length < limit) :
    synchronize limit start ⟨given, parser.position, errors⟩ =
      .ok () ⟨given, (parser.synchronize start).position, errors⟩ := by
  obtain ⟨read, passed⟩ := Parser.passed_moved parser start
  have skipped : skip limit ⟨given, (parser.moved start).position, errors⟩ = _ :=
    skip_eq (passed.shown shown) (Nat.lt_of_le_of_lt passed.length_ahead_le wide) (Nat.le_refl _)
  rw [Parser.synchronize_eq, ← skipped]
  unfold synchronize Parser.moved
  rw [bind_of_ok _ (show place ⟨given, parser.position, errors⟩ = .ok parser.position _ from rfl)]
  split
  · exact bind_of_ok _ (step_eq shown.here shown.sound)
  · rfl

theorem recover_eq {limit : Nat} (start : Nat) (error : SyntaxError)
    (wide : parser.ahead.length < limit) :
    (note error >>= fun _ => synchronize limit start) (parser.cursor given) =
      .ok () ((parser.recover start error).cursor given) := by
  have noted : note error (parser.cursor given) =
      .ok () ⟨given, parser.position, parser.errors.reverse ++ [error]⟩ := rfl
  rw [bind_of_ok _ noted, synchronize_eq shown start wide, ← List.reverse_cons,
    ← Parser.errors_recover parser start error]
  rfl

theorem topDeclaration_eq {limit : Nat} (wide : parser.ahead.length < limit) :
    topDeclaration limit (parser.cursor given) = seen given (Rule.topDeclaration parser) := by
  have mirrors := Reflects.topDeclaration wide parser shown.sound (Nat.lt_succ_self _)
  obtain ⟨read, noted, passed⟩ := mirrors.passed
  exact mirrors.same given (passed.shows.mp (passed.shown shown).here)

theorem program_eq {limit rounds count : Nat} (done : List Stmt)
    (wide : parser.ahead.length < limit) (many : parser.ahead.length < rounds)
    (enough : parser.ahead.length ≤ count) :
    program limit rounds done (parser.cursor given) =
      .ok (Parser.program count done parser).1
        ((Parser.program count done parser).2.cursor given) := by
  induction rounds generalizing count done parser with
  | zero => exact absurd many (Nat.not_lt_zero _)
  | succ rounds ih =>
      have looked : isAtEnd (parser.cursor given) =
          .ok parser.ahead.isEmpty (parser.cursor given) := isAtEnd_eq shown.here shown.sound
      have here : place (parser.cursor given) = .ok parser.position (parser.cursor given) := rfl
      have tried := attempt_of_seen (topDeclaration_eq shown wide)
      rw [program, bind_of_ok _ looked]
      rcases Decidable.em (parser.ahead = []) with nothing | more
      · rw [Parser.program_of_end nothing, nothing]
        rfl
      · have some := List.length_pos_iff.mpr more
        obtain ⟨count, rfl⟩ := Nat.exists_eq_add_one_of_ne_zero (show count ≠ 0 by omega)
        have goes : parser.ahead.isEmpty = false := by simpa using more
        simp only [goes, Bool.false_eq_true, if_false]
        obtain ⟨read, noted, passed⟩ := Rule.confined_topDeclaration parser
        have shown' := passed.shown shown
        have fewer := passed.length_ahead_le
        cases run : Rule.topDeclaration parser with
        | ok statement after =>
            rw [run] at tried
            rw [Rule.left_of_ok run] at shown'
            obtain ⟨-, fewer⟩ := Parser.shorter_of_ok shown.sound.last more run
            rw [bind_of_ok _ here, bind_of_ok _ tried, Parser.program_of_ok more _ _ run]
            exact ih shown' _ (by omega) (by omega) (by omega)
        | error failure after =>
            rw [run] at tried
            rw [Rule.left_of_error run] at shown' fewer
            have recovered := recover_eq shown' parser.position failure
              (Nat.lt_of_le_of_lt fewer wide)
            obtain ⟨-, fewer⟩ := Parser.shorter_of_error shown.sound.last more run
            rw [bind_of_ok _ here, bind_of_ok _ tried, Parser.program_of_error more _ _ run]
            refine (congrFun (bind_assoc ..).symm _).trans ((bind_of_ok _ recovered).trans ?_)
            exact ih (shown'.recover _ _) _ (by omega) (by omega) (by omega)

theorem parse_eq {limit : Nat} (wide : parser.ahead.length < limit) :
    parse limit (parser.cursor given) =
      .ok (parser.parse.1.statements, parser.parse.1.errors) (parser.parse.2.cursor given) := by
  unfold parse
  rw [bind_of_ok _ (program_eq shown [] wide wide (Nat.le_refl _))]
  rfl

end Whole

end Cursor

end TreeWalk
