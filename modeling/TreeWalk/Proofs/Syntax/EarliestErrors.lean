import TreeWalk.Proofs.Syntax.Concatenation
import TreeWalk.Proofs.Syntax.CursorPrograms
import TreeWalk.Proofs.Syntax.Viability

/-!
# Errors are found as early as possible

The first declaration that fails does so at the first token with which the tokens so far can no
longer be the front of a program.  They can before it, since rules follow the grammar.  With it they
cannot: the parser would fail in front of this token whatever came behind it, but it reads all
programs.  Mistaken assignments do not count, so the grammar here is the relaxed one.
-/

set_option autoImplicit false

namespace TreeWalk

open Grammar (Derives Opens ReadsProgram Sentence relaxed)
open Grammar.Form (phrase repeated)
open TreeWalk.Parser (Passed)

namespace Parser

/-! ## The first failure -/

inductive Fails : Parser → SyntaxError → Parser → Prop where
  | here {before after : Parser} {error : SyntaxError} (more : before.ahead ≠ [])
      (run : Rule.topDeclaration before = .error error after) : Fails before error after
  | later {before middle after : Parser} {statement : Stmt} {error : SyntaxError}
      (more : before.ahead ≠ []) (run : Rule.topDeclaration before = .ok statement middle)
      (rest : Fails middle error after) : Fails before error after

theorem Fails.passed {before after : Parser} {error : SyntaxError}
    (fails : Fails before error after) : ∃ read noted, Passed before read noted after := by
  induction fails with
  | here _ run =>
      rw [← Rule.left_of_error run]
      exact Rule.confined_topDeclaration _
  | later _ run _ ih =>
      obtain ⟨read, noted, passed⟩ := Rule.confined_topDeclaration _
      rw [Rule.left_of_ok run] at passed
      obtain ⟨again, later, moved⟩ := ih
      exact ⟨_, _, passed.trans moved⟩

theorem Fails.token {before after : Parser} {error : SyntaxError}
    (fails : Fails before error after) : error.token = after.next := by
  induction fails with
  | here _ run => exact (Rule.composed_topDeclaration.blames run).1
  | later _ _ _ ih => exact ih

theorem program_recoveries {count : Nat} (done : List Stmt) {parser : Parser}
    (last : parser.ending.kind = .eof) (enough : parser.ahead.length ≤ count) :
    ∃ later, (program count done parser).2.recoveries = later ++ parser.recoveries := by
  obtain ⟨findings, recoveries, -, -, recovered⟩ := program_completes done last enough
  exact ⟨recoveries.reverse, recovered⟩

theorem Fails.recoveries {before after : Parser} {error : SyntaxError}
    (fails : Fails before error after) {count : Nat} (done : List Stmt)
    (last : before.ending.kind = .eof) (enough : before.ahead.length ≤ count) :
    ∃ later start resumed, (program count done before).2.recoveries =
      later ++ ⟨error, start, after.position, resumed⟩ :: before.recoveries := by
  induction fails generalizing count done with
  | @here before after error more run =>
      have some := List.length_pos_iff.mpr more
      obtain ⟨count, rfl⟩ := Nat.exists_eq_add_one_of_ne_zero (show count ≠ 0 by omega)
      obtain ⟨ends, fewer⟩ := shorter_of_error last more run
      obtain ⟨read, noted, passed⟩ := Rule.confined_topDeclaration before
      rw [Rule.left_of_error run] at passed
      rw [program_of_error more _ _ run]
      obtain ⟨later, all⟩ := program_recoveries done ends (show _ ≤ count by omega)
      rw [recoveries_recover, passed.recoveries] at all
      exact ⟨later, _, _, all⟩
  | @later before middle after statement error more run _ ih =>
      have some := List.length_pos_iff.mpr more
      obtain ⟨count, rfl⟩ := Nat.exists_eq_add_one_of_ne_zero (show count ≠ 0 by omega)
      obtain ⟨ends, fewer⟩ := shorter_of_ok last more run
      obtain ⟨read, noted, passed⟩ := Rule.confined_topDeclaration before
      rw [Rule.left_of_ok run] at passed
      rw [program_of_ok more _ _ run, ← passed.recoveries]
      exact ih (statement :: done) ends (by omega)

/-! ## In front of it -/

/-- What was consumed up to the first failure is the front of some declarations. -/
theorem Fails.opens {before after : Parser} {error : SyntaxError}
    (fails : Fails before error after) (last : before.ending.kind = .eof)
    (front : Derives relaxed (repeated (phrase .declaration))
      (before.consumed.reverse.map Token.kind)) :
    Opens (repeated (phrase .declaration)) (after.consumed.reverse.map Token.kind) := by
  induction fails with
  | @here before after error more run =>
      obtain ⟨read, noted, passed, rest, derives⟩ :=
        (Follows.topDeclaration before last).opens run
      have consumed : after.consumed = read.reverse ++ before.consumed := by
        rw [passed.state]
        rfl
      refine ⟨rest, ?_⟩
      simpa [consumed] using front.snoc derives
  | @later before middle after statement error more run _ ih =>
      obtain ⟨read, noted, passed, derives⟩ := (Follows.topDeclaration before last).reads run
      have consumed : middle.consumed = read.reverse ++ before.consumed := by
        rw [passed.state]
        rfl
      refine ih (passed.last last) ?_
      simpa [consumed] using front.snoc derives

theorem fails_or_reads {count : Nat} (done : List Stmt) {parser : Parser}
    (last : parser.ending.kind = .eof) (enough : parser.ahead.length ≤ count) :
    (∃ error after, Fails parser error after) ∨
      (program count done parser).2.recoveries = parser.recoveries ∧
        Derives relaxed (repeated (phrase .declaration)) (parser.ahead.map Token.kind) := by
  induction count generalizing done parser with
  | zero =>
      have nothing : parser.ahead = [] := List.eq_nil_of_length_eq_zero (Nat.le_zero.mp enough)
      rw [nothing]
      exact Or.inr ⟨rfl, .done⟩
  | succ count ih =>
      rcases Decidable.em (parser.ahead = []) with nothing | more
      · rw [program_of_end nothing, nothing]
        exact Or.inr ⟨rfl, .done⟩
      · cases run : Rule.topDeclaration parser with
        | error failure after => exact Or.inl ⟨failure, after, .here more run⟩
        | ok statement after =>
            obtain ⟨ends, fewer⟩ := shorter_of_ok last more run
            obtain ⟨read, noted, passed, derives⟩ :=
              (Follows.topDeclaration parser last).reads run
            rw [program_of_ok more _ _ run, ← passed.recoveries]
            rcases ih (statement :: done) ends (show after.ahead.length ≤ count by omega) with
              ⟨error, stop, fails⟩ | ⟨none, rest⟩
            · exact Or.inl ⟨error, stop, .later more run fails⟩
            · refine Or.inr ⟨none, ?_⟩
              rw [passed.ahead, List.map_append]
              exact .more derives rest

/-! ## At the token itself -/

section Transfer

variable {parser other : Parser} {given : List Token} (sound : parser.Sound)
variable (shown : other.Shown given) (here : parser.cursor given = other.cursor given)

include sound shown here

theorem topDeclaration_transfer
    (shows_ : parser.Shows given (Rule.left Rule.topDeclaration parser).position) :
    Cursor.seen given (Rule.topDeclaration parser) =
      Cursor.seen given (Rule.topDeclaration other) := by
  have wide : parser.ahead.length + 1 ≤ parser.ahead.length + other.ahead.length + 1 := by omega
  have one := (Reflects.topDeclaration wide parser sound (Nat.lt_succ_self _)).same given shows_
  have two := Cursor.topDeclaration_eq shown
    (show other.ahead.length < parser.ahead.length + other.ahead.length + 1 by omega)
  rw [here] at one
  exact one.symm.trans two

theorem more_transfer (shows_ : parser.Shows given parser.position) (more : parser.ahead ≠ []) :
    other.ahead ≠ [] := by
  have place : parser.position = other.position := congrArg Cursor.current here
  have next := shows_.here
  rw [place, shown.here.here] at next
  intro nothing
  rw [← shown.sound.isEnd_next, Option.some.inj next, sound.isEnd_next] at nothing
  exact more nothing

end Transfer

/-- A failure does not depend on the tokens behind it. -/
theorem Fails.transfer {before after other : Parser} {error : SyntaxError} {given : List Token}
    (fails : Fails before error after) (sound : before.Sound) (shown : other.Shown given)
    (here : before.cursor given = other.cursor given)
    (shows_ : before.Shows given after.position) : ∃ stop, Fails other error stop := by
  induction fails generalizing other with
  | @here before after error more run =>
      obtain ⟨read, noted, passed⟩ := Rule.confined_topDeclaration before
      have same := topDeclaration_transfer sound shown here (by rwa [Rule.left_of_error run])
      rw [Rule.left_of_error run] at passed
      have more' := more_transfer sound shown here (shows_.mono passed.position_le) more
      rw [run] at same
      cases run' : Rule.topDeclaration other with
      | ok statement stop =>
          rw [run'] at same
          cases same
      | error failure stop =>
          rw [run'] at same
          injection same with failed _
          injection failed with failed
          rw [failed]
          exact ⟨stop, .here more' run'⟩
  | @later before middle after statement error more run rest ih =>
      obtain ⟨read, noted, passed⟩ := Rule.confined_topDeclaration before
      obtain ⟨again, later, moved⟩ := rest.passed
      rw [Rule.left_of_ok run] at passed
      have same := topDeclaration_transfer sound shown here (by
        rw [Rule.left_of_ok run]
        exact shows_.mono moved.position_le)
      have more' := more_transfer sound shown here
        (shows_.mono (Nat.le_trans passed.position_le moved.position_le)) more
      rw [run] at same
      cases run' : Rule.topDeclaration other with
      | error failure stop =>
          rw [run'] at same
          cases same
      | ok statement' middle' =>
          obtain ⟨read', noted', passed'⟩ := Rule.confined_topDeclaration other
          rw [Rule.left_of_ok run'] at passed'
          rw [run'] at same
          injection same with _ cursors
          obtain ⟨stop, fails⟩ := ih (passed.sound sound) (passed'.shown shown) cursors
            (passed.shows.mpr shows_)
          exact ⟨stop, .later more' run' fails⟩

/-- The parser does not fail in front of the end of a sentence. -/
theorem not_fails_of_sentence {parser : Parser} (last : parser.ending.kind = .eof)
    (sentence : Sentence (parser.ahead.map Token.kind)) (error : SyntaxError) (after : Parser) :
    ¬ Fails parser error after := by
  intro fails
  obtain ⟨program, noted, parts, each, split, -, -⟩ := sentence.reads
  have run := program_of_reads each [] split (Nat.le_refl _)
  obtain ⟨later, start, resumed, recovered⟩ := fails.recoveries [] last (Nat.le_refl _)
  rw [run] at recovered
  have length := congrArg List.length recovered
  simp only [Parser.after, List.length_append, List.length_cons] at length
  omega

theorem Fails.refused {body : List Token} {ending : Token} {error : SyntaxError} {after : Parser}
    (fails : Fails ⟨[], body, ending, [], []⟩ error after)
    (inside : ∀ token ∈ body, token.kind ≠ .eof) (last : ending.kind = .eof)
    (before : after.position < body.length) (more : List Kind) :
    ¬ Sentence ((body.take (after.position + 1)).map Token.kind ++ more) := by
  intro sentence
  -- a parser of a whole sentence with the same tokens up to the failure
  let rest : List Token := more.map fun kind => ⟨kind, "", none, 1, ⟨0, 0⟩⟩
  let front := body.take (after.position + 1)
  let other : Parser := ⟨[], front ++ rest, ending, [], []⟩
  have kinds : other.ahead.map Token.kind = front.map Token.kind ++ more := by
    simp [other, rest, Function.comp_def]
  have sentence' : Sentence (other.ahead.map Token.kind) := by
    rw [kinds]
    exact sentence
  have sound : other.Sound := by
    refine ⟨fun token member ends => sentence'.inner ?_, last⟩
    rw [← ends]
    exact List.mem_map_of_mem member
  have shown : other.Shown (other.tokens ++ [ending]) := ⟨sound, [], rfl⟩
  have shows_ : Shows ⟨[], body, ending, [], []⟩ (other.tokens ++ [ending]) after.position := by
    intro place le
    have early : place < front.length := by
      rw [List.length_take]
      omega
    have whole : other.tokens ++ [ending] = front ++ (rest ++ [ending]) :=
      List.append_assoc front rest [ending]
    rw [whole, List.getElem?_append_left early, List.getElem?_take_of_lt (by omega)]
    exact getElem?_of_inside (show place < body.length by omega) ending
  obtain ⟨stop, fails'⟩ := fails.transfer ⟨inside, last⟩ shown rfl shows_
  exact not_fails_of_sentence last sentence' error stop fails'

end Parser

namespace Parsed

variable {body : List Token} {ending : Token}

theorem find?_errors (given : List Token) :
    (Parsed.ofTokens given).errors.find? (·.cause ≠ .invalidAssignmentTarget) =
      (Parsed.ofTokens given).recoveries.head?.map Recovery.error := by
  obtain ⟨findings, course, errors⟩ := course_ofTokens given
  rw [errors, ← List.head?_filter, ← course.recovered, List.head?_map]

/-- Let the first error of a parse, mistaken assignments aside, be about the token at some place.
The tokens in front of it can be completed to a program of the relaxed grammar, but not together
with this token; if it is the end, they are no program themselves.  Without such an error the tokens
are a program of the relaxed grammar. -/
theorem first_error_earliest (inside : ∀ token ∈ body, token.kind ≠ .eof)
    (last : ending.kind = .eof) :
    (∀ error ∈ (Parsed.ofTokens (body ++ [ending])).errors.find?
        (·.cause ≠ .invalidAssignmentTarget),
      ∃ recovery ∈ (Parsed.ofTokens (body ++ [ending])).recoveries.head?,
        recovery.error = error ∧ (body ++ [ending])[recovery.failed]? = some error.token ∧
        (∃ more, Sentence ((body.take recovery.failed).map Token.kind ++ more)) ∧
        (recovery.failed < body.length →
          ∀ more, ¬ Sentence ((body.take (recovery.failed + 1)).map Token.kind ++ more)) ∧
        (recovery.failed = body.length → ¬ Sentence (body.map Token.kind))) ∧
      ((Parsed.ofTokens (body ++ [ending])).errors.find?
          (·.cause ≠ .invalidAssignmentTarget) = none →
        Sentence (body.map Token.kind)) := by
  let start : Parser := ⟨[], body, ending, [], []⟩
  have recoveries : (Parsed.ofTokens (body ++ [ending])).recoveries =
      (Parser.program body.length [] start).2.recoveries.reverse := by
    rw [ofTokens_eq_ofRun inside last]
    rfl
  rw [find?_errors, recoveries]
  have enough : start.ahead.length ≤ body.length := Nat.le_refl _
  rcases Parser.fails_or_reads [] last enough with
    ⟨error, after, fails⟩ | ⟨none, derives⟩
  · obtain ⟨later, from', resumed, recovered⟩ := fails.recoveries [] last enough
    obtain ⟨read, noted, passed⟩ := fails.passed
    have shown : start.Shown (body ++ [ending]) := ⟨⟨inside, last⟩, [], rfl⟩
    have next := (passed.shown shown).here.here
    have consumed : after.consumed.reverse = body.take after.position := by
      rw [← Parser.take_position, passed.tokens]
      rfl
    have opens := fails.opens last .done
    rw [consumed] at opens
    rw [recovered, List.reverse_append, List.reverse_cons]
    refine ⟨?_, fun nothing => absurd nothing (by simp)⟩
    rintro _ ⟨⟩
    refine ⟨_, rfl, rfl, ?_, opens.sentence, ?_, ?_⟩
    · rw [fails.token]
      exact next
    · intro before more
      exact fails.refused inside last before more
    · intro _ sentence
      exact Parser.not_fails_of_sentence last sentence error after fails
  · rw [none]
    refine ⟨fun error member => ?_, fun _ => .phrase (.both derives (.terminal .eof))⟩
    cases member

/-- In `nil = ;` the error is about the semicolon: up to it the value of an assignment can still
follow, if only one to `nil`. -/
theorem first_error_earliest_operand :
    (∀ token ∈ ([⟨.keyNil, "nil", none, 1, ⟨0, 3⟩⟩, ⟨.equal, "=", none, 1, ⟨4, 5⟩⟩,
        ⟨.semicolon, ";", none, 1, ⟨6, 7⟩⟩] : List Token), token.kind ≠ .eof) ∧
      (Token.ending 1 7).kind = .eof ∧
      (∃ more, Sentence ([.keyNil, .equal] ++ more)) ∧
      ∀ more, ¬ Sentence ([.keyNil, .equal, .semicolon] ++ more) := by
  have inside : ∀ token ∈ ([⟨.keyNil, "nil", none, 1, ⟨0, 3⟩⟩, ⟨.equal, "=", none, 1, ⟨4, 5⟩⟩,
      ⟨.semicolon, ";", none, 1, ⟨6, 7⟩⟩] : List Token), token.kind ≠ .eof := by decide
  have last : (Token.ending 1 7).kind = .eof := rfl
  obtain ⟨recovery, member, -, -, viable, refused, -⟩ :=
    (first_error_earliest inside last).1 ⟨.expectedExpression, ⟨.semicolon, ";", none, 1, ⟨6, 7⟩⟩⟩
      rfl
  cases member
  exact ⟨inside, last, viable, refused (by decide)⟩

end Parsed

end TreeWalk
