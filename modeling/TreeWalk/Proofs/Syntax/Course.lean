import TreeWalk.Proofs.Syntax.Findings
import TreeWalk.Proofs.Syntax.Progress
import TreeWalk.Proofs.Syntax.Recognition

/-!
# The course of a parse

A parse goes through the tokens declaration by declaration.  Each one is read, or it fails and the
parser recovers behind the place of the failure.  `Course` follows the parse from place to place
and collects what was noted on the way; `course_ofTokens` says that every parse has one.
-/

set_option autoImplicit false

namespace TreeWalk

open Grammar (declarationStarts)
open TreeWalk.Parser (Passed)

/-- The token at a place; behind the last token this is the end token. -/
def tokenAt (tokens : List Token) (ending : Token) (place : Nat) : Token :=
  (tokens.drop place).headD ending

theorem getElem?_of_inside {tokens : List Token} {place : Nat} (inside : place < tokens.length)
    (ending : Token) : tokens[place]? = some (tokenAt tokens ending place) := by
  rw [tokenAt, List.getElem?_eq_getElem inside, List.drop_eq_getElem_cons inside]
  rfl

/-- Recovery ends here: behind a semicolon, or before a token that starts a statement. -/
def Boundary (tokens : List Token) (place : Nat) : Prop :=
  (tokens.take place).getLast?.map Token.kind = some .semicolon ∨
    (tokens.drop place).head?.map (fun token => token.kind.startsStatement) = some true

namespace Parser

/-! ## The place of a parser in its tokens -/

theorem take_position (parser : Parser) :
    parser.tokens.take parser.position = parser.consumed.reverse := by
  simp [tokens, position]

theorem drop_position (parser : Parser) : parser.tokens.drop parser.position = parser.ahead := by
  simp [tokens, position]

theorem next_eq_tokenAt (parser : Parser) :
    parser.next = tokenAt parser.tokens parser.ending parser.position := by
  rw [tokenAt, drop_position, next]

theorem length_tokens (parser : Parser) :
    parser.tokens.length = parser.position + parser.ahead.length := by
  simp [tokens, position]

theorem position_le (parser : Parser) : parser.position ≤ parser.tokens.length := by
  rw [length_tokens]
  exact Nat.le_add_right _ _

theorem position_step {parser : Parser} (more : parser.ahead ≠ []) :
    parser.step.position = parser.position + 1 := by
  obtain ⟨token, rest, ahead⟩ := List.exists_cons_of_ne_nil more
  rw [(Passed.step ahead).position]
  rfl

theorem ending_step (parser : Parser) : parser.step.ending = parser.ending := by
  obtain ⟨read, passed⟩ := Rule.passed_step parser
  exact passed.ending

theorem Passed.recoveries {before after : Parser} {read : List Token} {noted : List SyntaxError}
    (passed : Passed before read noted after) : after.recoveries = before.recoveries := by
  rw [passed.state]
  rfl

theorem atBoundary_iff {parser : Parser} (last : parser.ending.kind = .eof) :
    parser.atBoundary = true ↔ Boundary parser.tokens parser.position := by
  have next : parser.next.kind.startsStatement = true ↔
      parser.ahead.head?.map (fun token => token.kind.startsStatement) = some true := by
    unfold Parser.next
    cases parser.ahead with
    | nil => simp [last, Kind.startsStatement]
    | cons token rest => simp
  simp only [atBoundary, Boundary, take_position, drop_position, List.getLast?_reverse,
    Bool.or_eq_true, decide_eq_true_eq, next]

/-! ## Recovery -/

theorem skipToBoundary_arrives {count : Nat} {parser : Parser} (last : parser.ending.kind = .eof)
    (enough : parser.ahead.length ≤ count) :
    (skipToBoundary count parser).ahead = [] ∨
      Boundary parser.tokens (skipToBoundary count parser).position := by
  induction count generalizing parser with
  | zero => exact Or.inl (List.eq_nil_of_length_eq_zero (by simpa [skipToBoundary] using enough))
  | succ count ih =>
      unfold skipToBoundary
      split
      · next stops =>
          rw [Bool.or_eq_true, List.isEmpty_iff, atBoundary_iff last] at stops
          exact stops
      · next goes =>
          have more : parser.ahead ≠ [] := by
            rintro nothing
            simp [nothing] at goes
          have moved := position_step more
          have same := length_tokens parser.step
          rw [tokens_step, length_tokens] at same
          have later := ih ((congrArg Token.kind (ending_step parser)).trans last)
            (show parser.step.ahead.length ≤ count by omega)
          rwa [tokens_step] at later

theorem skipToBoundary_passes {count : Nat} {parser : Parser} (last : parser.ending.kind = .eof)
    {place : Nat} (behind : parser.position ≤ place)
    (before : place < (skipToBoundary count parser).position) : ¬ Boundary parser.tokens place := by
  induction count generalizing parser with
  | zero =>
      unfold skipToBoundary at before
      omega
  | succ count ih =>
      unfold skipToBoundary at before
      split at before
      · omega
      · next goes =>
          rw [Bool.or_eq_true, not_or, List.isEmpty_iff, atBoundary_iff last] at goes
          obtain ⟨more, inside⟩ := goes
          by_cases here : place = parser.position
          · rwa [here]
          · have moved := position_step more
            have later := ih ((congrArg Token.kind (ending_step parser)).trans last) (by omega)
              before
            rwa [tokens_step] at later

end Parser

namespace Recovery

/-- Where skipping begins.  A token that no declaration begins with is given up in any case. -/
def skipsFrom (recovery : Recovery) : Nat :=
  if recovery.failed = recovery.start then recovery.failed + 1 else recovery.failed

/-- What holds of every recovery in a parse of these tokens. -/
structure Sound (tokens : List Token) (ending : Token) (recovery : Recovery) : Prop where
  inside : recovery.start < tokens.length
  forward : recovery.start ≤ recovery.failed
  within : recovery.resumed ≤ tokens.length
  token : recovery.error.token = tokenAt tokens ending recovery.failed
  cause : recovery.error.cause ≠ .invalidAssignmentTarget
  began : recovery.start < recovery.failed ↔
    (tokenAt tokens ending recovery.start).kind ∈ declarationStarts
  refused : recovery.failed = recovery.start → recovery.error.cause = .expectedExpression
  resumes : recovery.resumed = tokens.length ∨ Boundary tokens recovery.resumed
  advances : recovery.skipsFrom ≤ recovery.resumed
  skips : ∀ place, recovery.skipsFrom ≤ place → place < recovery.resumed → ¬ Boundary tokens place

theorem Sound.failed_le {tokens : List Token} {ending : Token} {recovery : Recovery}
    (sound : recovery.Sound tokens ending) : recovery.failed ≤ recovery.resumed := by
  have advances := sound.advances
  unfold skipsFrom at advances
  split at advances <;> omega

theorem Sound.progress {tokens : List Token} {ending : Token} {recovery : Recovery}
    (sound : recovery.Sound tokens ending) : recovery.start < recovery.resumed := by
  have advances := sound.advances
  have forward := sound.forward
  unfold skipsFrom at advances
  split at advances <;> omega

end Recovery

namespace Parser

/-- The parser from which tokens are skipped. -/
def moved (parser : Parser) (start : Nat) : Parser :=
  if parser.position = start then parser.step else parser

theorem synchronize_eq (parser : Parser) (start : Nat) : parser.synchronize start =
    skipToBoundary (parser.moved start).ahead.length (parser.moved start) := rfl

theorem passed_moved (parser : Parser) (start : Nat) :
    ∃ read, Passed parser read [] (parser.moved start) := by
  unfold moved
  split
  · exact Rule.passed_step parser
  · exact ⟨[], .refl parser⟩

section Synchronize

variable {parser : Parser} (start : Nat)

theorem tokens_moved : (parser.moved start).tokens = parser.tokens := by
  obtain ⟨read, passed⟩ := passed_moved parser start
  exact passed.tokens

theorem moved_le_synchronize :
    (parser.moved start).position ≤ (parser.synchronize start).position := by
  obtain ⟨read, passed⟩ := passed_skipToBoundary (parser.moved start).ahead.length
    (parser.moved start)
  have position : (parser.synchronize start).position = _ := passed.position
  omega

variable (last : parser.ending.kind = .eof)

include last

theorem last_moved : (parser.moved start).ending.kind = .eof := by
  obtain ⟨read, passed⟩ := passed_moved parser start
  exact passed.last last

theorem synchronize_arrives :
    (parser.synchronize start).position = parser.tokens.length ∨
      Boundary parser.tokens (parser.synchronize start).position := by
  obtain ⟨read, passed⟩ := passed_synchronize parser start
  have whole := length_tokens (parser.synchronize start)
  rw [passed.tokens] at whole
  rcases skipToBoundary_arrives (last_moved start last) (Nat.le_refl _) with nothing | boundary
  · have ahead : (parser.synchronize start).ahead = [] := nothing
    rw [ahead] at whole
    exact Or.inl whole.symm
  · rw [tokens_moved] at boundary
    exact Or.inr boundary

theorem synchronize_passes {place : Nat} (behind : (parser.moved start).position ≤ place)
    (before : place < (parser.synchronize start).position) : ¬ Boundary parser.tokens place := by
  have passes := skipToBoundary_passes (last_moved start last) behind before
  rwa [tokens_moved] at passes

end Synchronize

theorem topDeclaration_advances {parser : Parser} (more : parser.ahead ≠ [])
    (starts : parser.next.kind ∈ declarationStarts) :
    parser.position < (Rule.left Rule.topDeclaration parser).position := by
  obtain ⟨token, rest, ahead⟩ := List.exists_cons_of_ne_nil more
  exact Rule.advances_topDeclaration (by rw [next_of_ahead ahead]; exact ahead) starts

section Failed

variable {before after : Parser} {error : SyntaxError} (more : before.ahead ≠ [])
variable (run : Rule.topDeclaration before = .error error after)

include run

theorem tokens_of_error : after.tokens = before.tokens := by
  obtain ⟨read, noted, passed⟩ := Rule.confined_topDeclaration before
  rw [Rule.left_of_error run] at passed
  exact passed.tokens

theorem refused_of_error (other : before.next.kind ∉ declarationStarts) :
    after = before ∧ error.cause = .expectedExpression := by
  have refused := (Rule.refuses_topDeclaration other).symm.trans run
  injection refused with same stays
  exact ⟨stays.symm, by rw [← same]⟩

include more

theorem begins_of_error (starts : before.next.kind ∈ declarationStarts) :
    before.position < after.position := by
  have advances := topDeclaration_advances more starts
  rwa [Rule.left_of_error run] at advances

theorem position_moved :
    (after.moved before.position).position =
      Recovery.skipsFrom ⟨error, before.position, after.position,
        (after.synchronize before.position).position⟩ := by
  unfold moved Recovery.skipsFrom
  dsimp only
  split
  · next stuck =>
      have here := length_tokens after
      rw [tokens_of_error run, length_tokens before] at here
      have some := List.length_pos_iff.mpr more
      exact position_step (List.ne_nil_of_length_pos (by omega))
  · rfl

theorem sound_recovery (last : before.ending.kind = .eof) :
    Recovery.Sound before.tokens before.ending
      ⟨error, before.position, after.position, (after.synchronize before.position).position⟩ := by
  obtain ⟨read, noted, passed⟩ := Rule.confined_topDeclaration before
  rw [Rule.left_of_error run] at passed
  obtain ⟨blamed, cause⟩ := Rule.composed_topDeclaration.blames run
  have tokens := tokens_of_error run
  have forward := passed.position
  have some := List.length_pos_iff.mpr more
  have whole := length_tokens before
  have ends := passed.last last
  have arrives := synchronize_arrives before.position ends
  have skipsFrom := position_moved more run
  refine
    { inside := by dsimp only; omega
      forward := by dsimp only; omega
      within := ?_
      token := ?_
      cause := cause
      began := ?_
      refused := ?_
      resumes := by rwa [tokens] at arrives
      advances := by rw [← skipsFrom]; exact moved_le_synchronize before.position
      skips := ?_ }
  · obtain ⟨given, synchronized⟩ := passed_synchronize after before.position
    rw [← tokens, ← synchronized.tokens]
    exact position_le _
  · rw [blamed, next_eq_tokenAt, tokens, passed.ending]
  · dsimp only
    rw [← next_eq_tokenAt]
    refine ⟨fun moved => ?_, begins_of_error more run⟩
    by_cases starts : before.next.kind ∈ declarationStarts
    · exact starts
    · rw [(refused_of_error run starts).1] at moved
      omega
  · intro stuck
    dsimp only at stuck
    refine (refused_of_error run fun starts => ?_).2
    have begins := begins_of_error more run starts
    omega
  · intro place behind short
    rw [← skipsFrom] at behind
    rw [← tokens]
    exact synchronize_passes before.position ends behind short

end Failed

end Parser

/-! ## The whole way -/

/-- From `start` on, a parse of the tokens makes these findings and recoveries. -/
inductive Course (tokens : List Token) (ending : Token) :
    Nat → List Finding → List Recovery → Prop where
  | ended : Course tokens ending tokens.length [] []
  | read {start stop : Nat} {findings later : List Finding} {recoveries : List Recovery}
      (starts : (tokenAt tokens ending start).kind ∈ declarationStarts) (forward : start < stop)
      (refused : ∀ finding ∈ findings, finding.Refused tokens)
      (noted : Noted start findings stop) (rest : Course tokens ending stop later recoveries) :
      Course tokens ending start (findings ++ later) recoveries
  | failed {findings later : List Finding} {recovery : Recovery} {recoveries : List Recovery}
      (sound : recovery.Sound tokens ending)
      (refused : ∀ finding ∈ findings, finding.Refused tokens)
      (noted : Noted recovery.start findings recovery.failed)
      (rest : Course tokens ending recovery.resumed later recoveries) :
      Course tokens ending recovery.start
        (findings ++ ⟨recovery.error, recovery.failed, recovery.failed⟩ :: later)
        (recovery :: recoveries)

namespace Parser

theorem begins_of_ok {before after : Parser} {statement : Stmt} (more : before.ahead ≠ [])
    (run : Rule.topDeclaration before = .ok statement after) :
    before.next.kind ∈ declarationStarts ∧ before.position < after.position := by
  by_cases starts : before.next.kind ∈ declarationStarts
  · have advances := topDeclaration_advances more starts
    rw [Rule.left_of_ok run] at advances
    exact ⟨starts, advances⟩
  · have refused := Rule.refuses_topDeclaration starts
    rw [Rule.Refuses, run] at refused
    cases refused

theorem recoveries_recover (parser : Parser) (start : Nat) (error : SyntaxError) :
    (parser.recover start error).recoveries =
      ⟨error, start, parser.position, (parser.synchronize start).position⟩ ::
        parser.recoveries := by
  obtain ⟨read, passed⟩ := passed_synchronize parser start
  exact congrArg (List.cons _) passed.recoveries

theorem length_ahead_lt {before after : Parser} (tokens : after.tokens = before.tokens)
    (progress : before.position < after.position) : after.ahead.length < before.ahead.length := by
  have whole := length_tokens before
  have rest := length_tokens after
  rw [tokens] at rest
  omega

section Round

variable {parser after : Parser} (last : parser.ending.kind = .eof) (more : parser.ahead ≠ [])

include last more

theorem shorter_of_ok {statement : Stmt}
    (run : Rule.topDeclaration parser = .ok statement after) :
    after.ending.kind = .eof ∧ after.ahead.length < parser.ahead.length := by
  obtain ⟨read, noted, passed⟩ := Rule.confined_topDeclaration parser
  rw [Rule.left_of_ok run] at passed
  exact ⟨passed.last last, length_ahead_lt passed.tokens (begins_of_ok more run).2⟩

/-- Recovery goes beyond the start of a failed declaration, also when that has consumed nothing. -/
theorem shorter_of_error {error : SyntaxError}
    (run : Rule.topDeclaration parser = .error error after) :
    (after.recover parser.position error).ending.kind = .eof ∧
      (after.recover parser.position error).ahead.length < parser.ahead.length := by
  obtain ⟨read, noted, passed⟩ := Rule.confined_topDeclaration parser
  rw [Rule.left_of_error run] at passed
  have tokens := (tokens_recover after parser.position error).trans passed.tokens
  refine ⟨?_, length_ahead_lt tokens (sound_recovery more run last).progress⟩
  rw [ending_recover]
  exact passed.last last

end Round

/-- Between the two parsers lies the course of a parse, with what they have noted meanwhile. -/
def Completes (parser final : Parser) : Prop :=
  ∃ findings recoveries,
    Course parser.tokens parser.ending parser.position findings recoveries ∧
      final.errors = (findings.map Finding.error).reverse ++ parser.errors ∧
      final.recoveries = recoveries.reverse ++ parser.recoveries

theorem Completes.ended {parser : Parser} (nothing : parser.ahead = []) :
    Completes parser parser := by
  have here : parser.position = parser.tokens.length := by
    rw [length_tokens, nothing]
    rfl
  unfold Completes
  rw [here]
  exact ⟨[], [], .ended, rfl, rfl⟩

section Completes

variable {parser final : Parser} (last : parser.ending.kind = .eof) (more : parser.ahead ≠ [])

include last more

theorem Completes.read {after : Parser} {statement : Stmt}
    (run : Rule.topDeclaration parser = .ok statement after) (rest : Completes after final) :
    Completes parser final := by
  obtain ⟨findings, logged⟩ := Rule.composed_topDeclaration.logs last
  rw [Rule.left_of_ok run] at logged
  obtain ⟨read, passed⟩ := logged.passed
  obtain ⟨starts, forward⟩ := begins_of_ok more run
  obtain ⟨later, recoveries, course, errors, recovered⟩ := rest
  rw [passed.tokens, passed.ending] at course
  rw [next_eq_tokenAt] at starts
  refine ⟨_, _, .read starts forward logged.refused logged.noted course, ?_, ?_⟩
  · rw [errors, passed.errors, List.map_append, List.reverse_append, List.append_assoc]
  · rw [recovered, passed.recoveries]

theorem Completes.failed {after : Parser} {error : SyntaxError}
    (run : Rule.topDeclaration parser = .error error after)
    (rest : Completes (after.recover parser.position error) final) : Completes parser final := by
  obtain ⟨findings, logged⟩ := Rule.composed_topDeclaration.logs last
  rw [Rule.left_of_error run] at logged
  obtain ⟨read, passed⟩ := logged.passed
  have sound := sound_recovery more run last
  obtain ⟨later, recoveries, course, errors, recovered⟩ := rest
  rw [tokens_recover, passed.tokens, ending_recover, passed.ending] at course
  refine ⟨_, _, .failed sound logged.refused logged.noted course, ?_, ?_⟩
  · rw [errors, errors_recover, passed.errors]
    simp
  · rw [recovered, recoveries_recover, passed.recoveries]
    simp

end Completes

theorem program_completes {count : Nat} (done : List Stmt) {parser : Parser}
    (last : parser.ending.kind = .eof) (enough : parser.ahead.length ≤ count) :
    Completes parser (program count done parser).2 := by
  induction count generalizing done parser with
  | zero => exact .ended (List.eq_nil_of_length_eq_zero (Nat.le_zero.mp enough))
  | succ count ih =>
      unfold program
      split
      · next nothing => exact .ended (List.isEmpty_iff.mp nothing)
      · next goes =>
          have more : parser.ahead ≠ [] := fun nothing => goes (List.isEmpty_iff.mpr nothing)
          split
          · next statement after run =>
              obtain ⟨ends, fewer⟩ := shorter_of_ok last more run
              exact .read last more run (ih _ ends (by omega))
          · next error after run =>
              obtain ⟨ends, fewer⟩ := shorter_of_error last more run
              exact .failed last more run (ih done ends (by omega))

end Parser

/-- Every parse has a course, and its errors are those of the findings. -/
theorem Parsed.course_ofTokens (given : List Token) :
    ∃ findings,
      Course (Parser.ofTokens given).tokens (Parser.ofTokens given).ending 0 findings
          (Parsed.ofTokens given).recoveries ∧
        (Parsed.ofTokens given).errors = findings.map Finding.error := by
  obtain ⟨findings, recoveries, course, errors, recovered⟩ :=
    Parser.program_completes [] (Parsed.ending_ofTokens given) (Nat.le_refl _)
  have clean : (Parser.ofTokens given).errors = [] ∧ (Parser.ofTokens given).recoveries = [] :=
    ⟨rfl, rfl⟩
  rw [clean.1] at errors
  rw [clean.2] at recovered
  have same : (Parsed.ofTokens given).recoveries = recoveries := by
    simp [Parsed.ofTokens, Parser.parse, recovered]
  rw [same]
  exact ⟨findings, course, by simp [Parsed.ofTokens, Parser.parse, errors]⟩

/-! ## What is found on the way -/

/-- The error that ended a declaration; it is about the token in front of which the parser had
come to a halt. -/
structure Finding.Halted (tokens : List Token) (ending : Token) (finding : Finding) : Prop where
  here : finding.stop = finding.place
  token : finding.error.token = tokenAt tokens ending finding.place
  cause : finding.error.cause ≠ .invalidAssignmentTarget

namespace Course

variable {tokens : List Token} {ending : Token} {start : Nat} {findings : List Finding}
variable {recoveries : List Recovery}

theorem noted (course : Course tokens ending start findings recoveries) :
    Noted start findings tokens.length := by
  induction course with
  | ended => exact .nil (Nat.le_refl _)
  | read _ _ _ noted _ ih => exact noted.append ih
  | @failed _ _ recovery _ sound _ noted _ ih =>
      refine noted.append ?_
      have forward := ih.forward
      have further := sound.failed_le
      refine ⟨by omega, ?_, List.pairwise_cons.mpr ⟨fun later member => ?_, ih.order⟩⟩
      · intro finding member
        rcases List.mem_cons.mp member with rfl | member
        · dsimp only
          omega
        · have := ih.inside finding member
          omega
      · have := ih.inside later member
        left
        dsimp only
        omega

theorem found (course : Course tokens ending start findings recoveries) {finding : Finding}
    (member : finding ∈ findings) : finding.Refused tokens ∨ finding.Halted tokens ending := by
  induction course with
  | ended => cases member
  | read _ _ refused _ _ ih =>
      rcases List.mem_append.mp member with now | later
      · exact Or.inl (refused finding now)
      · exact ih later
  | failed sound refused _ _ ih =>
      rcases List.mem_append.mp member with now | later
      · exact Or.inl (refused finding now)
      · rcases List.mem_cons.mp later with rfl | later
        · exact Or.inr ⟨rfl, sound.token, sound.cause⟩
        · exact ih later

theorem recovered (course : Course tokens ending start findings recoveries) :
    recoveries.map Recovery.error =
      (findings.map Finding.error).filter (·.cause ≠ .invalidAssignmentTarget) := by
  have passedOver {early : List Finding} (refused : ∀ finding ∈ early, finding.Refused tokens) :
      (early.map Finding.error).filter (·.cause ≠ .invalidAssignmentTarget) = [] := by
    refine List.filter_eq_nil_iff.mpr fun error member => ?_
    obtain ⟨finding, found, rfl⟩ := List.mem_map.mp member
    obtain ⟨front, equals, value, -, rfl⟩ := refused finding found
    simp
  induction course with
  | ended => rfl
  | read _ _ refused _ _ ih =>
      rw [List.map_append, List.filter_append, passedOver refused, ← ih]
      rfl
  | failed sound refused _ _ ih =>
      rw [List.map_append, List.filter_append, passedOver refused, List.map_cons, List.map_cons,
        List.filter_cons_of_pos (by simpa using sound.cause), ← ih]
      rfl

end Course

end TreeWalk
