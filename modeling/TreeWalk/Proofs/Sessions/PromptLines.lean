import TreeWalk.Proofs.Execution.Sinks
import TreeWalk.Proofs.Scanning.Joining
import TreeWalk.Proofs.Sessions.Calls
import TreeWalk.Proofs.Similarity.Parses
import TreeWalk.Proofs.Similarity.Runs

/-!
# Programs over several prompt lines

A program may be entered in one piece or statement by statement.  If the first part runs without
an error, the whole program does what the second part does behind it; only the places that an
error tells are further on.
-/

set_option autoImplicit false

namespace TreeWalk

open Diagnostic (Problem Report)
open Grammar (Part ReadsProgram)
open Stateful (bind_eq_ok bind_of_ok)

/-! ## One program behind another -/

theorem Stmt.executeAll_append {budget : Nat} {first second : List Stmt}
    {machine middle : Machine} (early : Stmt.executeAll budget first machine = .ok () middle) :
    Stmt.executeAll budget (first ++ second) machine = Stmt.executeAll budget second middle := by
  induction first generalizing machine with
  | nil =>
      cases early
      rfl
  | cons statement rest ih =>
      obtain ⟨_, next, head, tail⟩ := bind_eq_ok.mp early
      exact (bind_of_ok _ head).trans (ih tail)

namespace Machine

variable {first second : List Stmt} {machine middle left : Machine}

theorem interpret_append {budget : Nat}
    (early : interpret budget first machine = .ok () middle) :
    interpret budget (first ++ second) machine = interpret budget second middle := by
  have run : Stmt.executeAll budget first machine = .ok () middle := by
    unfold interpret at early
    split at early
    · next inner =>
        cases early
        exact inner
    · cases early
    · cases early
  unfold interpret
  rw [Stmt.executeAll_append run]

theorem Ends.append_iff (early : machine.Ends first none middle) (result : Option Fault) :
    machine.Ends (first ++ second) result left ↔ middle.Ends second result left := by
  obtain ⟨budget, run⟩ := early
  have within (more : Nat) : interpret (max budget more) (first ++ second) machine =
      interpret (max budget more) second middle :=
    interpret_append ((interpret_stable (Nat.le_max_left budget more) first).finished run)
  constructor
  · rintro ⟨more, whole⟩
    have again := (interpret_stable (Nat.le_max_right budget more) _).finished whole
    exact ⟨max budget more, (within more).symm.trans again⟩
  · rintro ⟨more, rest⟩
    have again := (interpret_stable (Nat.le_max_right budget more) _).finished rest
    exact ⟨max budget more, (within more).trans again⟩

end Machine

/-! ## Two sources -/

/-- Places correspond if the second one is that much further on. -/
def Displacement.alignment (way : Displacement) : Alignment where
  lines line further := further = line + way.lines
  spans span further := further = span.moved way

def Fault.moved (fault : Fault) (way : Displacement) : Fault :=
  { fault with token := fault.token.moved way }

namespace Displacement

variable {way : Displacement}

theorem tokens_moved (token : Token) : way.alignment.Tokens token (token.moved way) :=
  ⟨rfl, rfl, rfl, rfl, rfl⟩

theorem forall₂_moved (tokens : List Token) :
    List.Forall₂ way.alignment.Tokens tokens (tokens.map (·.moved way)) := by
  induction tokens with
  | nil => exact .nil
  | cons token rest ih => exact .cons (tokens_moved token) ih

theorem eq_moved {token further : Token} (tokens : way.alignment.Tokens token further) :
    further = token.moved way := by
  have line : further.line = token.line + way.lines := tokens.line
  have span : further.span = token.span.moved way := tokens.span
  have parts : further = ⟨further.kind, further.lexeme, further.literal, further.line,
    further.span⟩ := rfl
  rw [parts, ← tokens.kind, ← tokens.lexeme, ← tokens.literal, line, span]
  rfl

theorem fault_moved {fault further : Fault} (faults : way.alignment.Faults fault further) :
    further = fault.moved way := by
  have parts : further = ⟨further.cause, further.token⟩ := rfl
  rw [parts, ← faults.cause, eq_moved faults.token]
  rfl

end Displacement

theorem Grammar.ReadsProgram.append {first second : List Token} {program later : List Stmt}
    (early : ReadsProgram first program []) (late : ReadsProgram second later []) :
    ReadsProgram (first ++ second) (program ++ later) [] := by
  obtain ⟨parts, each, rfl, rfl, quiet⟩ := early
  obtain ⟨others, every, rfl, rfl, silent⟩ := late
  refine ⟨parts ++ others, ?_, ?_, ?_, ?_⟩
  · intro part member
    rcases List.mem_append.mp member with front | back
    · exact each part front
    · exact every part back
  · exact List.flatMap_append.symm
  · rw [List.map_append]
  · rw [Part.notedIn, List.reverse_append, List.flatMap_append]
    exact (List.append_eq_nil_iff.mpr ⟨silent.symm, quiet.symm⟩).symm

theorem Grammar.ReadsProgram.moved {tokens : List Token} {program : List Stmt} {ending : Token}
    (inside : ∀ token ∈ tokens, token.kind ≠ .eof) (last : ending.kind = .eof)
    (reads : ReadsProgram tokens program []) (way : Displacement) :
    ∃ further, ReadsProgram (tokens.map (·.moved way)) further [] ∧
      way.alignment.Tasks (.all program) (.all further) := by
  obtain ⟨ok, rfl⟩ := (Parsed.ok_iff_reads inside last program).mpr reads
  have parses : way.alignment.Parses (.ofTokens (tokens ++ [ending]))
      (.ofTokens ((tokens ++ [ending]).map (·.moved way))) :=
    Alignment.parses_ofTokens (Displacement.forall₂_moved _)
      ⟨ending, List.mem_append_right _ (List.mem_singleton_self _), decide_eq_true last⟩
  have okMoved := parses.isOk.symm.trans ok
  rw [List.map_append, List.map_singleton] at parses okMoved
  refine ⟨_, (Parsed.ok_iff_reads ?_ ?_ _).mp ⟨okMoved, rfl⟩, parses.statements⟩
  · intro token member
    obtain ⟨other, among, rfl⟩ := List.mem_map.mp member
    exact inside other among
  · exact last

theorem reads_of_sound {source : String} (sound : problemsOf source = []) :
    ∃ front ending, (∀ token ∈ front, token.kind ≠ .eof) ∧ ending.kind = .eof ∧
      (Scan.ofSource source).tokens = front ++ [ending] ∧
      ReadsProgram front (programOf source) [] ∧
      ∀ second : String, Scan.ofSource (source ++ "\n" ++ second) =
        ⟨front ++ (Scan.ofSource second).tokens.map (·.moved (.behind source)),
          (Scan.ofSource second).errors.map (·.moved (.behind source))⟩ := by
  obtain ⟨scanned, ok⟩ := problemsOf_eq_nil_iff.mp sound
  have closed : ∀ error ∈ (Scan.ofSource source).errors, error.cause ≠ .unterminatedString := by
    rw [scanned]
    exact List.forall_mem_nil _
  obtain ⟨front, ending, tokens, last, inside, joined⟩ := Scan.join closed
  have program : parsedOf source = .ofTokens (front ++ [ending]) := by rw [parsedOf, tokens]
  rw [program] at ok
  refine ⟨front, ending, inside, last, tokens, ?_, ?_⟩
  · rw [programOf, program]
    exact (Parsed.ok_iff_reads inside last _).mp ⟨ok, rfl⟩
  · intro second
    rw [joined, scanned, List.nil_append]

/-- Without problems in either part the whole has none, and its program is that of the first part
followed by that of the second one, with its places moved. -/
theorem program_join {first second : String} (sound : problemsOf first = [])
    (sound' : problemsOf second = []) :
    problemsOf (first ++ "\n" ++ second) = [] ∧ ∃ later,
      programOf (first ++ "\n" ++ second) = programOf first ++ later ∧
        (Displacement.behind first).alignment.Tasks (.all (programOf second)) (.all later) := by
  obtain ⟨front, -, inside, -, -, early, joined⟩ := reads_of_sound sound
  obtain ⟨back, ending, inside', last, tokens, reads, -⟩ := reads_of_sound sound'
  obtain ⟨later, late, alike⟩ := reads.moved inside' last (.behind first)
  have scanned := (problemsOf_eq_nil_iff.mp sound').1
  -- the end token of the first part is gone, that of the second one ends the whole
  have whole : Scan.ofSource (first ++ "\n" ++ second) =
      ⟨front ++ back.map (·.moved (.behind first)) ++ [ending.moved (.behind first)], []⟩ := by
    rw [joined, tokens, scanned, List.map_append, List.map_singleton, List.append_assoc,
      List.map_nil]
  have program : parsedOf (first ++ "\n" ++ second) = .ofTokens
      (front ++ back.map (·.moved (.behind first)) ++ [ending.moved (.behind first)]) := by
    rw [parsedOf, whole]
  have insideBoth : ∀ token ∈ front ++ back.map (·.moved (.behind first)), token.kind ≠ .eof := by
    intro token member
    rcases List.mem_append.mp member with among | moved
    · exact inside token among
    · obtain ⟨other, among, rfl⟩ := List.mem_map.mp moved
      exact inside' other among
  obtain ⟨ok, statements⟩ := (Parsed.ok_iff_reads insideBoth
    (show (ending.moved (.behind first)).kind = .eof from last) _).mpr (early.append late)
  rw [← program] at ok statements
  exact ⟨problemsOf_eq_nil_iff.mpr ⟨by rw [whole], ok⟩, later, statements, alike⟩

/-! ## Two calls -/

namespace Session

variable {session middle : Session} {first second : String}

theorem ends_of_answers_clean (sound : problemsOf first = [])
    (ran : session.Answers first .clean middle) :
    (∃ left, session.machine.Ends (programOf first) none left ∧
      middle.machine = { left with journal := [] }) ∧ session.Emits [] middle := by
  obtain ⟨result, left, ends, status, emits, machine⟩ := ends_of_answers sound ran
  cases result with
  | none => exact ⟨⟨left, ends, machine⟩, emits⟩
  | some fault => cases status

/-- The answer to a call on two parts of a source at once, beside the answer to a call on the
second one behind a call on the first one. -/
structure Continues (session middle : Session) (first second : String) (status : Status)
    (whole : Session) (other : Status) (after : Session) : Prop where
  status : status = other
  output : whole.output = after.output
  environment : whole.machine.environment = after.machine.environment
  /-- Both report the fault that ended the program, if there is one.  Only its place differs, and
  the source that is shown. -/
  reported : ∃ result, other = .ofResult result ∧
    middle.Emits (reportsOf session.path second result) after ∧
      session.Emits (reportsOf session.path (first ++ "\n" ++ second)
        (result.map (·.moved (.behind first)))) whole

/-- The whole program ends if and only if the second part does behind the first one; its fault is
the same at a place further on. -/
theorem ends_join (unfailing : session.machine.sink.Unfailing) (sound : problemsOf first = [])
    (sound' : problemsOf second = []) (ran : session.Answers first .clean middle) :
    (∀ result left, middle.machine.Ends (programOf second) result left → ∃ left',
        session.machine.Ends (programOf (first ++ "\n" ++ second))
          (result.map (·.moved (.behind first))) left' ∧
        left.environment = left'.environment ∧ left.sink = left'.sink) ∧
      ((∃ result left, session.machine.Ends (programOf (first ++ "\n" ++ second)) result left) →
        ∃ result left, middle.machine.Ends (programOf second) result left) := by
  obtain ⟨⟨left₀, early, same⟩, -⟩ := ends_of_answers_clean sound ran
  obtain ⟨-, later, program, alike⟩ := program_join sound sound'
  have machines : (Displacement.behind first).alignment.Machines middle.machine left₀ := by
    -- the first part may have printed, so the sink is another one, but of the same kind
    rw [same]
    exact ⟨rfl, rfl, Or.inr (early.unfailing unfailing)⟩
  obtain ⟨onward, back⟩ := alike.ends machines
  rw [program]
  constructor
  · intro result left ends
    obtain ⟨result', left', ends', faults, leaves⟩ := onward result left ends
    have moved : result' = result.map (·.moved (.behind first)) := by
      cases faults with
      | none => rfl
      | some alike => exact congrArg some (Displacement.fault_moved alike)
    rw [← moved]
    exact ⟨left', (early.append_iff _).mpr ends', leaves.environment, leaves.sink⟩
  · rintro ⟨result', left', ends'⟩
    obtain ⟨result, left, ends, -⟩ := back result' left' ((early.append_iff _).mp ends')
    exact ⟨result, left, ends⟩

/-- It makes no difference whether a source is entered at once or in two calls, if the first one
runs without an error. -/
theorem run_over_lines (unfailing : session.machine.sink.Unfailing)
    (sound : problemsOf first = []) (sound' : problemsOf second = [])
    (ran : session.Answers first .clean middle) :
    ((∃ status whole, session.Answers (first ++ "\n" ++ second) status whole) ↔
      ∃ status after, middle.Answers second status after) ∧
    ∀ status whole other after, session.Answers (first ++ "\n" ++ second) status whole →
      middle.Answers second other after →
        Continues session middle first second status whole other after := by
  obtain ⟨onward, back⟩ := ends_join unfailing sound sound' ran
  obtain ⟨whole_sound, -⟩ := program_join sound sound'
  have path : middle.path = session.path := (ends_of_answers_clean sound ran).2.path
  refine ⟨⟨?_, ?_⟩, ?_⟩
  · intro answered
    obtain wrong | ends := (session.exists_answers_iff _).mp answered
    · exact absurd whole_sound wrong
    · exact (middle.exists_answers_iff second).mpr (Or.inr (back ends))
  · intro answered
    obtain wrong | ⟨result, left, ends⟩ := (middle.exists_answers_iff second).mp answered
    · exact absurd sound' wrong
    · obtain ⟨left', ends', -⟩ := onward result left ends
      exact (session.exists_answers_iff _).mpr (Or.inr ⟨_, left', ends'⟩)
  · intro status whole other after answers answers'
    obtain ⟨result, left, ends, rfl, emits, machine⟩ := ends_of_answers sound' answers'
    obtain ⟨moved, left', ends', rfl, emits', machine'⟩ := ends_of_answers whole_sound answers
    obtain ⟨further, again, environment, sink⟩ := onward result left ends
    obtain ⟨rfl, rfl⟩ := ends'.unique again
    rw [path] at emits
    refine ⟨?_, ?_, ?_, result, rfl, emits, emits'⟩
    · cases result <;> rfl
    · rw [output, output, machine, machine', sink]
    · rw [machine, machine']
      exact environment.symm

/-- The second line prints a variable of the first one and then reads a name that has none. -/
theorem run_over_lines_undefined :
    ∃ middle after whole, (start .keeping .unfailing).Answers "var a;" .clean middle ∧
      middle.Answers "print a; b;" .faulted after ∧
      (start .keeping .unfailing).Answers "var a;\nprint a; b;" .faulted whole ∧
      Continues (start .keeping .unfailing) middle "var a;" "print a; b;" .faulted whole .faulted
        after := by
  obtain ⟨left, ended, kept⟩ : ∃ left, Machine.interpret 0 (programOf "var a;")
      (start .keeping .unfailing).machine = Execution.finished left none ∧
        { left with journal := [] } = Machine.mk (.define .empty "a" .nil) .unfailing [] := by
    rw [show programOf "var a;" = [.var ⟨.identifier, "a", none, 1, ⟨4, 5⟩⟩ none] from rfl]
    exact ⟨_, rfl, rfl⟩
  obtain ⟨middle, clean, -, same⟩ := run_of_finished (by decide +kernel) ended
  obtain ⟨final, failed⟩ : ∃ final, Machine.interpret 0 (programOf "print a; b;") middle.machine =
      Execution.finished final
        (some ⟨.undefinedVariable "b", ⟨.identifier, "b", none, 1, ⟨9, 10⟩⟩⟩) := by
    rw [same, kept]
    exact ⟨_, rfl⟩
  obtain ⟨after, faulted, -⟩ := run_of_finished (by decide +kernel) failed
  obtain ⟨answered, continues⟩ := @run_over_lines (start .keeping .unfailing) middle "var a;"
    "print a; b;" (fun _ _ => rfl) (by decide +kernel) (by decide +kernel) ⟨0, clean⟩
  obtain ⟨status, whole, answers⟩ := answered.mpr ⟨_, after, 0, faulted⟩
  have agrees := continues status whole _ after answers ⟨0, faulted⟩
  obtain rfl := agrees.status
  exact ⟨middle, after, whole, ⟨0, clean⟩, ⟨0, faulted⟩, answers, agrees⟩

end Session

end TreeWalk
