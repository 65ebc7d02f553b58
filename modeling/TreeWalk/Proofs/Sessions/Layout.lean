import TreeWalk.Proofs.Scanning.SourceText
import TreeWalk.Proofs.Sessions.History
import TreeWalk.Proofs.Similarity.Parses
import TreeWalk.Proofs.Similarity.Runs

/-!
# Layout does not matter

White space, line breaks and comments decide where the tokens of a source stand and nothing else.
Two sources with the same tokens but for their places are answered alike, and their reports differ
in places only.
-/

set_option autoImplicit false

namespace TreeWalk

open Diagnostic (Problem Report Reporter)

/-! ## What is left without places -/

def LexicalError.unplaced (error : LexicalError) : LexicalError :=
  { error with line := 0, span := ⟨0, 0⟩ }

def SyntaxError.unplaced (error : SyntaxError) : SyntaxError :=
  { error with token := error.token.unplaced }

def Fault.unplaced (fault : Fault) : Fault := { fault with token := fault.token.unplaced }

namespace Diagnostic

def Problem.unplaced : Problem → Problem
  | lexical error => .lexical error.unplaced
  | grammatical error => .grammatical error.unplaced
  | runtime fault => .runtime fault.unplaced

/-- A report without the places it tells and the source it shows. -/
def Report.unplaced : Report → Report
  | inSource path _ problem => .inSource path "" problem.unplaced
  | unreadable path failure => .unreadable path failure

end Diagnostic

namespace Alignment

theorem SyntaxErrors.unplaced {left right : SyntaxError}
    (alike : anywhere.SyntaxErrors left right) : left.unplaced = right.unplaced := by
  unfold SyntaxError.unplaced
  rw [tokens_anywhere.mp alike.token, alike.cause]

theorem Faults.unplaced {left right : Fault} (alike : anywhere.Faults left right) :
    left.unplaced = right.unplaced := by
  unfold Fault.unplaced
  rw [tokens_anywhere.mp alike.token, alike.cause]

end Alignment

/-! ## Two sources with the same tokens -/

section Sources

variable {source other : String}
variable (same : (Scan.ofSource source).tokens.map Token.unplaced =
  (Scan.ofSource other).tokens.map Token.unplaced)

include same

theorem parses_of_unplaced : Alignment.anywhere.Parses (parsedOf source) (parsedOf other) := by
  have ends : ∃ token ∈ (Scan.ofSource source).tokens, token.isEnd = true := by
    obtain ⟨front, tokens, -⟩ := Scanner.tokens_ending source
    rw [tokens]
    exact ⟨_, List.mem_append_right _ (List.mem_singleton_self _), rfl⟩
  exact Alignment.parses_ofTokens (Alignment.forall₂_anywhere same) ends

variable (scanned : (Scan.ofSource source).errors = [])
variable (scanned' : (Scan.ofSource other).errors = [])

include scanned scanned'

theorem problemsOf_unplaced :
    (problemsOf source).map Problem.unplaced = (problemsOf other).map Problem.unplaced := by
  rw [problemsOf, problemsOf, scanned, scanned', List.map_nil, List.nil_append, List.nil_append,
    List.map_map, List.map_map, ← List.forall₂_eq_eq_eq, List.forall₂_map_left_iff,
    List.forall₂_map_right_iff]
  exact (parses_of_unplaced same).errors.imp fun _ _ alike =>
    congrArg Problem.grammatical alike.unplaced

theorem problemsOf_eq_nil_iff_of_unplaced : problemsOf source = [] ↔ problemsOf other = [] := by
  have unplaced := problemsOf_unplaced same scanned scanned'
  constructor
  · intro sound
    rw [sound, List.map_nil] at unplaced
    exact List.map_eq_nil_iff.mp unplaced.symm
  · intro sound
    rw [sound, List.map_nil] at unplaced
    exact List.map_eq_nil_iff.mp unplaced

end Sources

theorem Diagnostic.map_unplaced_inSource {problems others : List Problem}
    (same : problems.map Problem.unplaced = others.map Problem.unplaced)
    (path source other : String) :
    (problems.map (.inSource path source)).map Report.unplaced =
      (others.map (.inSource path other)).map Report.unplaced := by
  have inner (text : String) (list : List Problem) :
      (list.map (.inSource path text)).map Report.unplaced =
        (list.map Problem.unplaced).map (.inSource path "") := by
    rw [List.map_map, List.map_map]
    rfl
  rw [inner, inner, same]

/-! ## Two calls -/

namespace Session

/-- Two answers to calls on one session.  They differ at most in the sources and in the places that
the reports tell. -/
structure Agrees (session : Session) (status : Status) (after : Session) (other : Status)
    (after' : Session) : Prop where
  status : status = other
  output : after.output = after'.output
  sink : after.machine.sink = after'.machine.sink
  environment : after.machine.environment = after'.machine.environment
  count : after.reporter.count = after'.reporter.count
  reported : ∃ reports reports', session.Emits reports after ∧ session.Emits reports' after' ∧
    reports.map Report.unplaced = reports'.map Report.unplaced

theorem agrees_of_emits {session after after' : Session} {status : Status}
    {reports reports' : List Report} (emits : session.Emits reports after)
    (emits' : session.Emits reports' after')
    (same : reports.map Report.unplaced = reports'.map Report.unplaced)
    (sink : after.machine.sink = after'.machine.sink)
    (environment : after.machine.environment = after'.machine.environment) :
    session.Agrees status after status after' := by
  have length := congrArg List.length same
  rw [List.length_map, List.length_map] at length
  refine ⟨rfl, congrArg Sink.output sink, sink, environment, ?_, _, _, emits, emits', same⟩
  rw [emits.reporter, emits'.reporter, Reporter.count_emits, Reporter.count_emits, length]

section Answers

variable {session : Session} {source other : String}
variable (same : (Scan.ofSource source).tokens.map Token.unplaced =
  (Scan.ofSource other).tokens.map Token.unplaced)

include same

/-- Both programs end or both run on for ever, and they end alike. -/
theorem ends_of_unplaced (machine : Machine) :
    (∀ result left, machine.Ends (programOf source) result left → ∃ result' left',
        machine.Ends (programOf other) result' left' ∧
          Option.Rel Alignment.anywhere.Faults result result' ∧
          Alignment.anywhere.Machines left left') ∧
      ∀ result' left', machine.Ends (programOf other) result' left' → ∃ result left,
        machine.Ends (programOf source) result left ∧
          Option.Rel Alignment.anywhere.Faults result result' ∧
          Alignment.anywhere.Machines left left' := by
  -- all lines correspond, so it does not matter which texts the sink takes
  have machines : Alignment.anywhere.Machines machine machine := ⟨rfl, rfl, Or.inl trivial⟩
  exact (parses_of_unplaced same).statements.ends machines

variable (scanned : (Scan.ofSource source).errors = [])
variable (scanned' : (Scan.ofSource other).errors = [])

include scanned scanned'

theorem exists_answers_iff_of_unplaced :
    (∃ status after, session.Answers source status after) ↔
      ∃ status after, session.Answers other status after := by
  obtain ⟨onward, back⟩ := ends_of_unplaced same session.machine
  rw [exists_answers_iff, exists_answers_iff, ne_eq, ne_eq,
    problemsOf_eq_nil_iff_of_unplaced same scanned scanned']
  refine or_congr_right ⟨?_, ?_⟩
  · rintro ⟨result, left, ends⟩
    obtain ⟨result', left', ends', -⟩ := onward result left ends
    exact ⟨result', left', ends'⟩
  · rintro ⟨result', left', ends'⟩
    obtain ⟨result, left, ends, -⟩ := back result' left' ends'
    exact ⟨result, left, ends⟩

theorem agrees_of_unplaced {status status' : Status} {after after' : Session}
    (answers : session.Answers source status after)
    (answers' : session.Answers other status' after') :
    session.Agrees status after status' after' := by
  have sound_iff := problemsOf_eq_nil_iff_of_unplaced same scanned scanned'
  by_cases sound : problemsOf source = []
  · obtain ⟨result, left, ends, rfl, emits, machine⟩ := ends_of_answers sound answers
    obtain ⟨result', left', ends', rfl, emits', machine'⟩ :=
      ends_of_answers (sound_iff.mp sound) answers'
    obtain ⟨_, _, again, faults, leaves⟩ :=
      (ends_of_unplaced same session.machine).1 result left ends
    obtain ⟨rfl, rfl⟩ := ends'.unique again
    have sink : after.machine.sink = after'.machine.sink := by
      rw [machine, machine']
      exact leaves.sink
    have environment : after.machine.environment = after'.machine.environment := by
      rw [machine, machine']
      exact leaves.environment
    cases faults with
    | none => exact agrees_of_emits emits emits' rfl sink environment
    | some faults =>
        have reports := congrArg (fun fault => [Report.inSource session.path "" (.runtime fault)])
          faults.unplaced
        exact agrees_of_emits emits emits' reports sink environment
  · obtain ⟨rfl, emits, machine⟩ := rejected_of_answers sound answers
    obtain ⟨rfl, emits', machine'⟩ := rejected_of_answers (mt sound_iff.mpr sound) answers'
    have kept : after.machine = after'.machine := machine.trans machine'.symm
    have reports := Diagnostic.map_unplaced_inSource (problemsOf_unplaced same scanned scanned')
      session.path source other
    exact agrees_of_emits emits emits' reports (congrArg Machine.sink kept)
      (congrArg Machine.environment kept)

end Answers

/-- Sources that differ in layout only are answered together, and their answers agree. -/
theorem answers_of_unplaced {session : Session} {source other : String}
    (scanned : (Scan.ofSource source).errors = []) (scanned' : (Scan.ofSource other).errors = [])
    (same : (Scan.ofSource source).tokens.map Token.unplaced =
      (Scan.ofSource other).tokens.map Token.unplaced) :
    ((∃ status after, session.Answers source status after) ↔
      ∃ status after, session.Answers other status after) ∧
    ∀ status after status' after', session.Answers source status after →
      session.Answers other status' after' → session.Agrees status after status' after' :=
  ⟨exists_answers_iff_of_unplaced same scanned scanned',
    fun _ _ _ _ => agrees_of_unplaced same scanned scanned'⟩

/-- A name without a value is printed; the second source has a comment and a line break more. -/
theorem answers_of_unplaced_comment :
    (Scan.ofSource "print a;").errors = [] ∧ (Scan.ofSource "print//b\n\ta ;").errors = [] ∧
      (Scan.ofSource "print a;").tokens.map Token.unplaced =
        (Scan.ofSource "print//b\n\ta ;").tokens.map Token.unplaced ∧
      ∃ after after', (start .keeping .unfailing).Answers "print a;" .faulted after ∧
        (start .keeping .unfailing).Answers "print//b\n\ta ;" .faulted after' ∧
        (start .keeping .unfailing).Agrees .faulted after .faulted after' := by
  have scanned : (Scan.ofSource "print a;").errors = [] := by decide +kernel
  have scanned' : (Scan.ofSource "print//b\n\ta ;").errors = [] := by decide +kernel
  have same : (Scan.ofSource "print a;").tokens.map Token.unplaced =
      (Scan.ofSource "print//b\n\ta ;").tokens.map Token.unplaced := by decide +kernel
  have program : programOf "print a;" =
      [.print (.reference ⟨.identifier, "a", none, 1, ⟨6, 7⟩⟩)] := rfl
  obtain ⟨_, failed⟩ : ∃ left, Machine.interpret 0 (programOf "print a;")
      (start .keeping .unfailing).machine = Execution.finished left
        (some ⟨.undefinedVariable "a", ⟨.identifier, "a", none, 1, ⟨6, 7⟩⟩⟩) := by
    rw [program]
    exact ⟨_, rfl⟩
  obtain ⟨after, answer, -⟩ := run_of_finished (by decide +kernel) failed
  obtain ⟨answered, agree⟩ := answers_of_unplaced scanned scanned' same
  obtain ⟨status, after', answer'⟩ := answered.mp ⟨_, after, 0, answer⟩
  have agrees := agree _ _ _ _ ⟨0, answer⟩ answer'
  obtain rfl := agrees.status
  exact ⟨scanned, scanned', same, after, after', ⟨0, answer⟩, answer', agrees⟩

end Session

end TreeWalk
