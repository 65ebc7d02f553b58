import TreeWalk.Proofs.Execution.Interpretation
import TreeWalk.Session

/-!
# Single calls on a session

A source has problems or a program.  A source with problems is rejected: they are reported and the
machine stays as it is.  A program is run on the machine as it is, and the call is answered as soon
as the run ends.
-/

set_option autoImplicit false

namespace TreeWalk

open Diagnostic (Problem Report Reporter)
open Execution (finished)

/-! ## Reports of a session -/

def Notice.report? : Notice → Option Report
  | .report told => some told
  | .event _ => none

namespace Session

/-- Everything that was reported so far, in order. -/
def reported (session : Session) : List Report :=
  session.notices.reverse.filterMap Notice.report?

/-- Since `before` these were reported, each of them once and in this order. -/
structure Emits (before : Session) (reports : List Report) (after : Session) : Prop where
  reported : after.reported = before.reported ++ reports
  reporter : after.reporter = reports.foldl Reporter.emit before.reporter
  path : after.path = before.path

theorem Emits.refl (session : Session) : session.Emits [] session :=
  ⟨(List.append_nil _).symm, rfl, rfl⟩

theorem reported_follow (session : Session) (events : List Trace.Event) :
    (session.follow events).reported = session.reported := by
  have silent : (events.map fun event => Notice.event ⟨event, some session.path⟩).filterMap
      Notice.report? = [] := by
    rw [List.filterMap_map]
    exact List.filterMap_eq_nil_iff.mpr fun _ _ => rfl
  simp [reported, follow, silent]

theorem reported_report (session : Session) (source : String) (problem : Problem) :
    (session.report source problem).reported =
      session.reported ++ [.inSource session.path source problem] := by
  unfold reported report
  rw [List.reverse_cons, List.filterMap_append]
  rfl

section Later

variable {first second : Session} {reports : List Report}

theorem Emits.follow (emits : first.Emits reports second) (events : List Trace.Event) :
    first.Emits reports (second.follow events) :=
  ⟨(reported_follow second events).trans emits.reported, emits.reporter, emits.path⟩

theorem Emits.absorb (emits : first.Emits reports second) (machine : Machine) :
    first.Emits reports (second.absorb machine) :=
  ⟨(reported_follow _ _).trans emits.reported, emits.reporter, emits.path⟩

theorem Emits.report (emits : first.Emits reports second) (source : String) (problem : Problem) :
    first.Emits (reports ++ [.inSource first.path source problem])
      (second.report source problem) := by
  refine ⟨?_, ?_, emits.path⟩
  · rw [reported_report, emits.reported, emits.path, List.append_assoc]
  · rw [List.foldl_append, ← emits.reporter, ← emits.path]
    rfl

theorem reportAll_cons (session : Session) (source : String) (problem : Problem)
    (rest : List Problem) :
    session.reportAll source (problem :: rest) =
      (session.report source problem).reportAll source rest := rfl

theorem Emits.reportAll (emits : first.Emits reports second) (source : String)
    (problems : List Problem) :
    first.Emits (reports ++ problems.map (.inSource first.path source))
      (second.reportAll source problems) := by
  induction problems generalizing second reports with
  | nil =>
      rw [List.map_nil, List.append_nil]
      exact emits
  | cons problem rest ih =>
      have tail := ih (emits.report source problem)
      rwa [List.append_assoc] at tail

end Later

theorem machine_follow (session : Session) (events : List Trace.Event) :
    (session.follow events).machine = session.machine := rfl

theorem machine_reportAll (session : Session) (source : String) (problems : List Problem) :
    (session.reportAll source problems).machine = session.machine := by
  induction problems generalizing session with
  | nil => rfl
  | cons problem rest ih =>
      rw [reportAll_cons, ih]
      rfl

end Session

/-! ## What a call does -/

def parsedOf (source : String) : Parsed := .ofTokens (Scan.ofSource source).tokens

def programOf (source : String) : List Stmt := (parsedOf source).statements

/-- What is wrong with a source before it is run: its lexical errors, then the syntax errors of
its tokens. -/
def problemsOf (source : String) : List Problem :=
  (Scan.ofSource source).errors.map .lexical ++ (parsedOf source).errors.map .grammatical

theorem problemsOf_eq_nil_iff {source : String} :
    problemsOf source = [] ↔
      (Scan.ofSource source).errors = [] ∧ (parsedOf source).isOk = true := by
  simp [problemsOf, Parsed.isOk]

/-- The status of a call whose program has run to this end. -/
def Status.ofResult : Option Fault → Status
  | none => .clean
  | some _ => .faulted

/-- What is reported of the end of a run. -/
def reportsOf (path source : String) : Option Fault → List Report
  | none => []
  | some fault => [.inSource path source (.runtime fault)]

namespace Session

/-- A call with this source is answered with this status and leaves this session. -/
def Answers (session : Session) (source : String) (status : Status) (after : Session) : Prop :=
  ∃ budget, session.run budget source = some (status, after)

/-- The session when a source is scanned and parsed and its lexical errors are reported. -/
def read (session : Session) (source : String) : Session :=
  let scan := Scan.ofSource source
  let scanned := session.follow
    (Trace.ofTokens scan.tokens ++ [.scanned scan.tokens.length scan.errors.length])
  (scanned.reportAll source (scan.errors.map .lexical)).follow
    (Trace.ofRecoveries (parsedOf source).recoveries)

theorem run_eq (budget : Nat) (session : Session) (source : String) :
    session.run budget source =
      if (parsedOf source).isOk then
        if (Scan.ofSource source).errors.isEmpty then
          ((session.read source).follow [.parsed (programOf source).length]).execute budget source
            (programOf source)
        else some (.rejected, session.read source)
      else some (.rejected, ((session.read source).follow
        [.parseFailed (parsedOf source).errors.length]).reportAll source
          ((parsedOf source).errors.map .grammatical)) := rfl

theorem emits_read (session : Session) (source : String) :
    session.Emits (((Scan.ofSource source).errors.map .lexical).map (.inSource session.path source))
      (session.read source) :=
  (((Emits.refl session).follow _).reportAll source _).follow _

theorem machine_read (session : Session) (source : String) :
    (session.read source).machine = session.machine := by
  rw [read, machine_follow, machine_reportAll, machine_follow]

/-- A source with problems is rejected, whatever the machine. -/
theorem run_of_problems (session : Session) {source : String} (wrong : problemsOf source ≠ []) :
    ∃ after, (∀ budget, session.run budget source = some (.rejected, after)) ∧
      session.Emits ((problemsOf source).map (.inSource session.path source)) after ∧
      after.machine = session.machine := by
  have lexical := session.emits_read source
  simp only [run_eq]
  cases ok : (parsedOf source).isOk with
  | true =>
      have grammatical : (parsedOf source).errors = [] := List.isEmpty_iff.mp ok
      have mistaken : (Scan.ofSource source).errors.isEmpty = false := by
        rw [List.isEmpty_eq_false_iff]
        exact fun nothing => wrong (problemsOf_eq_nil_iff.mpr ⟨nothing, ok⟩)
      rw [mistaken]
      refine ⟨_, fun _ => rfl, ?_, session.machine_read source⟩
      rw [problemsOf, grammatical, List.map_nil, List.append_nil]
      exact lexical
  | false =>
      refine ⟨_, fun _ => rfl, ?_, ?_⟩
      · rw [problemsOf, List.map_append]
        exact (lexical.follow _).reportAll source _
      · rw [machine_reportAll, machine_follow, machine_read]

theorem rejected_of_answers {session after : Session} {source : String} {status : Status}
    (wrong : problemsOf source ≠ []) (answers : session.Answers source status after) :
    status = .rejected ∧
      session.Emits ((problemsOf source).map (.inSource session.path source)) after ∧
      after.machine = session.machine := by
  obtain ⟨_, rejected, emits, machine⟩ := session.run_of_problems wrong
  obtain ⟨budget, answer⟩ := answers
  cases (rejected budget).symm.trans answer
  exact ⟨rfl, emits, machine⟩

theorem run_of_sound (budget : Nat) (session : Session) {source : String}
    (sound : problemsOf source = []) :
    ∃ ready, session.run budget source = ready.execute budget source (programOf source) ∧
      session.Emits [] ready ∧ ready.machine = session.machine := by
  obtain ⟨scanned, ok⟩ := problemsOf_eq_nil_iff.mp sound
  have silent := session.emits_read source
  rw [scanned] at silent
  refine ⟨_, ?_, silent.follow [.parsed (programOf source).length], ?_⟩
  · rw [run_eq, if_pos ok, scanned, List.isEmpty_nil, if_pos rfl]
  · rw [machine_follow, machine_read]

theorem execute_of_finished {budget : Nat} {session : Session} {program : List Stmt}
    {result : Option Fault} {left : Machine} (source : String)
    (run : Machine.interpret budget program session.machine = finished left result) :
    ∃ after, session.execute budget source program = some (.ofResult result, after) ∧
      session.Emits (reportsOf session.path source result) after ∧
      after.machine = { left with journal := [] } := by
  unfold execute
  rw [run]
  cases result with
  | none => exact ⟨_, rfl, (Emits.refl session).absorb left, rfl⟩
  | some fault => exact ⟨_, rfl, ((Emits.refl session).absorb left).report source _, rfl⟩

theorem finished_of_execute {budget : Nat} {session after : Session} {program : List Stmt}
    {source : String} {status : Status}
    (run : session.execute budget source program = some (status, after)) :
    ∃ result left, Machine.interpret budget program session.machine = finished left result := by
  unfold execute at run
  split at run
  · next left ended => exact ⟨none, left, ended⟩
  · next fault left ended => exact ⟨some fault, left, ended⟩
  · cases run

section Sound

variable {session : Session} {source : String} (sound : problemsOf source = [])

include sound

theorem run_of_finished {budget : Nat} {result : Option Fault} {left : Machine}
    (run : Machine.interpret budget (programOf source) session.machine = finished left result) :
    ∃ after, session.run budget source = some (.ofResult result, after) ∧
      session.Emits (reportsOf session.path source result) after ∧
      after.machine = { left with journal := [] } := by
  obtain ⟨ready, same, silent, machine⟩ := session.run_of_sound budget sound
  rw [← machine] at run
  obtain ⟨after, answer, emits, final⟩ := execute_of_finished source run
  refine ⟨after, same.trans answer, ⟨?_, ?_, emits.path.trans silent.path⟩, final⟩
  · rw [emits.reported, silent.reported, silent.path, List.append_nil]
  · rw [emits.reporter, silent.reporter, silent.path]
    rfl

/-- A call that is answered has run its program to an end, and the answer tells this end. -/
theorem ends_of_answers {status : Status} {after : Session}
    (answers : session.Answers source status after) :
    ∃ result left, session.machine.Ends (programOf source) result left ∧
      status = .ofResult result ∧ session.Emits (reportsOf session.path source result) after ∧
      after.machine = { left with journal := [] } := by
  obtain ⟨budget, answer⟩ := answers
  obtain ⟨ready, same, -, machine⟩ := session.run_of_sound budget sound
  rw [same] at answer
  obtain ⟨result, left, ended⟩ := finished_of_execute answer
  rw [machine] at ended
  obtain ⟨other, again, emits, final⟩ := run_of_finished sound ended
  rw [same, answer] at again
  cases again
  exact ⟨result, left, ⟨budget, ended⟩, rfl, emits, final⟩

end Sound

/-- A call is answered unless its source is sound and the program runs on for ever. -/
theorem exists_answers_iff (session : Session) (source : String) :
    (∃ status after, session.Answers source status after) ↔
      problemsOf source ≠ [] ∨
        ∃ result left, session.machine.Ends (programOf source) result left := by
  constructor
  · rintro ⟨status, after, answers⟩
    by_cases sound : problemsOf source = []
    · obtain ⟨result, left, ends, -⟩ := ends_of_answers sound answers
      exact Or.inr ⟨result, left, ends⟩
    · exact Or.inl sound
  · intro ending
    by_cases sound : problemsOf source = []
    · obtain wrong | ⟨result, left, budget, run⟩ := ending
      · exact absurd sound wrong
      · obtain ⟨after, answer, -⟩ := run_of_finished sound run
        exact ⟨_, after, budget, answer⟩
    · obtain ⟨after, answer, -⟩ := session.run_of_problems sound
      exact ⟨_, after, 0, answer 0⟩

end Session

end TreeWalk
