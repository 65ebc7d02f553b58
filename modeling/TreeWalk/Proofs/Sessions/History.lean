import TreeWalk.Proofs.Sessions.Calls
import TreeWalk.Proofs.Scanning.SourceText

/-!
# What a session reports

However often a session was called and whatever its earlier calls reported, each call reports the
problems of its own source, or else the fault that ended its program, and nothing besides.
-/

set_option autoImplicit false

namespace TreeWalk

open Diagnostic (Problem Report Reporter)

namespace Diagnostic.Reporter

theorem count_emits (reporter : Reporter) (reports : List Report) :
    (reports.foldl emit reporter).count = reporter.count + reports.length := by
  induction reports generalizing reporter with
  | nil => rfl
  | cons report rest ih =>
      rw [List.foldl_cons, ih, List.length_cons, Nat.add_comm rest.length 1, ← Nat.add_assoc]
      rfl

theorem reports_emits (reporter : Reporter) (reports : List Report) :
    (reports.foldl emit reporter).reports =
      reporter.reports ++ if reporter.keeps then reports else [] := by
  induction reports generalizing reporter with
  | nil => simp
  | cons report rest ih =>
      rw [List.foldl_cons, ih]
      cases keeps : reporter.keeps <;> simp [Reporter.reports, emit, keeps]

end Diagnostic.Reporter

namespace Session

structure Call where
  before : Session
  source : String
  status : Status
  after : Session

inductive History : Session → List Call → Session → Prop where
  | none (session : Session) : History session [] session
  | call {first middle last : Session} {source : String} {status : Status} {calls : List Call}
      (short : source.utf8ByteSize < Scanner.largest)
      (answers : first.Answers source status middle) (later : History middle calls last) :
      History first (⟨first, source, status, middle⟩ :: calls) last

namespace Call

def emitted (call : Call) : List Report := call.after.reported.drop call.before.reported.length

/-- The source has problems: each is reported once, and nothing is run. -/
structure Rejects (call : Call) : Prop where
  emitted : call.emitted = (problemsOf call.source).map (.inSource call.before.path call.source)
  hadError : call.status.hadError = true
  hadRuntimeError : call.status.hadRuntimeError = false
  exitCode : call.status.exitCode = 65
  environment : call.after.machine.environment = call.before.machine.environment
  output : call.after.output = call.before.output

/-- The program of the source was run on the machine of the session, and its run ended with this
result. -/
structure Executes (call : Call) (result : Option Fault) : Prop where
  ends : ∃ left, call.before.machine.Ends (programOf call.source) result left ∧
    call.after.machine.environment = left.environment ∧ call.after.machine.sink = left.sink
  emitted : call.emitted = reportsOf call.before.path call.source result
  hadError : call.status.hadError = false
  hadRuntimeError : call.status.hadRuntimeError = result.isSome
  exitCode : call.status.exitCode = if result.isSome then 70 else 0

structure Fulfilled (call : Call) : Prop where
  rejects : problemsOf call.source ≠ [] → call.Rejects
  executes : problemsOf call.source = [] → ∃ result, call.Executes result
  reported : call.after.reported = call.before.reported ++ call.emitted
  count : call.after.reporter.count = call.before.reporter.count + call.emitted.length
  held : call.after.reporter.reports =
    call.before.reporter.reports ++ if call.before.reporter.keeps then call.emitted else []
  path : call.after.path = call.before.path
  /-- Nothing but the source and the machine has a say in the status. -/
  status : ∀ (other : Session) (status : Status) (after : Session),
    other.machine = call.before.machine → other.Answers call.source status after →
      status = call.status

end Call

theorem Emits.emitted {call : Call} {reports : List Report}
    (emits : call.before.Emits reports call.after) : call.emitted = reports := by
  rw [Call.emitted, emits.reported, List.drop_left]

theorem Answers.status_unique {session other : Session} {source : String} {status another : Status}
    {after later : Session} (answers : session.Answers source status after)
    (again : other.Answers source another later) (same : other.machine = session.machine) :
    another = status := by
  by_cases sound : problemsOf source = []
  · obtain ⟨result, left, ends, rfl, -⟩ := ends_of_answers sound answers
    obtain ⟨result', left', ends', rfl, -⟩ := ends_of_answers sound again
    rw [same] at ends'
    rw [(ends.unique ends').1]
  · rw [(rejected_of_answers sound answers).1, (rejected_of_answers sound again).1]

theorem rejects_of_answers {call : Call}
    (answers : call.before.Answers call.source call.status call.after)
    (wrong : problemsOf call.source ≠ []) : call.Rejects ∧
      ∃ reports, call.before.Emits reports call.after := by
  obtain ⟨status, emits, machine⟩ := rejected_of_answers wrong answers
  refine ⟨⟨emits.emitted, ?_, ?_, ?_, ?_, ?_⟩, _, emits⟩
  · rw [status]
    rfl
  · rw [status]
    rfl
  · rw [status]
    rfl
  · rw [machine]
  · rw [output, machine]
    rfl

theorem executes_of_answers {call : Call}
    (answers : call.before.Answers call.source call.status call.after)
    (sound : problemsOf call.source = []) : (∃ result, call.Executes result) ∧
      ∃ reports, call.before.Emits reports call.after := by
  obtain ⟨result, left, ends, status, emits, machine⟩ := ends_of_answers sound answers
  refine ⟨⟨result, ⟨left, ends, ?_, ?_⟩, emits.emitted, ?_, ?_, ?_⟩, _, emits⟩
  · rw [machine]
  · rw [machine]
  · rw [status]
    cases result <;> rfl
  · rw [status]
    cases result <;> rfl
  · rw [status]
    cases result <;> rfl

theorem fulfilled_of_answers {call : Call}
    (answers : call.before.Answers call.source call.status call.after) : call.Fulfilled := by
  obtain ⟨reports, emits⟩ : ∃ reports, call.before.Emits reports call.after := by
    by_cases sound : problemsOf call.source = []
    · exact (executes_of_answers answers sound).2
    · exact (rejects_of_answers answers sound).2
  have emitted := emits.emitted
  refine ⟨fun wrong => (rejects_of_answers answers wrong).1,
    fun sound => (executes_of_answers answers sound).1, ?_, ?_, ?_, emits.path, ?_⟩
  · rw [emitted]
    exact emits.reported
  · rw [emitted, emits.reporter]
    exact Reporter.count_emits _ reports
  · rw [emitted, emits.reporter]
    exact Reporter.reports_emits _ reports
  · exact fun other status after same again => answers.status_unique again same

/-- All calls of a session fulfil the contract, what the session has reported in the end are their
reports in order, and a further call is answered unless its program runs on for ever. -/
theorem history_fulfilled {first last : Session} {calls : List Call}
    (history : History first calls last) :
    (∀ call ∈ calls, call.Fulfilled) ∧
      last.reported = first.reported ++ calls.flatMap Call.emitted ∧
      last.reporter.count = first.reporter.count + (calls.flatMap Call.emitted).length ∧
      last.path = first.path ∧
      ∀ source, (∃ status after, last.Answers source status after) ↔
        problemsOf source ≠ [] ∨
          ∃ result left, last.machine.Ends (programOf source) result left := by
  induction history with
  | none session => exact ⟨by simp, by simp, rfl, rfl, session.exists_answers_iff⟩
  | @call first middle last source status calls short answers later ih =>
      have head : Call.Fulfilled ⟨first, source, status, middle⟩ := fulfilled_of_answers answers
      obtain ⟨tail, reported, count, path, further⟩ := ih
      refine ⟨List.forall_mem_cons.mpr ⟨head, tail⟩, ?_, ?_, path.trans head.path, further⟩
      · rw [reported, head.reported, List.flatMap_cons, List.append_assoc]
      · rw [count, head.count, List.flatMap_cons, List.length_append, Nat.add_assoc]

/-- A source with two problems, a program that fails and one that does not. -/
theorem history_fulfilled_three :
    ∃ calls last, History (.start .keeping .unfailing) calls last ∧
      calls.map Call.source = ["print @", "x;", "nil;"] ∧
      calls.map (fun call => call.status.exitCode) = [65, 70, 0] ∧
      (∀ call ∈ calls, call.Fulfilled) ∧
      last.reporter.count = 0 + (calls.flatMap Call.emitted).length := by
  obtain ⟨one, rejected, -, same⟩ := (start .keeping .unfailing).run_of_problems
    (show problemsOf "print @" ≠ [] by decide +kernel)
  obtain ⟨left, failed⟩ : ∃ left, Machine.interpret 0 (programOf "x;") one.machine =
      Execution.finished left
        (some ⟨.undefinedVariable "x", ⟨.identifier, "x", none, 1, ⟨0, 1⟩⟩⟩) := by
    rw [same]
    exact ⟨_, rfl⟩
  obtain ⟨two, faulted, -, empty⟩ := run_of_finished (by decide +kernel) failed
  obtain ⟨final, ended⟩ : ∃ final, Machine.interpret 0 (programOf "nil;") two.machine =
      Execution.finished final none := by
    rw [empty]
    exact ⟨_, rfl⟩
  obtain ⟨three, clean, -⟩ := run_of_finished (by decide +kernel) ended
  have history : History (start .keeping .unfailing)
      [⟨_, "print @", .rejected, one⟩, ⟨one, "x;", .faulted, two⟩, ⟨two, "nil;", .clean, three⟩]
      three :=
    .call (by decide) ⟨0, rejected 0⟩ (.call (by decide) ⟨0, faulted⟩
      (.call (by decide) ⟨0, clean⟩ (.none three)))
  have fulfilled := history_fulfilled history
  exact ⟨_, three, history, rfl, rfl, fulfilled.1, fulfilled.2.2.1⟩

end Session

end TreeWalk
