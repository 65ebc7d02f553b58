import TreeWalk.Proofs.Diagnosis.ReportedSpans
import TreeWalk.Proofs.Sessions.Files

/-!
# The path of a session

A session is asked to run texts and files in any order.  A file that is not readable as a text
leaves the session exactly as it is; one that is gives its path to the session and is run like its
text.  Between two such files all that is reported carries one path.
-/

set_option autoImplicit false

namespace TreeWalk

open Diagnostic (Problem Report)
open Text.Utf8 (Flaw Flawed encode)

def Diagnostic.Report.Under (path : String) (report : Report) : Prop :=
  ∃ source problem, report = .inSource path source problem

namespace Session

/-! ## Reports of several calls -/

theorem Emits.trans {first middle last : Session} {early late : List Report}
    (emits : first.Emits early middle) (emits' : middle.Emits late last) :
    first.Emits (early ++ late) last := by
  refine ⟨?_, ?_, emits'.path.trans emits.path⟩
  · rw [emits'.reported, emits.reported, List.append_assoc]
  · rw [emits'.reporter, emits.reporter, List.foldl_append]

/-- All that was reported since `before` carries its path. -/
def KeepsPath (before after : Session) : Prop :=
  ∃ reports, before.Emits reports after ∧ ∀ report ∈ reports, report.Under before.path

theorem KeepsPath.refl (session : Session) : session.KeepsPath session :=
  ⟨[], .refl session, List.forall_mem_nil _⟩

theorem KeepsPath.trans {first middle last : Session} (early : first.KeepsPath middle)
    (late : middle.KeepsPath last) : first.KeepsPath last := by
  obtain ⟨reports, emits, under⟩ := early
  obtain ⟨later, emits', under'⟩ := late
  rw [emits.path] at under'
  refine ⟨reports ++ later, emits.trans emits', ?_⟩
  exact List.forall_mem_append.mpr ⟨under, under'⟩

theorem keepsPath_of_answers {before after : Session} {text : String} {status : Status}
    (answers : before.Answers text status after) : before.KeepsPath after := by
  obtain ⟨problems, emits, -⟩ := emits_fits_of_answers answers
  refine ⟨_, emits, ?_⟩
  simp only [List.forall_mem_map]
  exact fun problem _ => ⟨text, problem, rfl⟩

/-! ## Texts and files -/

inductive Request where
  | text (source : String)
  | file (path : String) (contents : Except IoFailure (List UInt8))

/-- The session answers a request with a status, or gives a report back in its place. -/
inductive Responds (before : Session) : Request → Except Report Status → Session → Prop where
  | text {source : String} {status : Status} {after : Session}
      (answers : before.Answers source status after) :
      Responds before (.text source) (.ok status) after
  | file {budget : Nat} {path : String} {contents : Except IoFailure (List UInt8)}
      {file : Except IoFailure Stream} {status : Status} {after : Session}
      (opens : Opens contents file)
      (run : runOpened budget path file before = .ok status after) :
      Responds before (.file path contents) (.ok status) after
  | unreadable {budget : Nat} {path : String} {contents : Except IoFailure (List UInt8)}
      {file : Except IoFailure Stream} {report : Report} {after : Session}
      (opens : Opens contents file)
      (failed : runOpened budget path file before = .error (.unreadable report) after) :
      Responds before (.file path contents) (.error report) after

inductive Dialogue : Session → List Request → Session → Prop where
  | none (session : Session) : Dialogue session [] session
  | next {first middle last : Session} {request : Request} {reply : Except Report Status}
      {requests : List Request} (responds : first.Responds request reply middle)
      (later : Dialogue middle requests last) : Dialogue first (request :: requests) last

/-- No text is encoded: the file could not be opened, or its bytes are no UTF-8. -/
def Unreadable (contents : Except IoFailure (List UInt8)) : Prop :=
  ∀ text, contents ≠ .ok (encode text)

inductive Fails : Except IoFailure (List UInt8) → IoFailure → Prop where
  | unopened (failure : IoFailure) : Fails (.error failure) failure
  | flawed (text : String) {rest : List UInt8} {flaw : Flaw} (flawed : Flawed rest flaw) :
      Fails (.ok (encode text ++ rest)) (failureOf flaw)

theorem exists_fails {contents : Except IoFailure (List UInt8)} (unreadable : Unreadable contents) :
    ∃ failure, Fails contents failure := by
  cases contents with
  | error failure => exact ⟨failure, .unopened failure⟩
  | ok bytes =>
      obtain ⟨text, rfl⟩ | ⟨text, rest, flaw, rfl, flawed⟩ := Text.Utf8.encodes_or_flawed bytes
      · exact absurd rfl (unreadable text)
      · exact ⟨_, .flawed text flawed⟩

section File

variable {session after : Session} {path : String} {contents : Except IoFailure (List UInt8)}
variable {reply : Except Report Status}

theorem responds_file_iff :
    session.Responds (.file path contents) reply after ↔
      ∃ budget, match session.runFile budget path contents with
        | .error report => reply = .error report ∧ after = session
        | .ok answer => ∃ status, reply = .ok status ∧ answer = some (status, after) := by
  constructor
  · intro responds
    cases responds with
    | @file budget _ _ file status _ opens run =>
        refine ⟨budget, ?_⟩
        rw [runOpened_eq _ _ _ opens] at run
        split at run <;> simp_all
    | @unreadable budget _ _ file report _ opens failed =>
        refine ⟨budget, ?_⟩
        rw [runOpened_eq _ _ _ opens] at failed
        split at failed <;> simp_all
  · rintro ⟨budget, ran⟩
    obtain ⟨file, opens⟩ := exists_opens contents
    have steps := runOpened_eq budget session path opens
    cases result : session.runFile budget path contents with
    | error report =>
        rw [result] at ran steps
        obtain ⟨rfl, rfl⟩ := ran
        exact .unreadable opens steps
    | ok answer =>
        rw [result] at ran steps
        obtain ⟨status, rfl, rfl⟩ := ran
        exact .file opens steps

theorem Fails.runFile {failure : IoFailure} (fails : Fails contents failure) (budget : Nat) :
    session.runFile budget path contents = .error (.unreadable path failure) := by
  cases fails with
  | unopened => rfl
  | flawed text flawed => rw [Session.runFile, textOf_flawed flawed]

theorem Fails.responds_iff {failure : IoFailure} (fails : Fails contents failure) :
    session.Responds (.file path contents) reply after ↔
      reply = .error (.unreadable path failure) ∧ after = session := by
  rw [responds_file_iff]
  simp only [fails.runFile]
  exact ⟨fun ⟨_, ran⟩ => ran, fun ran => ⟨0, ran⟩⟩

theorem runFile_encode (budget : Nat) (text : String) :
    session.runFile budget path (.ok (encode text)) =
      .ok (({ session with path := path } : Session).run budget text) := by
  rw [runFile, textOf_encode]

theorem responds_encode_iff (text : String) :
    session.Responds (.file path (.ok (encode text))) reply after ↔
      ∃ status, reply = .ok status ∧
        ({ session with path := path } : Session).Answers text status after := by
  rw [responds_file_iff]
  simp only [runFile_encode]
  constructor
  · rintro ⟨budget, status, rfl, answer⟩
    exact ⟨status, rfl, budget, answer⟩
  · rintro ⟨status, rfl, budget, answer⟩
    exact ⟨budget, status, rfl, answer⟩

end File

/-! ## Later requests -/

def Request.Pathless : Request → Prop
  | .text _ => True
  | .file _ contents => Unreadable contents

theorem Responds.keepsPath {before after : Session} {request : Request}
    {reply : Except Report Status} (responds : before.Responds request reply after)
    (pathless : request.Pathless) : before.KeepsPath after := by
  cases request with
  | text source =>
      cases responds with
      | text answers => exact keepsPath_of_answers answers
  | file path contents =>
      obtain ⟨failure, fails⟩ := exists_fails pathless
      obtain ⟨-, rfl⟩ := fails.responds_iff.mp responds
      exact .refl after

/-- However many texts are run, and files that are not readable: all reports carry the path that
the session had. -/
theorem Dialogue.keepsPath {first last : Session} {requests : List Request}
    (dialogue : Dialogue first requests last)
    (pathless : ∀ request ∈ requests, request.Pathless) : first.KeepsPath last := by
  induction dialogue with
  | none session => exact .refl session
  | next responds later ih =>
      obtain ⟨head, tail⟩ := List.forall_mem_cons.mp pathless
      exact (responds.keepsPath head).trans (ih tail)

/-! ## All or nothing -/

/-- The file is refused: its failure is reported to the caller, and nothing else happens. -/
structure Refuses (session : Session) (path : String) (contents : Except IoFailure (List UInt8))
    (failure : IoFailure) : Prop where
  fails : Fails contents failure
  runFile : ∀ budget, session.runFile budget path contents = .error (.unreadable path failure)
  responds : ∀ reply after, session.Responds (.file path contents) reply after ↔
    reply = .error (.unreadable path failure) ∧ after = session
  later : ∀ reply after requests last, session.Responds (.file path contents) reply after →
    Dialogue after requests last → (∀ request ∈ requests, request.Pathless) →
      session.KeepsPath last

/-- The file is run like a text, on the session with the path of the file. -/
structure RunsAs (session : Session) (path : String) (contents : Except IoFailure (List UInt8))
    (text : String) : Prop where
  runFile : ∀ budget, session.runFile budget path contents =
    .ok (({ session with path := path } : Session).run budget text)
  responds : ∀ reply after, session.Responds (.file path contents) reply after ↔
    ∃ status, reply = .ok status ∧
      ({ session with path := path } : Session).Answers text status after
  later : ∀ reply after requests last, session.Responds (.file path contents) reply after →
    Dialogue after requests last → (∀ request ∈ requests, request.Pathless) →
      ({ session with path := path } : Session).KeepsPath last

theorem refuses_of_fails (session : Session) (path : String)
    {contents : Except IoFailure (List UInt8)} {failure : IoFailure}
    (fails : Fails contents failure) : session.Refuses path contents failure := by
  refine ⟨fails, fails.runFile, fun _ _ => fails.responds_iff, ?_⟩
  intro reply after requests last responds dialogue pathless
  obtain ⟨-, rfl⟩ := fails.responds_iff.mp responds
  exact dialogue.keepsPath pathless

theorem runsAs_encode (session : Session) (path text : String) :
    session.RunsAs path (.ok (encode text)) text := by
  refine ⟨fun budget => runFile_encode budget text, fun _ _ => responds_encode_iff text, ?_⟩
  intro reply after requests last responds dialogue pathless
  obtain ⟨status, -, answers⟩ := (responds_encode_iff text).mp responds
  exact (keepsPath_of_answers answers).trans (dialogue.keepsPath pathless)

/-- Running a file does nothing to a session but tell why the file is not readable, or it does what
running its text under its path does.  All later reports carry the path that is then in force. -/
theorem file_all_or_nothing (session : Session) (path : String)
    (contents : Except IoFailure (List UInt8)) :
    (Unreadable contents → ∃ failure, session.Refuses path contents failure) ∧
      (∀ text, contents = .ok (encode text) → session.RunsAs path contents text) ∧
      ∀ budget file report after,
        runOpened budget path file session = .error (.unreadable report) after →
          after = session := by
  refine ⟨?_, ?_, fun _ _ _ _ => runOpened_stays⟩
  · intro unreadable
    obtain ⟨failure, fails⟩ := exists_fails unreadable
    exact ⟨failure, session.refuses_of_fails path fails⟩
  · rintro text rfl
    exact session.runsAs_encode path text

/-- A file that reads a name without a value is run, then one that breaks off inside a character is
refused, then a text is run that fails: both faults carry the path of the first file. -/
theorem file_all_or_nothing_cutOff :
    Unreadable (.ok [0x78, 0x3B, 0xE2, 0x82]) ∧ encode "x;" = [0x78, 0x3B] ∧
      (start .keeping .unfailing).RunsAs "whole" (.ok [0x78, 0x3B]) "x;" ∧
      ∃ after last,
        (start .keeping .unfailing).Responds (.file "whole" (.ok [0x78, 0x3B])) (.ok .faulted)
          after ∧
        (∃ failure, after.Refuses "cut" (.ok [0x78, 0x3B, 0xE2, 0x82]) failure) ∧
        (∃ same, runOpened 0 "cut" (.ok [.ok 'x', .error .other]) after =
          .error (.unreadable (.unreadable "cut" .other)) same ∧ same = after) ∧
        Dialogue after [.file "cut" (.ok [0x78, 0x3B, 0xE2, 0x82]), .text "-nil;"] last ∧
        last.reported.length = 2 ∧ last.path = "whole" ∧
        ∀ report ∈ last.reported, report.Under "whole" := by
  have unreadable : Unreadable (.ok [0x78, 0x3B, 0xE2, 0x82]) := by
    intro text same
    have decoded := Text.Utf8.decode_encode text
    rw [← Except.ok.inj same] at decoded
    cases decoded
  have bytes : encode "x;" = [0x78, 0x3B] := by decide +kernel
  let first := start .keeping .unfailing
  let named : Session := { first with path := "whole" }
  obtain ⟨-, read, -⟩ := file_all_or_nothing first "whole" (.ok [0x78, 0x3B])
  have runs := read "x;" (by rw [bytes])
  obtain ⟨left, failed⟩ : ∃ left, Machine.interpret 0 (programOf "x;") named.machine =
      Execution.finished left
        (some ⟨.undefinedVariable "x", ⟨.identifier, "x", none, 1, ⟨0, 1⟩⟩⟩) :=
    ⟨_, rfl⟩
  obtain ⟨after, faulted, emits, empty⟩ := run_of_finished (by decide +kernel) failed
  have whole : first.Responds (.file "whole" (.ok [0x78, 0x3B])) (.ok .faulted) after :=
    (runs.responds _ _).mpr ⟨_, rfl, 0, faulted⟩
  obtain ⟨refused, -, stays⟩ := file_all_or_nothing after "cut" (.ok [0x78, 0x3B, 0xE2, 0x82])
  obtain ⟨failure, refuses⟩ := refused unreadable
  have cut := (refuses.responds _ _).mpr ⟨rfl, rfl⟩
  obtain ⟨final, ended⟩ : ∃ final, Machine.interpret 0 (programOf "-nil;") after.machine =
      Execution.finished final
        (some ⟨.operandMustBeNumber .nil, ⟨.minus, "-", none, 1, ⟨0, 1⟩⟩⟩) := by
    rw [empty]
    exact ⟨_, rfl⟩
  obtain ⟨last, again, emits', -⟩ := run_of_finished (by decide +kernel) ended
  have dialogue : Dialogue after
      [.file "cut" (.ok [0x78, 0x3B, 0xE2, 0x82]), .text "-nil;"] last :=
    .next cut (.next (.text ⟨0, again⟩) (.none last))
  obtain ⟨reports, all, under⟩ :=
    runs.later _ _ _ last whole dialogue (by simp [Request.Pathless, unreadable])
  refine ⟨unreadable, bytes, runs, after, last, whole, ⟨failure, refuses⟩, ?_, dialogue, ?_, ?_, ?_⟩
  · exact ⟨_, rfl, stays 0 (.ok [.ok 'x', .error .other]) _ _ rfl⟩
  · rw [emits'.reported, emits.reported]
    rfl
  · exact all.path
  · rw [all.reported]
    exact under

end Session

end TreeWalk
