import TreeWalk.Proofs.Sessions.Calls
import TreeWalk.Proofs.Sessions.Decoding
import TreeWalk.Proofs.Stateful

/-!
# Files on a session

Running a file once more, step by step: the file is opened, its characters are read one by one, the
session takes the path, and the text is run.  Each step hands the session on to the next one, and a
step that fails leaves behind the session that it was given.
-/

set_option autoImplicit false

namespace TreeWalk.Session

open Diagnostic (Report)
open Stateful (Keeps bind_eq_error bind_of_error bind_of_ok left_of_error)
open Text.Utf8 (Flaw Flawed encode)

/-! ## The steps -/

/-- Why there is no status. -/
inductive Stop where
  | unreadable (report : Report)
  | endless

abbrev Action (α : Type) := EStateM Stop Session α

/-- What a reader gives of a file that could be opened. -/
abbrev Stream := List (Except IoFailure Char)

def received {α : Type} (path : String) : Except IoFailure α → Action α
  | .ok value => pure value
  | .error failure => throw (.unreadable (.unreadable path failure))

/-- Adds the characters to a text one by one, until the reader gives no more or fails. -/
def readOn (path : String) (text : String) : Stream → Action String
  | [] => pure text
  | next :: later => do
    let char ← received path next
    readOn path (text.push char) later

def readFile (path : String) (file : Except IoFailure Stream) : Action String := do
  let stream ← received path file
  readOn path "" stream

def takePath (path : String) : Action Unit := modify fun session => { session with path := path }

def runText (budget : Nat) (source : String) : Action Status := fun session =>
  match session.run budget source with
  | some (status, after) => .ok status after
  | none => .error .endless session

def runUnder (budget : Nat) (path source : String) : Action Status := do
  takePath path
  runText budget source

def runOpened (budget : Nat) (path : String) (file : Except IoFailure Stream) : Action Status := do
  let source ← readFile path file
  runUnder budget path source

/-! ## Reading -/

/-- The bytes of a file beside what a reader gives of them: their characters in order, and a failure
where no character is encoded.  Nothing is said of what it gives behind a failure. -/
inductive Opens : Except IoFailure (List UInt8) → Except IoFailure Stream → Prop where
  | refused (failure : IoFailure) : Opens (.error failure) (.error failure)
  | whole (text : String) : Opens (.ok (encode text)) (.ok (text.toList.map .ok))
  | broken (text : String) {rest : List UInt8} {flaw : Flaw} (flawed : Flawed rest flaw)
      (behind : Stream) :
      Opens (.ok (encode text ++ rest))
        (.ok (text.toList.map .ok ++ .error (failureOf flaw) :: behind))

theorem exists_opens (contents : Except IoFailure (List UInt8)) : ∃ file, Opens contents file := by
  cases contents with
  | error failure => exact ⟨_, .refused failure⟩
  | ok bytes =>
      obtain ⟨text, rfl⟩ | ⟨text, rest, flaw, rfl, flawed⟩ := Text.Utf8.encodes_or_flawed bytes
      · exact ⟨_, .whole text⟩
      · exact ⟨_, .broken text flawed []⟩

theorem textOf_encode (text : String) : textOf (.ok (encode text)) = .ok text := by
  show (Text.Utf8.decode (encode text)).mapError failureOf = .ok text
  rw [Text.Utf8.decode_encode]
  rfl

theorem textOf_flawed {rest : List UInt8} {flaw : Flaw} (flawed : Flawed rest flaw)
    (text : String) : textOf (.ok (encode text ++ rest)) = .error (failureOf flaw) := by
  show (Text.Utf8.decode (encode text ++ rest)).mapError failureOf = .error (failureOf flaw)
  rw [Text.Utf8.decode_of_flawed flawed]
  rfl

section Reading

variable (path : String)

theorem keeps_received {α : Type} (given : Except IoFailure α) :
    Keeps (· = ·) (received path given) := by
  intro session
  cases given <;> rfl

theorem keeps_readOn (text : String) (stream : Stream) :
    Keeps (· = ·) (readOn path text stream) := by
  induction stream generalizing text with
  | nil => exact Keeps.pure text
  | cons next later ih => exact (keeps_received path next).bind fun char => ih (text.push char)

theorem keeps_readFile (file : Except IoFailure Stream) : Keeps (· = ·) (readFile path file) :=
  (keeps_received path file).bind fun stream => keeps_readOn path "" stream

theorem readOn_chars (text : String) (chars : List Char) (behind : Stream) :
    readOn path text (chars.map .ok ++ behind) =
      readOn path (text ++ String.ofList chars) behind := by
  induction chars generalizing text with
  | nil => simp
  | cons char chars ih =>
      have step : readOn path text ((char :: chars).map .ok ++ behind) =
          readOn path (text.push char) (chars.map .ok ++ behind) := rfl
      rw [step, ih]
      congr 1
      simp [String.ext_iff]

theorem readFile_chars (text : String) (behind : Stream) :
    readFile path (.ok (text.toList.map .ok ++ behind)) = readOn path text behind := by
  have chars := readOn_chars path "" text.toList behind
  rwa [String.ofList_toList, String.empty_append] at chars

/-- The text of a file is read, or the first failure is told, and none of the characters in front
of it is left. -/
theorem readFile_eq {contents : Except IoFailure (List UInt8)} {file : Except IoFailure Stream}
    (opens : Opens contents file) (session : Session) :
    readFile path file session =
      match textOf contents with
      | .ok text => .ok text session
      | .error failure => .error (.unreadable (.unreadable path failure)) session := by
  cases opens with
  | refused failure => rfl
  | whole text =>
      have chars := readFile_chars path text []
      rw [List.append_nil] at chars
      rw [chars, textOf_encode]
      rfl
  | broken text flawed behind =>
      rw [readFile_chars, textOf_flawed flawed]
      rfl

end Reading

/-! ## Running what was read -/

section Run

variable {budget : Nat} {session after : Session} {path : String} {file : Except IoFailure Stream}

theorem runUnder_eq (source : String) :
    runUnder budget path source session = runText budget source { session with path := path } := by
  have taken : takePath path session = .ok () { session with path := path } := rfl
  rw [runUnder, bind_of_ok _ taken]

/-- A report in place of a status leaves the session as it was, whatever the reader gives. -/
theorem runOpened_stays {report : Report}
    (failed : runOpened budget path file session = .error (.unreadable report) after) :
    after = session := by
  rcases bind_eq_error.mp failed with unread | ⟨source, middle, -, run⟩
  · have stays := keeps_readFile path file session
    rw [left_of_error unread] at stays
    exact stays.symm
  · -- a program that runs has a status or no end
    rw [runUnder_eq, runText] at run
    split at run <;> cases run

variable (budget session path)

theorem runOpened_eq {contents : Except IoFailure (List UInt8)} (opens : Opens contents file) :
    runOpened budget path file session =
      match session.runFile budget path contents with
      | .error report => .error (.unreadable report) session
      | .ok none => .error .endless { session with path := path }
      | .ok (some (status, after)) => .ok status after := by
  have read := readFile_eq path opens session
  unfold runFile
  cases text : textOf contents with
  | error failure =>
      rw [text] at read
      rw [runOpened, bind_of_error _ read]
  | ok source =>
      rw [text] at read
      rw [runOpened, bind_of_ok _ read, runUnder_eq, runText]
      split <;> simp_all

end Run

end TreeWalk.Session
