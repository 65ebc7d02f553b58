import TreeWalk.CommandLine.Arguments
import TreeWalk.CommandLine.Prompt
import TreeWalk.CommandLine.Script

/-!
The program on the command line: reads arguments, files and lines, and writes what the
commands answer.
-/
set_option autoImplicit false

namespace TreeWalk.CommandLine

def put (outputs : List Output) : IO Unit := do
  let out ← IO.getStdout
  let err ← IO.getStderr
  for output in outputs do
    match output with
    | .answer text => out.putStr text
    | .aside text => err.putStr text
  out.flush

/-- A failure that names the path is one of following it; reading a directory names none. -/
def failureOf : IO.Error → IoFailure
  | .noFileOrDirectory .. => .notFound
  | .inappropriateType (some _) .. => .notADirectory
  | .inappropriateType none .. => .isADirectory
  | .invalidArgument (some _) .. => .invalidFileName
  | .permissionDenied .. => .permissionDenied
  | _ => .other

def contentsOf (path : String) : IO (Except IoFailure (List UInt8)) := do
  try
    let bytes ← IO.FS.readBinFile path
    pure (.ok bytes.toList)
  catch failure => pure (.error (failureOf failure))

def secondsText (milliseconds : Nat) : String :=
  let hundredths := (milliseconds + 5) / 10
  let fraction := toString (hundredths % 100)
  let padded := if fraction.length < 2 then "0" ++ fraction else fraction
  toString (hundredths / 100) ++ "." ++ padded ++ "s"

def runScript (console : Console) (quiet : Bool) (path : String) : IO UInt32 := do
  put (Script.announce console quiet path)
  let started ← IO.monoMsNow
  let contents ← contentsOf path
  match Script.perform console path contents with
  | none => pure (UInt32.ofNat Status.softwareError)
  | some (outputs, outcome) => do
    put outputs
    let stopped ← IO.monoMsNow
    put (Script.conclude console quiet (secondsText (stopped - started)) outcome)
    pure (UInt32.ofNat (Script.exitCode outcome))

/-- The bytes of the next line with its line break; none at the end of the input. -/
partial def readLine (input : IO.FS.Stream) (read : List UInt8) : IO (List UInt8) := do
  let next ← input.read 1
  match next.toList with
  | [] => pure read.reverse
  | byte :: _ =>
    if byte = lineBreakByte then pure (byte :: read).reverse else readLine input (byte :: read)

partial def converse (console : Console) (prompt : Prompt) : IO UInt32 := do
  put [.answer prompt.invitation]
  let line ← readLine (← IO.getStdin) []
  if line.isEmpty then
    put prompt.farewell
    pure 0
  else
    let (outputs, continuation) := prompt.answerLine console line
    put outputs
    match continuation with
    | .leave code => pure (UInt32.ofNat code)
    | .proceed next => converse console next

end TreeWalk.CommandLine

open TreeWalk.CommandLine in
def main (arguments : List String) : IO UInt32 := do
  let stamp := toString (← IO.monoMsNow) ++ "ms"
  let console := Console.ofSettings (← IO.getEnv "FORCE_COLOR") (← IO.getEnv "RUST_LOG") stamp
  match request arguments with
  | .version => do
    put [.answer versionText]
    pure 0
  | .misuse => pure (UInt32.ofNat usageError)
  | .perform quiet (.run path) => runScript console quiet path
  | .perform _ .repl => converse console (.running Prompt.freshSession)
  | .perform _ .rlpl => converse console .tokens
  | .perform _ .rppl => converse console .trees
