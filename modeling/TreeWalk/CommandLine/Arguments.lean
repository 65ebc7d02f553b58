/-!
The arguments of the command line: switches, a command, and the path that one of them takes.
Each argument is first taken apart into its parts; the parts in front of the command and those
behind it are then read apart, for a switch counts for the side on which it stands.
-/
set_option autoImplicit false

namespace TreeWalk.CommandLine

inductive Command where
  | run (path : String)
  | repl
  | rlpl
  | rppl
  deriving DecidableEq, Repr

inductive Request where
  | version
  | perform (quiet : Bool) (command : Command)
  | misuse
  deriving DecidableEq, Repr

inductive Part where
  | quiet
  | version
  | unknownSwitch
  | separator
  | word (text : String)
  deriving DecidableEq, Repr

def Part.ofLetter : Char → Part
  | 'q' => .quiet
  | 'V' => .version
  | _ => .unknownSwitch

def Part.ofName (name : String) : Part :=
  if name = "quiet" then .quiet
  else if name = "version" then .version
  else .unknownSwitch

/-- Two dashes go before the name of one switch, one dash before the letters of several; one
dash by itself is a word. -/
def argumentParts (argument : String) : List Part :=
  match argument.toList with
  | ['-', '-'] => [.separator]
  | '-' :: '-' :: name => [.ofName (String.ofList name)]
  | '-' :: letter :: letters => (letter :: letters).map Part.ofLetter
  | _ => [.word argument]

def parts : List String → List Part
  | [] => []
  | argument :: rest =>
    if argumentParts argument = [.separator] then .separator :: rest.map .word
    else argumentParts argument ++ parts rest

/-- The words behind the command, and whether a quiet switch stands among them. There is room
for one; `quiet` tells that it is taken. -/
def operands (quiet : Bool) : List Part → Option (Bool × List String)
  | [] => some (quiet, [])
  | .quiet :: rest => if quiet then none else operands true rest
  | .separator :: rest => operands quiet rest
  | .word text :: rest => (operands quiet rest).map fun (given, words) => (given, text :: words)
  | .version :: _ | .unknownSwitch :: _ => none

def command? (name : String) (words : List String) : Option Command :=
  match name, words with
  | "run", [path] => if path.isEmpty then none else some (.run path)
  | "repl", [] => some .repl
  | "rlpl", [] => some .rlpl
  | "rppl", [] => some .rppl
  | _, _ => none

/-- Reads the parts up to the command, and the command with what is behind it. The version is
told as soon as it is asked for; the separator may not come before the command. -/
def requestOfParts (quiet : Bool) : List Part → Request
  | .quiet :: rest => if quiet then .misuse else requestOfParts true rest
  | .version :: _ => .version
  | .word name :: rest =>
    match operands false rest with
    | none => .misuse
    | some (given, words) =>
      match command? name words with
      | none => .misuse
      | some command => .perform (quiet || given) command
  | _ => .misuse

def request (arguments : List String) : Request := requestOfParts false (parts arguments)

def versionText : String := "loxc 0.1.0\n"

def usageError : Nat := 2

end TreeWalk.CommandLine
