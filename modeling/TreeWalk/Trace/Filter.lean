import TreeWalk.Trace.Event

/-!
Which events are written, and their lines. A filter is a level, or the beginning of a target
with a level; nothing at all stands for errors only.
-/
set_option autoImplicit false

namespace TreeWalk.Trace

/-- Lets through what is at least as severe as `limit` and comes from a target that begins
with `within`; without a limit, nothing. -/
structure Filter where
  within : String
  limit : Option Level
  deriving DecidableEq, Repr

def levelOfWord? (word : String) : Option (Option Level) :=
  match word.toLower with
  | "off" => some none
  | "error" => some (some .error)
  | "warn" => some (some .warn)
  | "info" => some (some .info)
  | "debug" => some (some .debug)
  | "trace" => some (some .trace)
  | _ => none

/-- A target that is named without a level lets all of its events through. -/
def Filter.ofText (text : String) : Filter :=
  match text.splitOn "=" with
  | [word] =>
    if word.isEmpty then ⟨"", some .error⟩
    else
      match levelOfWord? word with
      | some limit => ⟨"", limit⟩
      | none => ⟨word, some .trace⟩
  | target :: level :: _ => ⟨target, (levelOfWord? level).getD none⟩
  | [] => ⟨"", none⟩

def Filter.admits (filter : Filter) (target : String) (level : Level) : Bool :=
  filter.within.toList.isPrefixOf target.toList &&
    filter.limit.any fun limit => level.rank ≤ limit.rank

structure Occurrence where
  event : Event
  running : Option String
  deriving DecidableEq, Repr

def Filter.spanText (filter : Filter) : Option String → String
  | none => ""
  | some path =>
    if filter.admits "lox_core::session" .info then "run\x7bpath=" ++ path ++ "\x7d: " else ""

def padLeft (width : Nat) (text : String) : String :=
  String.ofList (List.replicate (width - text.length) ' ') ++ text

def Filter.line? (filter : Filter) (stamp : String) (occurrence : Occurrence) : Option String :=
  let event := occurrence.event
  if filter.admits event.target event.level then
    some (stamp ++ " " ++ padLeft 5 event.level.name ++ " "
      ++ filter.spanText occurrence.running ++ event.target ++ ": " ++ event.text ++ "\n")
  else none

end TreeWalk.Trace
