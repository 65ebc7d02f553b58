/-!
The ways in which reading or writing can fail, and their names.  Systems tell more of them apart
(that a device is full, for instance); all those without a name here are `other`.
-/
set_option autoImplicit false

namespace TreeWalk

inductive IoFailure where
  | notFound
  | permissionDenied
  | notADirectory
  | isADirectory
  | invalidFileName
  | connectionRefused
  | connectionReset
  | brokenPipe
  | alreadyExists
  | wouldBlock
  | invalidInput
  | invalidData
  | timedOut
  | writeZero
  | unexpectedEof
  | unsupported
  | other
  deriving DecidableEq, Repr

def IoFailure.message : IoFailure → String
  | notFound => "entity not found"
  | permissionDenied => "permission denied"
  | notADirectory => "not a directory"
  | isADirectory => "is a directory"
  | invalidFileName => "invalid filename"
  | connectionRefused => "connection refused"
  | connectionReset => "connection reset"
  | brokenPipe => "broken pipe"
  | alreadyExists => "entity already exists"
  | wouldBlock => "operation would block"
  | invalidInput => "invalid input parameter"
  | invalidData => "invalid data"
  | timedOut => "timed out"
  | writeZero => "write zero"
  | unexpectedEof => "unexpected end of file"
  | unsupported => "unsupported"
  | other => "other error"

end TreeWalk
