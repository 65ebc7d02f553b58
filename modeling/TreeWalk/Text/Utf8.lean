/-!
Decoding UTF-8 one character at a time. The first character that cannot be read decides how
decoding fails: either the bytes end inside it, or they are not its encoding.
-/
set_option autoImplicit false

namespace TreeWalk.Text.Utf8

inductive Flaw where
  | truncated
  | malformed
  deriving DecidableEq, Repr

/-- A character whose first byte has been read: how many bytes are still owed, the bits
read so far, and the least code point that needs this many bytes. -/
structure Opened where
  owed : Nat
  bits : Nat
  least : Nat
  deriving DecidableEq, Repr

def opening? (byte : Nat) : Option Opened :=
  if byte < 0x80 then some { owed := 0, bits := byte, least := 0 }
  else if byte < 0xC0 then none
  else if byte < 0xE0 then some { owed := 1, bits := byte % 0x20, least := 0x80 }
  else if byte < 0xF0 then some { owed := 2, bits := byte % 0x10, least := 0x800 }
  else if byte < 0xF8 then some { owed := 3, bits := byte % 0x08, least := 0x10000 }
  else none

def isContinuation (byte : Nat) : Bool := 0x80 ≤ byte && byte < 0xC0

def Opened.continued (opened : Opened) (byte : Nat) : Opened :=
  { opened with owed := opened.owed - 1, bits := opened.bits * 64 + byte % 64 }

def Opened.char? (opened : Opened) : Option Char :=
  if valid : opened.bits.isValidChar then
    if opened.least ≤ opened.bits then some (Char.ofNatAux opened.bits valid) else none
  else none

/-- Decodes what follows the characters in `done`, which are kept in reverse. -/
def decodeAfter : List Char → Option Opened → List UInt8 → Except Flaw (List Char)
  | done, none, [] => .ok done.reverse
  | _, some _, [] => .error .truncated
  | done, none, byte :: rest =>
    match opening? byte.toNat with
    | none => .error .malformed
    | some opened =>
      if opened.owed = 0 then
        match opened.char? with
        | none => .error .malformed
        | some char => decodeAfter (char :: done) none rest
      else decodeAfter done (some opened) rest
  | done, some opened, byte :: rest =>
    if isContinuation byte.toNat then
      let longer := opened.continued byte.toNat
      if longer.owed = 0 then
        match longer.char? with
        | none => .error .malformed
        | some char => decodeAfter (char :: done) none rest
      else decodeAfter done (some longer) rest
    else .error .malformed

def decode (bytes : List UInt8) : Except Flaw String :=
  (decodeAfter [] none bytes).map String.ofList

end TreeWalk.Text.Utf8
