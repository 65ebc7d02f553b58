import TreeWalk.Text.Printable

/-!
Quoted text: a mark on both ends, and inside it the mark, the backslash, four controls and
every unprintable character written as an escape. Strings and characters differ only in
their mark.
-/
set_option autoImplicit false

namespace TreeWalk.Text

/-- An escape by number, in small hexadecimal digits without leading zeros. -/
def numberedEscape (char : Char) : List Char :=
  "\\u\x7b".toList ++ Nat.toDigits 16 char.toNat ++ "\x7d".toList

def escape (mark : Char) (char : Char) : List Char :=
  if char = mark ∨ char = '\\' then ['\\', char]
  else if char = '\t' then "\\t".toList
  else if char = '\r' then "\\r".toList
  else if char = '\n' then "\\n".toList
  else if char = '\x00' then "\\0".toList
  else if isPrintable char then [char]
  else numberedEscape char

def quoted (mark : Char) (text : List Char) : List Char :=
  mark :: text.flatMap (escape mark) ++ [mark]

def quoteString (text : String) : String := String.ofList (quoted '"' text.toList)

def quoteChar (char : Char) : String := String.ofList (quoted '\'' [char])

end TreeWalk.Text
