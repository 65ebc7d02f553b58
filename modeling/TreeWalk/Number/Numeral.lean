/-!
Reading a number from its text: an optional sign, then digits with at most one point and an
optional power of ten, or one of the words for infinity and for a value that is no number.
The result is the double nearest to the decimal, however long the text is.
-/
set_option autoImplicit false

namespace TreeWalk.Number.Numeral

def digitValue (digit : Char) : Nat := digit.toNat - '0'.toNat

def accumulate (start : Nat) (digits : List Char) : Nat :=
  digits.foldl (fun total digit => total * 10 + digitValue digit) start

def splitSign : List Char → Bool × List Char
  | '-' :: rest => (true, rest)
  | '+' :: rest => (false, rest)
  | rest => (false, rest)

def power? (text : List Char) : Option Int :=
  let (negative, digits) := splitSign text
  if digits.isEmpty || !digits.all Char.isDigit then none
  else
    let size := accumulate 0 digits
    some (if negative then -(size : Int) else size)

/-- What follows the digits: nothing, or an exponent. -/
def exponent? : List Char → Option Int
  | [] => some 0
  | mark :: rest => if mark = 'e' || mark = 'E' then power? rest else none

def scaled (digits : Nat) (power : Int) : Float :=
  Float.ofScientific digits (power < 0) power.natAbs

/-- A decimal has a digit before or behind its point. -/
def decimal? (text : List Char) : Option Float :=
  let whole := text.takeWhile Char.isDigit
  let afterWhole := text.dropWhile Char.isDigit
  let (fraction, rest) := match afterWhole with
    | '.' :: behind => (behind.takeWhile Char.isDigit, behind.dropWhile Char.isDigit)
    | _ => ([], afterWhole)
  if whole.isEmpty && fraction.isEmpty then none
  else (exponent? rest).map fun power =>
    scaled (accumulate (accumulate 0 whole) fraction) (power - fraction.length)

def word? (text : List Char) : Option Float :=
  match String.ofList (text.map Char.toLower) with
  | "inf" | "infinity" => some (1.0 / 0.0)
  | "nan" => some (0.0 / 0.0)
  | _ => none

def read? (text : String) : Option Float :=
  let (negative, rest) := splitSign text.toList
  let size := (word? rest).or (decimal? rest)
  size.map fun value => if negative then -value else value

end TreeWalk.Number.Numeral
