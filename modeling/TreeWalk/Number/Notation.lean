import TreeWalk.Number.Shortest

/-!
The text of a number: the shortest digits that read back, laid out by a `Layout`. The
language has one layout; a value is shown without the fraction of a whole number, a token
with it.
-/
set_option autoImplicit false

namespace TreeWalk.Number

structure Layout where
  firstPlain : Int
  firstScaled : Int
  wholeMark : String
  exponentMark : String
  minusSign : String
  infinity : String
  notANumber : String
  deriving DecidableEq, Repr

/-- Numbers from one ten-thousandth up to ten million billion are written plainly and always
with a fraction; others get an exponent and a fraction only if they have one. -/
def languageLayout : Layout :=
  { firstPlain := -4
    firstScaled := 16
    wholeMark := ".0"
    exponentMark := "e"
    minusSign := "-"
    infinity := "inf"
    notANumber := "NaN" }

/-- The digits without the zeros at their end, which are counted. -/
def trimZeros : List Char → List Char × Nat
  | digits =>
    let kept := (digits.reverse.dropWhile (· = '0')).reverse
    (kept, digits.length - kept.length)

def zeros (count : Nat) : String := String.ofList (List.replicate count '0')

def Layout.plain (layout : Layout) (digits : List Char) (whole : Int) : String :=
  if whole ≤ 0 then
    "0." ++ zeros (-whole).toNat ++ String.ofList digits
  else if digits.length ≤ whole.toNat then
    String.ofList digits ++ zeros (whole.toNat - digits.length) ++ layout.wholeMark
  else
    String.ofList (digits.take whole.toNat) ++ "." ++ String.ofList (digits.drop whole.toNat)

def Layout.scaled (layout : Layout) (digits : List Char) (power : Int) : String :=
  let fraction := if digits.length ≤ 1 then "" else "." ++ String.ofList (digits.drop 1)
  String.ofList (digits.take 1) ++ fraction ++ layout.exponentMark ++ toString power

def Layout.decimal (layout : Layout) (number : Decimal) : String :=
  let (digits, dropped) := trimZeros (Nat.toDigits 10 number.digits)
  let power : Int := number.exponent + dropped + digits.length - 1
  if layout.firstPlain ≤ power ∧ power < layout.firstScaled then
    layout.plain digits (power + 1)
  else
    layout.scaled digits power

def Layout.magnitude (layout : Layout) : Magnitude → String
  | .notANumber => layout.notANumber
  | .infinite => layout.infinity
  | .finite mantissa exponent =>
    if mantissa = 0 then "0" ++ layout.wholeMark
    else layout.decimal (shortest mantissa exponent)

def Layout.text (layout : Layout) (value : Float) : String :=
  let number := Binary.ofFloat value
  if number.negative ∧ number.magnitude ≠ .notANumber then
    layout.minusSign ++ layout.magnitude number.magnitude
  else
    layout.magnitude number.magnitude

/-- The text of a number with the fraction of a whole number kept: `3.0`. -/
def exactText (value : Float) : String := languageLayout.text value

def shownText (value : Float) : String :=
  let text := exactText value
  let mark := languageLayout.wholeMark
  if text.endsWith mark then (text.dropEnd mark.length).toString else text

end TreeWalk.Number
