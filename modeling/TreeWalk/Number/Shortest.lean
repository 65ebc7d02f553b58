import TreeWalk.Number.Binary

/-!
The fewest decimal digits that read back as a given double. Candidates lie on decimal grids
of one digit, two digits, and so on; the first grid with a point inside the double's cell
gives the digits, and of two points inside the nearer one is taken.
-/
set_option autoImplicit false

namespace TreeWalk.Number

structure Decimal where
  digits : Nat
  exponent : Int
  deriving DecidableEq, Repr

def digitCount (number : Nat) : Nat := (Nat.toDigits 10 number).length

def leadingPlace (numerator denominator : Nat) : Int :=
  if denominator ≤ numerator then digitCount (numerator / denominator) - 1
  else -(digitCount ((denominator - 1) / numerator) : Int)

/-- A cell and a decimal grid on one scale: `quarter` is a quarter of the binary unit and
`step` the distance of two grid points. -/
structure Scale where
  quarter : Nat
  step : Nat
  deriving DecidableEq, Repr

def Cell.scale (cell : Cell) (place : Int) : Scale :=
  { quarter := Nat.pow 2 cell.exponent.toNat * Nat.pow 10 (-place).toNat
    step := Nat.pow 2 (-cell.exponent).toNat * Nat.pow 10 place.toNat }

def Cell.holds (cell : Cell) (place : Int) (point : Nat) : Bool :=
  let scale := cell.scale place
  let position := point * scale.step
  let low := cell.low * scale.quarter
  let high := cell.high * scale.quarter
  if cell.closed then low ≤ position && position ≤ high
  else low < position && position < high

/-- The best grid point inside the cell; a point half way between two is passed upward. -/
def Cell.nearest? (cell : Cell) (place : Int) : Option Nat :=
  let scale := cell.scale place
  let middle := cell.middle * scale.quarter
  let below := middle / scale.step
  let above := below + 1
  let lowerIsNearer : Bool := middle - below * scale.step < above * scale.step - middle
  if cell.holds place below && (lowerIsNearer || !cell.holds place above) then some below
  else if cell.holds place above then some above
  else none

/-- No double needs more than this many digits. -/
def mostDigits : Nat := 17

def exactDecimal (mantissa : Nat) (exponent : Int) : Decimal :=
  { digits := mantissa * Nat.pow 2 exponent.toNat * Nat.pow 5 (-exponent).toNat
    exponent := if exponent < 0 then exponent else 0 }

def shortest (mantissa : Nat) (exponent : Int) : Decimal :=
  let cell := Cell.around mantissa exponent
  let unit := cell.scale 0
  let top := leadingPlace (cell.middle * unit.quarter) unit.step
  let attempt (extra : Nat) : Option Decimal :=
    let place := top - extra
    (cell.nearest? place).map fun point => { digits := point, exponent := place }
  ((List.range mostDigits).findSome? attempt).getD (exactDecimal mantissa exponent)

end TreeWalk.Number
