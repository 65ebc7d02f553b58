/-!
A double taken apart: its sign, and its magnitude as a whole number of units of a power of
two. `Cell` is the interval of real numbers that round to a finite magnitude, in quarters of
that unit so that both of its ends are whole.
-/
set_option autoImplicit false

namespace TreeWalk.Number

/-- The absolute value of a double; `finite m q` stands for `m * 2 ^ q`. -/
inductive Magnitude where
  | notANumber
  | infinite
  | finite (mantissa : Nat) (exponent : Int)
  deriving DecidableEq, Repr

structure Binary where
  negative : Bool
  magnitude : Magnitude
  deriving DecidableEq, Repr

def fractionBits : Nat := 52

def leadingUnit : Nat := Nat.pow 2 fractionBits

def fieldCount : Nat := 2048

def leastExponent : Int := -1074

def Magnitude.ofFields (field fraction : Nat) : Magnitude :=
  if field = 0 then .finite fraction leastExponent
  else if field + 1 = fieldCount then (if fraction = 0 then .infinite else .notANumber)
  else .finite (leadingUnit + fraction) (leastExponent + field - 1)

def Binary.ofFloat (value : Float) : Binary :=
  let bits := value.toBits.toNat
  let fields := bits / leadingUnit
  { negative := fields / fieldCount % 2 = 1
    magnitude := .ofFields (fields % fieldCount) (bits % leadingUnit) }

/-- The interval around a positive double, in quarters of its unit: `low ≤ middle ≤ high`,
and a quarter is `2 ^ exponent`. -/
structure Cell where
  low : Nat
  middle : Nat
  high : Nat
  closed : Bool
  exponent : Int
  deriving DecidableEq, Repr

/-- Half a unit on both sides, except below a power of two, where the neighbour is half as
far away. The ends round to an even mantissa. -/
def Cell.around (mantissa : Nat) (exponent : Int) : Cell :=
  let narrow : Bool := mantissa = leadingUnit ∧ leastExponent < exponent
  { low := 4 * mantissa - (if narrow then 1 else 2)
    middle := 4 * mantissa
    high := 4 * mantissa + 2
    closed := mantissa % 2 = 0
    exponent := exponent - 2 }

end TreeWalk.Number
