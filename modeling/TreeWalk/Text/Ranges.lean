/-!
Sets of characters given as ranges of code points, the form in which the character classes of
a standard are written down.
-/
set_option autoImplicit false

namespace TreeWalk.Text

/-- Ranges of code points; both ends of a range belong to it. -/
structure Ranges where
  pairs : List (Nat × Nat)

def Ranges.contains (ranges : Ranges) (char : Char) : Bool :=
  ranges.pairs.any fun (first, last) => first ≤ char.toNat && char.toNat ≤ last

end TreeWalk.Text
