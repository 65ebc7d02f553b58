import TreeWalk.Text.Ranges

/-!
The characters of the White_Space class.
-/
set_option autoImplicit false

namespace TreeWalk.Text

def whiteSpace : Ranges where
  pairs := [
    (0x9, 0xD), (0x20, 0x20), (0x85, 0x85), (0xA0, 0xA0), (0x1680, 0x1680), (0x2000, 0x200A),
    (0x2028, 0x2029), (0x202F, 0x202F), (0x205F, 0x205F), (0x3000, 0x3000) ]

def isWhiteSpace (char : Char) : Bool := whiteSpace.contains char

end TreeWalk.Text
