/-!
Text with changes of style in it. Without colours the changes are left out; with colours each
one starts over from the plain style.
-/
set_option autoImplicit false

namespace TreeWalk.Diagnostic

inductive Colour where
  | red
  | blue
  | brightRed
  | brightGreen
  deriving DecidableEq, Repr

structure Style where
  bold : Bool
  colour : Option Colour
  deriving DecidableEq, Repr

namespace Style

def plain : Style := ⟨false, none⟩

def strong : Style := ⟨true, none⟩

def severity : Style := ⟨true, some .brightRed⟩

def bareSeverity : Style := ⟨true, some .red⟩

def border : Style := ⟨false, some .blue⟩

def mark : Style := ⟨false, some .red⟩

def success : Style := ⟨true, some .brightGreen⟩

end Style

def Colour.code : Colour → String
  | red => "\x1b[31m"
  | blue => "\x1b[34m"
  | brightRed => "\x1b[38;5;9m"
  | brightGreen => "\x1b[38;5;10m"

def Style.code (style : Style) : String :=
  "\x1b[0m" ++ (if style.bold then "\x1b[1m" else "") ++ (style.colour.map Colour.code).getD ""

inductive Piece where
  | text (content : String)
  | turn (style : Style)
  deriving DecidableEq, Repr

def Piece.render (colours : Bool) : Piece → String
  | text content => content
  | turn style => if colours then style.code else ""

abbrev Styled := List Piece

namespace Styled

/-- Text in a style, which ends with it. -/
def within (style : Style) (content : String) : Styled :=
  [.turn style, .text content, .turn .plain]

def lineBreak : Styled := [.text "\n"]

/-- Parts of a row, some of them marked; the style turns where the marking does. -/
def marking (style : Style) (under : Bool) : List (Bool × String) → Styled
  | [] => if under then [.turn .plain] else []
  | (marked, content) :: rest =>
    let turned : Styled :=
      if marked = under then [] else if marked then [.turn style] else [.turn .plain]
    turned ++ .text content :: marking style marked rest

def render (colours : Bool) (styled : Styled) : String :=
  String.join (styled.map (Piece.render colours))

end Styled

end TreeWalk.Diagnostic
