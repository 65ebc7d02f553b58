import TreeWalk.Text.Columns
import TreeWalk.Text.WhiteSpace

/-!
The lines of a source and the places of its bytes in them. A line ends behind its line break,
so a source that ends in one has an empty last line.
-/
set_option autoImplicit false

namespace TreeWalk.Diagnostic

structure SourceLine where
  start : Nat
  chars : List Char
  deriving DecidableEq, Repr

def byteSize (chars : List Char) : Nat := chars.foldl (fun size char => size + char.utf8Size) 0

/-- The lines of a text whose first line starts at `start` with `read`, in reverse. -/
def linesFrom (start : Nat) (read : List Char) : List Char → List SourceLine
  | [] => [⟨start, read.reverse⟩]
  | char :: rest =>
    let longer := char :: read
    if char = '\n' then ⟨start, longer.reverse⟩ :: linesFrom (start + byteSize longer) [] rest
    else linesFrom start longer rest

def sourceLines (source : String) : List SourceLine := linesFrom 0 [] source.toList

def lineAt (lines : List SourceLine) (offset : Nat) : Nat :=
  (lines.takeWhile (·.start ≤ offset)).length - 1

/-- How many of these characters end at or before an offset, the first starting at `start`. -/
def completedBefore (offset : Nat) (start : Nat) : List Char → Nat
  | [] => 0
  | char :: rest =>
    let stop := start + char.utf8Size
    if stop ≤ offset then 1 + completedBefore offset stop rest else 0

namespace SourceLine

def column (line : SourceLine) (offset : Nat) : Nat :=
  completedBefore offset line.start line.chars + 1

def isTrailing (char : Char) : Bool := char = '\n' || char = '\r' || char = '\x00'

/-- What is shown of the line: all but the line break and its companions at the end. -/
def shown (line : SourceLine) : List Char :=
  (line.chars.reverse.dropWhile isTrailing).reverse

end SourceLine

def indentation (chars : List Char) : Nat := byteSize (chars.takeWhile Text.isWhiteSpace)

structure Glyph where
  offset : Nat
  char : Char
  width : Nat
  deriving DecidableEq, Repr

def tabWidth : Nat := 4

/-- The characters of a row from an offset and a column on. A tab reaches to the next stop. -/
def glyphsFrom (offset column : Nat) : List Char → List Glyph
  | [] => []
  | char :: rest =>
    let width := if char = '\t' then tabWidth - column % tabWidth else Text.columns char
    ⟨offset, char, width⟩ :: glyphsFrom (offset + char.utf8Size) (column + width) rest

def glyphs (chars : List Char) : List Glyph := glyphsFrom 0 0 chars

namespace Glyph

def stop (glyph : Glyph) : Nat := glyph.offset + glyph.char.utf8Size

def fill (glyph : Glyph) (char : Char) : String :=
  String.ofList (List.replicate glyph.width char)

def text (glyph : Glyph) : String :=
  if glyph.char = '\t' then glyph.fill ' ' else glyph.char.toString

def overlaps (glyph : Glyph) (start stop : Nat) : Bool :=
  max glyph.offset start < min glyph.stop stop

end Glyph

end TreeWalk.Diagnostic
