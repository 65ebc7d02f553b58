import TreeWalk.Diagnostic.SourceLine
import TreeWalk.Diagnostic.Styled
import TreeWalk.Span

/-!
A source with one span marked. A span within a line is underlined; one that covers several
lines is bracketed at the left, and of its inner lines only those near an end are shown.
-/
set_option autoImplicit false

namespace TreeWalk.Diagnostic

structure Snippet where
  path : String
  source : String
  span : Span
  label : String
  deriving DecidableEq, Repr

/-- The part that a line has in a bracket; offsets count from the start of the line. -/
inductive Bracket where
  | opens (offset : Nat)
  | passes
  | closes (offset : Nat)
  deriving DecidableEq, Repr

/-- How many inner lines are shown below the first line of a bracket. -/
def contextAfterStart : Nat := 3

def contextBeforeEnd : Nat := 1

def gutter (width : Nat) : Styled := [.text (String.ofList (List.replicate (width + 1) ' '))]

def numberGutter (width line : Nat) : Styled :=
  let number := toString line
  let blanks := String.ofList (List.replicate (width - number.length) ' ')
  Styled.within .border (blanks ++ number) ++ [.text " "]

def border : Styled := Styled.within .border "│"

def stroke (shape : String) : Styled := .text " " :: Styled.within .mark shape

def noStroke : Styled := [.text "  "]

/-- Whether the bracket can open in front of the line because nothing but white space comes
before its start. -/
def opensInFront (shown : List Char) (offset : Nat) : Bool := offset ≤ indentation shown

def sourceStroke (shown : List Char) : Bracket → Styled
  | .opens offset => if opensInFront shown offset then stroke "╭" else noStroke
  | .passes | .closes _ => stroke "│"

def gapStroke : Bracket → Styled
  | .opens _ => noStroke
  | .passes | .closes _ => stroke "│"

def Bracket.covers : Bracket → Glyph → Bool
  | .opens offset, glyph => offset ≤ glyph.offset
  | .passes, _ => true
  | .closes offset, glyph => glyph.stop ≤ offset

def sourceRow (width number : Nat) (strokes : Styled) (covered : Glyph → Bool)
    (shown : List Char) : Styled :=
  let parts := (glyphs shown).map fun glyph => (covered glyph, glyph.text)
  numberGutter width number ++ border ++ strokes ++ [.text " "]
    ++ Styled.marking .mark false parts ++ Styled.lineBreak

def besideMark (label : String) : Styled :=
  if label.isEmpty then [] else .text " " :: Styled.within .mark label

/-- The row of carets below a line: one place more than the line has characters, so that its
end can be marked too. -/
def caretRow (width start stop : Nat) (label : String) (shown : List Char) : Styled :=
  let behind : Glyph := ⟨byteSize shown, '\x00', 1⟩
  let parts := (glyphs shown ++ [behind]).map fun glyph =>
    if glyph.overlaps start stop then (true, glyph.fill '^')
    else (false, if glyph.offset < stop then glyph.fill ' ' else "")
  gutter width ++ border ++ [.text " "] ++ Styled.marking .mark false parts
    ++ besideMark label ++ Styled.lineBreak

def leadRow (width : Nat) (corner : String) (limit : Nat) (label : String)
    (shown : List Char) : Styled :=
  let lead := (glyphs shown).takeWhile fun glyph => glyph.offset < limit
  let ending := if label.isEmpty then "^" else "^ " ++ label
  gutter width ++ border ++ stroke corner
    ++ Styled.within .mark (String.join (lead.map (·.fill '─')) ++ ending) ++ Styled.lineBreak

def bracketRow (width : Nat) (label : String) (shown : List Char) : Bracket → Styled
  | .opens offset =>
    if opensInFront shown offset then [] else leadRow width "╭" (offset + 1) "" shown
  | .passes => []
  | .closes offset => leadRow width "╰" offset label shown

def gapRow (width : Nat) (bracket : Bracket) : Styled :=
  gutter width ++ Styled.within .border "·" ++ gapStroke bracket ++ Styled.lineBreak

structure Bracketed where
  place : Nat
  bracket : Bracket
  deriving DecidableEq, Repr

def bracketedRows (lines : List SourceLine) (width : Nat) (label : String)
    (item : Bracketed) : Styled :=
  let shown := (lines[item.place]?.map SourceLine.shown).getD []
  sourceRow width (item.place + 1) (sourceStroke shown item.bracket) item.bracket.covers shown
    ++ bracketRow width label shown item.bracket

def plainRow (lines : List SourceLine) (width place : Nat) : Styled :=
  let shown := (lines[place]?.map SourceLine.shown).getD []
  sourceRow width (place + 1) noStroke (fun _ => false) shown

/-- What comes between two shown lines: nothing, the one line between them, or a gap. -/
def between (lines : List SourceLine) (width : Nat) (label : String)
    (touched : List Bracketed) (above below : Bracketed) : Styled :=
  if below.place = above.place + 1 then []
  else if below.place = above.place + 2 then
    match touched.find? (·.place = above.place + 1) with
    | some item => bracketedRows lines width label item
    | none => plainRow lines width (above.place + 1)
  else gapRow width above.bracket

def joinRows (lines : List SourceLine) (width : Nat) (label : String)
    (touched : List Bracketed) : List Bracketed → Styled
  | [] => []
  | [last] => bracketedRows lines width label last
  | above :: below :: rest =>
    bracketedRows lines width label above ++ between lines width label touched above below
      ++ joinRows lines width label touched (below :: rest)

def touchedLines (first last startOffset stopOffset : Nat) : List Bracketed :=
  if first < last then
    ⟨first, .opens startOffset⟩ ::
      (List.range' (first + 1) (last - first - 1)).map (⟨·, .passes⟩) ++
        [⟨last, .closes stopOffset⟩]
  else [⟨last, .closes stopOffset⟩, ⟨first, .opens startOffset⟩]

def isShown (first last : Nat) (item : Bracketed) : Bool :=
  item.bracket ≠ .passes || item.place - first ≤ contextAfterStart ||
    last - item.place ≤ contextBeforeEnd

/-- The rows of a snippet: where it is from, an empty row, and the marked lines. A mark is at
least one byte wide. -/
def Snippet.rows (snippet : Snippet) : Styled :=
  let lines := sourceLines snippet.source
  let span := snippet.span.clamp snippet.source.utf8ByteSize
  let first := lineAt lines span.start
  let last := lineAt lines span.stop
  let startLine := lines[first]?.getD ⟨0, []⟩
  let stopLine := lines[last]?.getD ⟨0, []⟩
  let width := max (toString (first + 1)).length (toString (last + 1)).length
  let locus := snippet.path ++ ":" ++ toString (first + 1) ++ ":"
    ++ toString (startLine.column span.start)
  let startOffset := span.start - startLine.start
  let stopOffset := span.stop - stopLine.start
  let opening := gutter width ++ Styled.within .border "┌─" ++ [.text (" " ++ locus ++ "\n")]
  if first = last then
    let stop := max stopOffset (startOffset + 1)
    let shown := startLine.shown
    opening ++ gutter width ++ border ++ Styled.lineBreak
      ++ sourceRow width (first + 1) [] (·.overlaps startOffset stop) shown
      ++ caretRow width startOffset stop snippet.label shown
  else
    let touched := touchedLines first last startOffset stopOffset
    opening ++ gutter width ++ border ++ noStroke ++ Styled.lineBreak
      ++ joinRows lines width snippet.label touched (touched.filter (isShown first last))

def Snippet.render (title : String) (snippet : Snippet) : Styled :=
  [.turn .severity, .text "error", .turn .strong, .text (": " ++ title), .turn .plain]
    ++ Styled.lineBreak ++ snippet.rows ++ Styled.lineBreak

end TreeWalk.Diagnostic
