import TreeWalk.Number.Numeral
import TreeWalk.Text.Quoted
import TreeWalk.Token.Basic
import TreeWalk.Token.LexicalError

/-!
From characters to tokens. A scanner holds the characters still to be read, each with the
byte offset it was given. Blank space and comments are passed over; then the text at the
front has a `Shape`, which is either a lexeme of some kind and length or a mistake. A mistake
is reported in place of a token and scanning goes on behind it.
-/
set_option autoImplicit false

namespace TreeWalk

/-- A character of the source and the offset of its first byte. -/
structure SourceChar where
  offset : Nat
  char : Char
  deriving DecidableEq, Repr

def SourceChar.stop (source : SourceChar) : Nat := source.offset + source.char.utf8Size

def SourceChar.place (offset : Nat) : List Char → List SourceChar
  | [] => []
  | char :: rest => ⟨offset, char⟩ :: place (offset + char.utf8Size) rest

structure Scanner where
  rest : List SourceChar
  stop : Nat
  line : Nat
  /-- Whether the end of the text has been handed out as a token. -/
  finished : Bool
  deriving DecidableEq, Repr

namespace Scanner

def ofStream (stream : List SourceChar) : Scanner :=
  { rest := stream, stop := 0, line := 1, finished := false }

def ofSource (source : String) : Scanner := ofStream (SourceChar.place 0 source.toList)

def position (scanner : Scanner) : Nat :=
  match scanner.rest with
  | [] => scanner.stop
  | source :: _ => source.offset

def nextPosition (scanner : Scanner) : Nat :=
  match scanner.rest with
  | [] => scanner.stop
  | [source] => source.stop
  | _ :: source :: _ => source.offset

def showChar? : Option Char → String
  | none => "None"
  | some char => "Some(" ++ Text.quoteChar char ++ ")"

/-- The state as text: two offsets, the line, and the next two characters. -/
def display (scanner : Scanner) : String :=
  let chars := scanner.rest.take 2 |>.map SourceChar.char
  "Lexer \x7b\n\tposition: " ++ toString scanner.position
    ++ ",\n\tnext_position: " ++ toString scanner.nextPosition
    ++ ",\n\tline: " ++ toString scanner.line
    ++ ",\n\tch: " ++ showChar? chars[0]? ++ ", next_ch: " ++ showChar? chars[1]? ++ "\n\x7d"

def lineBreaks (read : List SourceChar) : Nat := read.countP (·.char = '\n')

def advance (scanner : Scanner) (count : Nat) : Scanner :=
  let read := scanner.rest.take count
  { scanner with
    rest := scanner.rest.drop count
    stop := (read.getLast?.map SourceChar.stop).getD scanner.stop
    line := scanner.line + lineBreaks read }

@[simp] theorem rest_advance (scanner : Scanner) (count : Nat) :
    (scanner.advance count).rest = scanner.rest.drop count := rfl

def isBlank (char : Char) : Bool :=
  char = ' ' || char = '\r' || char = '\t' || char = '\n'

def isNameStart (char : Char) : Bool := char.isAlpha || char = '_'

def isNamePart (char : Char) : Bool := char.isAlphanum || char = '_'

def isDigitAt (source : SourceChar) : Bool := source.char.isDigit

/-- How many characters of blank space and comments stand at the front. A comment runs from
two slashes up to the end of its line. -/
def blankLength (inComment : Bool) : List SourceChar → Nat
  | [] => 0
  | source :: rest =>
    if inComment then 1 + blankLength (source.char ≠ '\n') rest
    else if isBlank source.char then 1 + blankLength false rest
    else if source.char = '/' && (rest.head?.map SourceChar.char) = some '/' then
      1 + blankLength true rest
    else 0

/-- What stands at the front of a text that starts with neither blank space nor a comment. -/
inductive Shape where
  | lexeme (kind : Kind) (length : Nat)
  | unterminated
  | unexpected (found : Char)
  deriving DecidableEq, Repr

/-- An operator that is longer by one character if an equals sign follows. -/
def withEqual (single double : Kind) (rest : List SourceChar) : Shape :=
  if (rest.head?.map SourceChar.char) = some '=' then .lexeme double 2 else .lexeme single 1

/-- The length of a number behind its first digit. A point belongs to it only if a digit
follows. -/
def numberTail (rest : List SourceChar) : Nat :=
  let whole := (rest.takeWhile isDigitAt).length
  match rest.drop whole with
  | point :: behind =>
    let fraction := (behind.takeWhile isDigitAt).length
    if point.char = '.' && 0 < fraction then whole + 1 + fraction else whole
  | [] => whole

def nameShape (first : Char) (rest : List SourceChar) : Shape :=
  let tail := rest.takeWhile (isNamePart ·.char)
  let word := String.ofList (first :: tail.map SourceChar.char)
  .lexeme ((Kind.ofWord? word).getD .identifier) (1 + tail.length)

/-- A string ends at the next quotation mark, on whichever line that is. -/
def stringShape (rest : List SourceChar) : Shape :=
  match rest.dropWhile (·.char ≠ '"') with
  | [] => .unterminated
  | _ :: _ => .lexeme .string ((rest.takeWhile (·.char ≠ '"')).length + 2)

def simpleKind? : Char → Option Kind
  | '(' => some .leftParen
  | ')' => some .rightParen
  | '{' => some .leftBrace
  | '}' => some .rightBrace
  | ',' => some .comma
  | '.' => some .dot
  | '-' => some .minus
  | '+' => some .plus
  | ';' => some .semicolon
  | '*' => some .star
  | '/' => some .slash
  | _ => none

def shape (first : Char) (rest : List SourceChar) : Shape :=
  match simpleKind? first with
  | some kind => .lexeme kind 1
  | none =>
    if first = '!' then withEqual .bang .bangEqual rest
    else if first = '=' then withEqual .equal .equalEqual rest
    else if first = '<' then withEqual .less .lessEqual rest
    else if first = '>' then withEqual .greater .greaterEqual rest
    else if first = '"' then stringShape rest
    else if first.isDigit then .lexeme .number (1 + numberTail rest)
    else if isNameStart first then nameShape first rest
    else .unexpected first

def literal? (kind : Kind) (lexeme : List Char) : Option Literal :=
  match kind with
  | .number => some (.number ((Number.Numeral.read? (String.ofList lexeme)).getD 0))
  | .string => some (.text (String.ofList (lexeme.drop 1).dropLast))
  | _ => none

abbrev Item := Except LexicalError Token

def takeToken (scanner : Scanner) (kind : Kind) (length : Nat) : Token × Scanner :=
  let after := scanner.advance length
  let lexeme := (scanner.rest.take length).map SourceChar.char
  ({ kind := kind
     lexeme := String.ofList lexeme
     literal := literal? kind lexeme
     line := scanner.line
     span := ⟨scanner.position, after.position⟩ }, after)

/-- A string without end takes the rest of the text, and its mistake is told on the line
where the text ends; an unexpected character is told where it stands. -/
def takeShape (scanner : Scanner) : Shape → Item × Scanner
  | .lexeme kind length =>
    let (token, after) := scanner.takeToken kind length
    (.ok token, after)
  | .unterminated =>
    let after := scanner.advance scanner.rest.length
    (.error ⟨.unterminatedString, ⟨scanner.position, after.position⟩, after.line⟩, after)
  | .unexpected found =>
    let after := scanner.advance 1
    let span : Span := ⟨scanner.position, after.position⟩
    (.error ⟨.unexpectedCharacter found, span, scanner.line⟩, after)

def skipBlank (scanner : Scanner) : Scanner := scanner.advance (blankLength false scanner.rest)

def nextToken (scanner : Scanner) : Item × Scanner :=
  let start := scanner.skipBlank
  match start.rest with
  | [] => (.ok (Token.ending start.line start.position), start)
  | source :: rest => start.takeShape (shape source.char rest)

def isEnd : Item → Bool
  | .ok token => token.isEnd
  | .error _ => false

/-- As `nextToken`, but the end token is handed out only once. -/
def next? (scanner : Scanner) : Option Item × Scanner :=
  if scanner.finished then (none, scanner)
  else
    let (item, after) := scanner.nextToken
    (some item, { after with finished := isEnd item })

def items : Nat → Scanner → List Item
  | 0, _ => []
  | count + 1, scanner =>
    let (item, after) := scanner.nextToken
    if isEnd item then [item] else item :: items count after

/-- Every token and every mistake. Each but the last takes a character, so there are at most
one more than characters. -/
def all (scanner : Scanner) : List Item := scanner.items (scanner.rest.length + 1)

end Scanner

structure Scan where
  tokens : List Token
  errors : List LexicalError
  deriving DecidableEq

def Scan.ofItems (items : List Scanner.Item) : Scan :=
  { tokens := items.filterMap Except.toOption
    errors := items.filterMap fun
      | .ok _ => none
      | .error error => some error }

def Scan.ofStream (stream : List SourceChar) : Scan := .ofItems (Scanner.ofStream stream).all

def Scan.ofSource (source : String) : Scan := .ofItems (Scanner.ofSource source).all

end TreeWalk
