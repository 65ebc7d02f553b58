import TreeWalk.Proofs.Scanning.Steps

/-!
# Items tile the text

The items of a run cover disjoint ranges of the characters, in order; what lies between the ranges
is blank space or comments.  Spans, lexemes and lines are those of the ranges.
-/

set_option autoImplicit false

namespace TreeWalk.Scanner

/-- The characters at the places from `first` up to but excluding `last`. -/
structure Range where
  first : Nat
  last : Nat

def Range.Has (range : Range) (place : Nat) : Prop := range.first ≤ place ∧ place < range.last

structure Tile where
  item : Item
  range : Range

section Stream

variable (stream : List SourceChar)

/-- The offset given for the character at a place; the end of the text lies behind its last
character. -/
def offsetAt (place : Nat) : Nat :=
  match stream[place]? with
  | some source => source.offset
  | none => (stream.getLast?.map SourceChar.stop).getD 0

def lineAt (place : Nat) : Nat := 1 + lineBreaks (stream.take place)

def charAt? (place : Nat) : Option Char := stream[place]?.map SourceChar.char

def textOf (range : Range) : String :=
  String.ofList ((stream.extract range.first range.last).map SourceChar.char)

def spanOf (range : Range) : Span := ⟨offsetAt stream range.first, offsetAt stream range.last⟩

/-- An item tells the truth about the characters of its range. -/
inductive Covers : Item → Range → Prop where
  | token {token : Token} {range : Range} (kind : token.kind ≠ .eof)
      (span : token.span = spanOf stream range) (lexeme : token.lexeme = textOf stream range)
      (line : token.line = lineAt stream range.first) : Covers (.ok token) range
  | mistake {error : LexicalError} {range : Range} (span : error.span = spanOf stream range) :
      Covers (.error error) range

/-- A comment runs from two slashes up to the end of its line or of the text. -/
structure IsComment (range : Range) : Prop where
  opens : charAt? stream range.first = some '/'
  again : charAt? stream (range.first + 1) = some '/'
  covers : range.first + 2 ≤ range.last ∧ range.last ≤ stream.length
  inside : ∀ place, range.Has place → charAt? stream place ≠ some '\n'
  ends : range.last = stream.length ∨ charAt? stream range.last = some '\n'

/-- The character at a place is blank, or belongs to a comment outside the tiles that does not
begin before `start`. -/
inductive Dropped (start : Nat) (tiles : List Tile) (place : Nat) : Prop where
  | blank {char : Char} (found : charAt? stream place = some char)
      (blank : char ∈ [' ', '\r', '\t', '\n'])
  | comment {comment : Range} (is : IsComment stream comment) (has : comment.Has place)
      (behind : start ≤ comment.first)
      (apart : ∀ tile ∈ tiles,
        tile.range.last ≤ comment.first ∨ comment.last ≤ tile.range.first)

/-- From `start` on, the tiles cover the characters in order, and only blank space and comments are
left out. -/
structure Tiling (start : Nat) (tiles : List Tile) : Prop where
  covers : ∀ tile ∈ tiles, Covers stream tile.item tile.range
  inside : ∀ tile ∈ tiles, start ≤ tile.range.first ∧ tile.range.first < tile.range.last ∧
    tile.range.last ≤ stream.length
  increasing : tiles.Pairwise fun earlier later => earlier.range.last ≤ later.range.first
  dropped : ∀ place, start ≤ place → place < stream.length →
    (∀ tile ∈ tiles, ¬ tile.range.Has place) → Dropped stream start tiles place

def endToken : Token :=
  Token.ending (lineAt stream stream.length) (offsetAt stream stream.length)

end Stream

variable {stream : List SourceChar}

/-! ## The start advanced by some characters -/

theorem position_advance (place : Nat) :
    ((ofStream stream).advance place).position = offsetAt stream place := by
  have rest : ((ofStream stream).advance place).rest = stream.drop place := rfl
  unfold offsetAt
  by_cases inside : place < stream.length
  · rw [List.drop_eq_getElem_cons inside] at rest
    rw [position_cons rest, List.getElem?_eq_getElem inside]
  · have outside : stream.length ≤ place := by omega
    rw [List.drop_of_length_le outside] at rest
    rw [position_nil rest, List.getElem?_eq_none outside]
    simp only [advance, ofStream, List.take_of_length_le outside]

theorem line_advance (place : Nat) :
    ((ofStream stream).advance place).line = lineAt stream place := rfl

theorem ahead_drop {place : Nat} {source : SourceChar} {rest : List SourceChar}
    (ahead : stream.drop place = source :: rest) :
    place < stream.length ∧ charAt? stream place = some source.char ∧
      stream.drop (place + 1) = rest ∧ rest.length + 1 = stream.length - place := by
  have length := congrArg List.length ahead
  rw [List.length_drop, List.length_cons] at length
  refine ⟨by omega, ?_, ?_, length.symm⟩
  · have first := congrArg List.head? ahead
    rw [List.head?_drop] at first
    simp [charAt?, first]
  · rw [← List.tail_drop, ahead]
    rfl

theorem textOf_eq (place count : Nat) :
    textOf stream ⟨place, place + count⟩ =
      String.ofList (((stream.drop place).take count).map SourceChar.char) := by
  unfold textOf
  rw [List.extract_eq_take_drop, Nat.add_sub_cancel_left]

theorem covers_takeShape {place : Nat} {source : SourceChar} {rest : List SourceChar}
    (ahead : stream.drop place = source :: rest) {shape : Shape}
    (sound : shape.Sound (rest.length + 1)) :
    Covers stream (((ofStream stream).advance place).takeShape shape).1
      ⟨place, place + shape.size (rest.length + 1)⟩ := by
  have span (count : Nat) :
      (⟨((ofStream stream).advance place).position,
        (((ofStream stream).advance place).advance count).position⟩ : Span) =
        spanOf stream ⟨place, place + count⟩ := by
    rw [advance_advance, position_advance, position_advance]
    rfl
  cases shape with
  | lexeme kind size => exact .token sound.1 (span size) (textOf_eq place size).symm rfl
  | unterminated =>
      have length : ((ofStream stream).advance place).rest.length = rest.length + 1 :=
        congrArg List.length ahead
      refine .mistake ?_
      rw [← span]
      exact congrArg (fun count : Nat => (⟨_, (Scanner.advance _ count).position⟩ : Span)) length
  | unexpected found => exact .mistake (span 1)

/-! ## The tiling of a run -/

theorem Dropped.earlier {start later : Nat} {tiles : List Tile} {place : Nat}
    (dropped : Dropped stream later tiles place) (before : start ≤ later) :
    Dropped stream start tiles place := by
  cases dropped with
  | blank found blank => exact .blank found blank
  | comment is has behind apart => exact .comment is has (by omega) apart

theorem Tiling.extend {start later : Nat} {tiles : List Tile} (tiling : Tiling stream later tiles)
    (before : start ≤ later)
    (front : ∀ place, start ≤ place → place < later → Dropped stream start tiles place) :
    Tiling stream start tiles := by
  refine ⟨tiling.covers, ?_, tiling.increasing, ?_⟩
  · intro tile member
    obtain ⟨behind, nonempty, within⟩ := tiling.inside tile member
    exact ⟨by omega, nonempty, within⟩
  · intro place behind inside outside
    by_cases early : place < later
    · exact front place behind early
    · exact (tiling.dropped place (by omega) inside outside).earlier before

theorem Tiling.cons {start : Nat} {tile : Tile} {tiles : List Tile}
    (tiling : Tiling stream tile.range.last tiles) (begins : tile.range.first = start)
    (nonempty : tile.range.first < tile.range.last) (within : tile.range.last ≤ stream.length)
    (covers : Covers stream tile.item tile.range) : Tiling stream start (tile :: tiles) := by
  refine ⟨?_, ?_, ?_, ?_⟩
  · intro other member
    rcases List.mem_cons.mp member with rfl | member
    · exact covers
    · exact tiling.covers other member
  · intro other member
    rcases List.mem_cons.mp member with rfl | member
    · exact ⟨by omega, nonempty, within⟩
    · obtain ⟨behind, rest⟩ := tiling.inside other member
      exact ⟨by omega, rest⟩
  · refine List.pairwise_cons.mpr ⟨fun other member => ?_, tiling.increasing⟩
    exact (tiling.inside other member).1
  · intro place behind inside outside
    have apart := outside tile List.mem_cons_self
    have late : tile.range.last ≤ place := by
      unfold Range.Has at apart
      omega
    have dropped := tiling.dropped place late inside fun other member =>
      outside other (List.mem_cons_of_mem _ member)
    cases dropped with
    | blank found blank => exact .blank found blank
    | comment is has behind apart =>
        refine .comment is has (by omega) fun other member => ?_
        rcases List.mem_cons.mp member with rfl | member
        · exact Or.inl behind
        · exact apart other member

theorem charAt?_drop {place : Nat} {chars : List SourceChar} (ahead : stream.drop place = chars)
    (index : Nat) : charAt? stream (place + index) = chars[index]?.map SourceChar.char := by
  unfold charAt?
  rw [← ahead, List.getElem?_drop]

theorem isComment_of_slashes {place : Nat} {first second : SourceChar} {rest : List SourceChar}
    (ahead : stream.drop place = first :: second :: rest) (opens : first.char = '/')
    (again : second.char = '/') :
    IsComment stream ⟨place, place + (2 + commentLength rest)⟩ := by
  have behind : stream.drop (place + 2) = rest := by
    rw [← List.drop_drop, ahead]
    rfl
  have length := congrArg List.length ahead
  rw [List.length_drop, List.length_cons, List.length_cons] at length
  have most := commentLength_le rest
  have last : place + (2 + commentLength rest) = place + 2 + commentLength rest := by omega
  have slash : charAt? stream place = some '/' :=
    (charAt?_drop ahead 0).trans (congrArg some opens)
  have other : charAt? stream (place + 1) = some '/' :=
    (charAt?_drop ahead 1).trans (congrArg some again)
  refine ⟨slash, other, ⟨by dsimp only; omega, by dsimp only; omega⟩, ?_, ?_⟩
  · rintro inner ⟨early, late⟩
    dsimp only at early late
    obtain rfl | rfl | later : inner = place ∨ inner = place + 1 ∨ place + 2 ≤ inner := by omega
    · rw [slash]
      decide
    · rw [other]
      decide
    · obtain ⟨index, rfl⟩ := Nat.exists_eq_add_of_le later
      rw [charAt?_drop behind]
      exact commentLength_inside (by omega)
  · dsimp only
    rw [last, charAt?_drop behind]
    exact (commentLength_end rest).imp (by omega) id

/-- The items of a run, with the ranges that they stand for. -/
theorem exists_tiling {scanner : Scanner} {items : List Item} (scans : Scans scanner items)
    {place : Nat} (start : scanner = (ofStream stream).advance place)
    (inside : place ≤ stream.length) :
    ∃ tiles, items = tiles.map Tile.item ++ [.ok (endToken stream)] ∧
      Tiling stream place tiles := by
  induction scans generalizing place with
  | ending nothing =>
      subst start
      have nothing : stream.drop place = [] := nothing
      have last : place = stream.length := by
        have length := List.drop_eq_nil_iff.mp nothing
        omega
      subst last
      refine ⟨[], ?_, ⟨by simp, by simp, .nil, fun place behind inside => by omega⟩⟩
      rw [position_advance, line_advance]
      rfl
  | @blank _ source rest _ ahead blank _ ih =>
      subst start
      have ahead : stream.drop place = source :: rest := ahead
      obtain ⟨within, found, -, -⟩ := ahead_drop ahead
      rw [advance_advance] at ih
      obtain ⟨tiles, same, tiling⟩ := ih rfl (by omega)
      refine ⟨tiles, same, tiling.extend (by omega) fun other behind before => ?_⟩
      obtain rfl : other = place := by omega
      exact .blank found (isBlank_iff.mp blank)
  | @comment _ first second rest _ ahead opens again _ ih =>
      subst start
      have ahead : stream.drop place = first :: second :: rest := ahead
      have comment := isComment_of_slashes ahead opens again
      have covers := comment.covers
      rw [advance_advance] at ih
      obtain ⟨tiles, same, tiling⟩ := ih rfl covers.2
      refine ⟨tiles, same, tiling.extend (by omega) fun other behind before => ?_⟩
      refine .comment comment ⟨behind, before⟩ (Nat.le_refl _) fun tile member => ?_
      exact Or.inr (tiling.inside tile member).1
  | @item _ source rest _ ahead visible outside _ ih =>
      subst start
      have ahead : stream.drop place = source :: rest := ahead
      obtain ⟨within, -, -, length⟩ := ahead_drop ahead
      have sound := shape_sound source.char rest
      obtain ⟨some, most⟩ := sound.size
      rw [advance_advance] at ih
      obtain ⟨tiles, same, tiling⟩ := ih rfl (by omega)
      refine ⟨⟨_, ⟨place, _⟩⟩ :: tiles, ?_, Tiling.cons tiling rfl (Nat.lt_add_of_pos_right some)
        (by dsimp only; omega) (covers_takeShape ahead sound)⟩
      rw [same]
      rfl

end TreeWalk.Scanner
