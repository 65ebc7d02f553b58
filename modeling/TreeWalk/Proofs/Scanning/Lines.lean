import TreeWalk.Diagnostic.SourceLine
import TreeWalk.Proofs.Scanning.Joining

/-!
# Lines of a source

The line of an offset is told by the line breaks in front of it.  A token has the line on which it
begins, and so has the mistake of an unexpected character; a string without end has the line on
which the source ends.  The lines that a snippet numbers are counted alike.
-/

set_option autoImplicit false

namespace TreeWalk

/-- The line of an offset: one more than there are line breaks in front of it. -/
def lineOf (source : String) (offset : Nat) : Nat :=
  1 + (SourceChar.place 0 source.toList).countP fun placed =>
    placed.char = '\n' && placed.offset < offset

namespace Scanner

/-! ## Offsets and lines -/

theorem place_append (offset : Nat) (front back : List Char) :
    SourceChar.place offset (front ++ back) = SourceChar.place offset front ++
      SourceChar.place (offset + (String.ofList front).utf8ByteSize) back := by
  induction front generalizing offset with
  | nil => simp [SourceChar.place]
  | cons char rest ih =>
      rw [utf8ByteSize_ofList_cons, ← Nat.add_assoc]
      exact congrArg (_ :: ·) (ih (offset + char.utf8Size))

theorem offset_of_place {offset : Nat} {chars : List Char} {placed : SourceChar}
    (member : placed ∈ SourceChar.place offset chars) :
    offset ≤ placed.offset ∧
      placed.offset < offset + (String.ofList chars).utf8ByteSize := by
  have stop := stop_le_of_place member
  have some := Char.utf8Size_pos placed.char
  unfold SourceChar.stop at stop
  refine ⟨?_, by omega⟩
  clear stop some
  induction chars generalizing offset with
  | nil => cases member
  | cons char rest ih =>
      rcases List.mem_cons.mp member with rfl | member
      · exact Nat.le_refl _
      · have := ih member
        omega

theorem lineOf_split {source : String} {front back : List Char}
    (split : source.toList = front ++ back) :
    lineOf source (String.ofList front).utf8ByteSize = 1 + front.count '\n' := by
  have before : (SourceChar.place 0 front).countP (fun placed =>
      placed.char = '\n' && placed.offset < (String.ofList front).utf8ByteSize) =
      front.count '\n' := by
    have breaks := lineBreaks_eq_count (SourceChar.place 0 front)
    rw [map_char_place] at breaks
    rw [← breaks]
    refine List.countP_congr fun placed member => ?_
    have inside := offset_of_place member
    rw [Nat.zero_add] at inside
    simp [inside.2]
  have behind : (SourceChar.place (0 + (String.ofList front).utf8ByteSize) back).countP
      (fun placed => placed.char = '\n' && placed.offset < (String.ofList front).utf8ByteSize) =
      0 := by
    refine List.countP_eq_zero.mpr fun placed member => ?_
    have outside := offset_of_place member
    have : ¬ placed.offset < (String.ofList front).utf8ByteSize := by omega
    simp [this]
  rw [lineOf, split, place_append, List.countP_append, before, behind]
  rfl

end Scanner

/-! ## Items and their lines -/

namespace Lexical

open Scanner (Item)

/-- What an item says of the piece of text that it stands for. -/
inductive Tells (place : Place) : List Char → Item → Prop where
  | token {piece : List Char} {kind : Kind} {literal : Option Literal} :
      Tells place piece
        (.ok ⟨kind, String.ofList piece, literal, place.line, place.span piece⟩)
  | unterminated {piece : List Char} :
      Tells place piece
        (.error ⟨.unterminatedString, place.span piece, (place.behind piece).line⟩)
  | unexpected {char : Char} (visible : char ≠ '\n') :
      Tells place [char] (.error ⟨.unexpectedCharacter char, place.span [char], place.line⟩)

theorem Unmatched.ne_lineBreak {char : Char} {rest : List Char}
    (nothing : Unmatched (char :: rest)) : char ≠ '\n' := by
  rintro rfl
  exact nothing ['\n'] .dropped (List.prefix_append ['\n'] rest) (.blank (by decide))

theorem Place.behind_nil (place : Place) : place.behind [] = place := by
  simp [Place.behind]

/-- The item stands for a piece of a text that begins at the place. -/
def Told (place : Place) (text : List Char) (item : Item) : Prop :=
  ∃ before piece after, text = before ++ (piece ++ after) ∧
    Tells (place.behind before) piece item

theorem Told.here {place : Place} {text piece : List Char} {item : Item} (front : piece <+: text)
    (tells : Tells place piece item) : Told place text item := by
  refine ⟨[], piece, text.drop piece.length, List.prefix_append_drop front, ?_⟩
  rwa [Place.behind_nil]

theorem Told.further {place : Place} {text piece : List Char} {item : Item}
    (front : piece <+: text) (told : Told (place.behind piece) (text.drop piece.length) item) :
    Told place text item := by
  obtain ⟨before, inner, after, split, tells⟩ := told
  rw [← Place.behind_append] at tells
  refine ⟨piece ++ before, inner, after, ?_, tells⟩
  rw [List.append_assoc, ← split]
  exact List.prefix_append_drop front

theorem Tokenizes.told {place : Place} {text : List Char} {items : List Item}
    (tokenizes : Tokenizes place text items) {item : Item} (member : item ∈ items) :
    Told place text item := by
  induction tokenizes with
  | @ending place =>
      rw [List.mem_singleton.mp member]
      have tells : Tells place [] (.ok ⟨.eof, "", none, place.line, place.span []⟩) := .token
      have same : place.span [] = ⟨place.offset, place.offset⟩ := by
        rw [Place.span, Place.behind_nil]
      rw [same] at tells
      exact .here List.nil_prefix tells
  | dropped longest _ ih => exact .further longest.front (ih member)
  | token longest _ ih =>
      rcases List.mem_cons.mp member with rfl | member
      · exact .here longest.front .token
      · exact .further longest.front (ih member)
  | @unterminated place rest _ _ _ ih =>
      rcases List.mem_cons.mp member with rfl | member
      · exact .here (List.prefix_refl _) .unterminated
      · refine .further (List.prefix_refl ('"' :: rest)) ?_
        rw [List.drop_length]
        exact ih member
  | @unexpected place char rest _ nothing _ _ ih =>
      have front : [char] <+: char :: rest := List.prefix_append [char] rest
      rcases List.mem_cons.mp member with rfl | member
      · exact .here front (.unexpected nothing.ne_lineBreak)
      · exact .further front (ih member)

end Lexical

namespace Scanner

open Lexical (Place Tells)

section Piece

variable {source : String} {before piece after : List Char}
variable (split : source.toList = before ++ (piece ++ after))

include split

theorem slice_of_split :
    Slice source (Place.span (Place.behind ⟨0, 1⟩ before) piece) (String.ofList piece) := by
  refine ⟨String.ofList before, String.ofList after, ?_, Nat.zero_add _, ?_⟩
  · rw [← String.ofList_append, ← String.ofList_append, List.append_assoc, ← split,
      String.ofList_toList]
  · simp [Place.span, Place.behind]

theorem line_of_split :
    (Place.behind ⟨0, 1⟩ before).line =
      lineOf source (Place.span (Place.behind ⟨0, 1⟩ before) piece).start := by
  have line := lineOf_split split
  simpa [Place.span, Place.behind] using line.symm

theorem line_behind_split :
    ((Place.behind ⟨0, 1⟩ before).behind piece).line =
      lineOf source (Place.span (Place.behind ⟨0, 1⟩ before) piece).stop := by
  rw [Place.span, ← Place.behind_append]
  have further : source.toList = (before ++ piece) ++ ([] ++ after) := by
    rw [split, List.nil_append, List.append_assoc]
  exact line_of_split further

end Piece

variable {source : String}

theorem token_line {token : Token} (member : token ∈ (Scan.ofSource source).tokens) :
    token.line = lineOf source token.span.start := by
  obtain ⟨before, piece, after, split, tells⟩ :=
    (Lexical.tokenizes_ofSource source).told (mem_tokens.mp member)
  cases tells with
  | token => exact line_of_split split

/-- A mistake has the line on which its span ends, and only a string without end begins on another
line. -/
theorem mistake_line {error : LexicalError} (member : error ∈ (Scan.ofSource source).errors) :
    ∃ text, Slice source error.span text ∧ error.line = lineOf source error.span.stop ∧
      (error.line = lineOf source error.span.start ↔ '\n' ∉ text.toList) ∧
      (error.cause ≠ .unterminatedString → '\n' ∉ text.toList) := by
  obtain ⟨before, piece, after, split, tells⟩ :=
    (Lexical.tokenizes_ofSource source).told (Scan.mem_errors.mp member)
  refine ⟨String.ofList piece, ?_⟩
  rw [String.toList_ofList]
  cases tells with
  | unterminated =>
      refine ⟨slice_of_split split, line_behind_split split, ?_, fun other => absurd rfl other⟩
      rw [← line_of_split split, ← List.count_eq_zero]
      simp [Place.behind]
  | @unexpected char visible =>
      have apart : '\n' ∉ [char] := by simpa using visible.symm
      refine ⟨slice_of_split split, ?_, by simp [apart, ← line_of_split split], fun _ => apart⟩
      rw [← line_behind_split split]
      simp [Place.behind, visible]

end Scanner

/-! ## Lines that are shown -/

namespace Diagnostic

open Scanner (offset_of_place)

theorem byteSize_cons (char : Char) (rest : List Char) :
    byteSize (char :: rest) = char.utf8Size + byteSize rest := by
  have shifted (start : Nat) (chars : List Char) :
      chars.foldl (fun size char => size + char.utf8Size) start = start + byteSize chars := by
    induction chars generalizing start with
    | nil => rfl
    | cons first rest ih =>
        have step := ih (0 + first.utf8Size)
        simp only [byteSize, List.foldl_cons] at ih step ⊢
        rw [ih, step]
        omega
  simpa [byteSize] using shifted (0 + char.utf8Size) rest

theorem starts_linesFrom (start : Nat) (read rest : List Char) :
    (linesFrom start read rest).map SourceLine.start =
      start :: ((SourceChar.place (start + byteSize read) rest).filter (·.char = '\n')).map
        SourceChar.stop := by
  induction rest generalizing start read with
  | nil => rfl
  | cons char rest ih =>
      have further : start + byteSize (char :: read) = start + byteSize read + char.utf8Size := by
        rw [byteSize_cons]
        omega
      unfold linesFrom
      dsimp only
      split
      · next breaks =>
          have empty : byteSize [] = 0 := rfl
          rw [List.map_cons, ih, further, empty]
          simp [SourceChar.place, SourceChar.stop, breaks]
      · next plain =>
          rw [ih, further]
          simp [SourceChar.place, plain]

theorem place_increasing (offset : Nat) (chars : List Char) :
    (SourceChar.place offset chars).Pairwise fun earlier later => earlier.stop ≤ later.offset := by
  induction chars generalizing offset with
  | nil => exact .nil
  | cons char rest ih =>
      exact List.pairwise_cons.mpr ⟨fun later member => (offset_of_place member).1, ih _⟩

theorem stops_increasing (offset : Nat) (chars : List Char) (keep : SourceChar → Bool) :
    (((SourceChar.place offset chars).filter keep).map SourceChar.stop).Pairwise (· ≤ ·) := by
  refine List.pairwise_map.mpr (((place_increasing offset chars).filter keep).imp ?_)
  intro earlier later before
  exact Nat.le_trans before (Nat.le_add_right _ _)

theorem length_takeWhile_le {values : List Nat} (sorted : values.Pairwise (· ≤ ·)) (bound : Nat) :
    (values.takeWhile (· ≤ bound)).length = values.countP (· ≤ bound) := by
  induction sorted with
  | nil => rfl
  | @cons value rest least _ ih =>
      by_cases within : value ≤ bound
      · simp [within, ih]
      · have none : rest.countP (· ≤ bound) = 0 := by
          refine List.countP_eq_zero.mpr fun other member => ?_
          have := least other member
          simp
          omega
        simp [within, none]

/-- The number that a snippet gives to the line of an offset. -/
theorem lineAt_sourceLines (source : String) (offset : Nat) :
    lineAt (sourceLines source) offset + 1 = lineOf source offset := by
  have starts := starts_linesFrom 0 [] source.toList
  have empty : byteSize [] = 0 := rfl
  rw [empty, Nat.add_zero] at starts
  have one : '\n'.utf8Size = 1 := by decide
  have ahead : ((sourceLines source).takeWhile (·.start ≤ offset)).length =
      (((sourceLines source).map SourceLine.start).takeWhile (· ≤ offset)).length := by
    rw [List.takeWhile_map, List.length_map]
    rfl
  rw [lineAt, ahead, sourceLines, starts, List.takeWhile_cons, if_pos (by simp), List.length_cons,
    length_takeWhile_le (stops_increasing 0 source.toList _), List.countP_map, List.countP_filter,
    Nat.add_sub_cancel, lineOf, Nat.add_comm]
  refine congrArg (1 + ·) (List.countP_congr fun placed _ => ?_)
  by_cases breaks : placed.char = '\n'
  · have stop : placed.stop = placed.offset + 1 := by rw [SourceChar.stop, breaks, one]
    have inside : placed.stop ≤ offset ↔ placed.offset < offset := by omega
    simp [breaks, inside]
  · simp [breaks]

end Diagnostic

end TreeWalk
