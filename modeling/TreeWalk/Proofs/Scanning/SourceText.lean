import TreeWalk.Proofs.Scanning.Counters
import TreeWalk.Proofs.Scanning.Tiling

/-!
# Spans are slices of the source

The offsets of a source text are numbers of bytes.  So the span of a token cuts its lexeme out of
the text, and the spans of a run follow each other.
-/

set_option autoImplicit false

namespace TreeWalk.Scanner

/-! ## Offsets of a text -/

theorem utf8ByteSize_ofList_cons (char : Char) (rest : List Char) :
    (String.ofList (char :: rest)).utf8ByteSize =
      char.utf8Size + (String.ofList rest).utf8ByteSize := by
  rw [String.ofList_cons, String.utf8ByteSize_append, String.utf8ByteSize_singleton]

theorem utf8ByteSize_ofList_append (early late : List Char) :
    (String.ofList (early ++ late)).utf8ByteSize =
      (String.ofList early).utf8ByteSize + (String.ofList late).utf8ByteSize := by
  rw [String.ofList_append, String.utf8ByteSize_append]

theorem map_char_place (offset : Nat) (chars : List Char) :
    (SourceChar.place offset chars).map SourceChar.char = chars := by
  induction chars generalizing offset with
  | nil => rfl
  | cons char rest ih =>
      change char :: (SourceChar.place _ rest).map SourceChar.char = char :: rest
      rw [ih]

theorem length_place (offset : Nat) (chars : List Char) :
    (SourceChar.place offset chars).length = chars.length := by
  rw [← List.length_map SourceChar.char, map_char_place]

theorem getElem?_place (offset : Nat) (chars : List Char) (index : Nat) :
    (SourceChar.place offset chars)[index]? = chars[index]?.map fun char =>
      ⟨offset + (String.ofList (chars.take index)).utf8ByteSize, char⟩ := by
  induction chars generalizing offset index with
  | nil => rfl
  | cons char rest ih =>
      cases index with
      | zero => rfl
      | succ index =>
          rw [List.take_succ_cons, utf8ByteSize_ofList_cons, ← Nat.add_assoc]
          exact ih (offset + char.utf8Size) index

theorem lastStop_place (offset : Nat) (chars : List Char) :
    ((SourceChar.place offset chars).getLast?.map SourceChar.stop).getD offset =
      offset + (String.ofList chars).utf8ByteSize := by
  induction chars generalizing offset with
  | nil => rfl
  | cons char rest ih =>
      rw [utf8ByteSize_ofList_cons, ← Nat.add_assoc, ← ih (offset + char.utf8Size)]
      change (List.getLast? (_ :: SourceChar.place (offset + char.utf8Size) rest) |>.map _).getD _ = _
      rw [List.getLast?_cons]
      cases (SourceChar.place (offset + char.utf8Size) rest).getLast? <;> rfl

theorem offsetAt_place (chars : List Char) (place : Nat) :
    offsetAt (SourceChar.place 0 chars) place =
      (String.ofList (chars.take place)).utf8ByteSize := by
  unfold offsetAt
  rw [getElem?_place]
  by_cases inside : place < chars.length
  · rw [List.getElem?_eq_getElem inside]
    exact Nat.zero_add _
  · rw [List.getElem?_eq_none (by omega), List.take_of_length_le (by omega)]
    exact (lastStop_place 0 chars).trans (Nat.zero_add _)

theorem textOf_place (chars : List Char) (range : Range) :
    textOf (SourceChar.place 0 chars) range =
      String.ofList (chars.extract range.first range.last) := by
  unfold textOf
  rw [List.extract_eq_take_drop, List.map_take, List.map_drop, map_char_place,
    List.extract_eq_take_drop]

theorem take_range (chars : List Char) {first last : Nat} (order : first ≤ last) :
    chars.take last = chars.take first ++ chars.extract first last := by
  obtain ⟨size, rfl⟩ := Nat.exists_eq_add_of_le order
  rw [List.extract_eq_take_drop, Nat.add_sub_cancel_left, List.take_add]

theorem offsetAt_range (chars : List Char) {first last : Nat} (order : first ≤ last) :
    offsetAt (SourceChar.place 0 chars) last =
      offsetAt (SourceChar.place 0 chars) first +
        (String.ofList (chars.extract first last)).utf8ByteSize := by
  rw [offsetAt_place, offsetAt_place, take_range chars order, utf8ByteSize_ofList_append]

theorem offsetAt_mono (chars : List Char) {first last : Nat} (order : first ≤ last) :
    offsetAt (SourceChar.place 0 chars) first ≤ offsetAt (SourceChar.place 0 chars) last := by
  rw [offsetAt_range chars order]
  exact Nat.le_add_right _ _

theorem offsetAt_lt (chars : List Char) {first last : Nat} (order : first < last)
    (inside : last ≤ chars.length) :
    offsetAt (SourceChar.place 0 chars) first < offsetAt (SourceChar.place 0 chars) last := by
  have place : first < chars.length := by omega
  have step := offsetAt_range chars (Nat.le_add_right first 1)
  have rest := offsetAt_mono chars (show first + 1 ≤ last from order)
  have some : 0 < (String.ofList (chars.extract first (first + 1))).utf8ByteSize := by
    rw [List.extract_eq_take_drop, List.drop_eq_getElem_cons place, Nat.add_sub_cancel_left,
      List.take_succ_cons, utf8ByteSize_ofList_cons]
    exact Nat.add_pos_left (Char.utf8Size_pos _) _
  omega

theorem offsetAt_length (chars : List Char) :
    offsetAt (SourceChar.place 0 chars) (SourceChar.place 0 chars).length =
      (String.ofList chars).utf8ByteSize := by
  rw [offsetAt_place, length_place, List.take_length]

/-! ## Spans of a text -/

/-- The text is what the span covers of the source. -/
def Slice (source : String) (span : Span) (text : String) : Prop :=
  ∃ before after, source = before ++ text ++ after ∧ span.start = before.utf8ByteSize ∧
    span.stop = before.utf8ByteSize + text.utf8ByteSize

theorem slice_range (source : String) {range : Range} (order : range.first ≤ range.last) :
    Slice source (spanOf (SourceChar.place 0 source.toList) range)
      (textOf (SourceChar.place 0 source.toList) range) := by
  refine ⟨String.ofList (source.toList.take range.first),
    String.ofList (source.toList.drop range.last), ?_, ?_, ?_⟩
  · rw [textOf_place, ← String.ofList_append, ← take_range _ order, ← String.ofList_append,
      List.take_append_drop, String.ofList_toList]
  · exact offsetAt_place _ _
  · rw [textOf_place, ← offsetAt_place]
    exact offsetAt_range _ order

/-- The span covers something, and the other one begins behind it. -/
def SpanBefore (earlier later : Span) : Prop :=
  earlier.start < earlier.stop ∧ earlier.stop ≤ later.start

def itemSpan : Item → Span
  | .ok token => token.span
  | .error error => error.span

theorem Covers.itemSpan {stream : List SourceChar} {item : Item} {range : Range}
    (covers : Covers stream item range) : itemSpan item = spanOf stream range := by
  cases covers with
  | token _ span => exact span
  | mistake span => exact span

/-! ## Runs over a text -/

/-- The greatest offset and the greatest line. -/
def largest : Nat := UInt32.size - 1

/-- What a run over placed characters yields, and how far its counters get. -/
structure StreamScan (stream : List SourceChar) : Prop where
  tiled : ∃ tiles, (ofStream stream).all = tiles.map Tile.item ++ [.ok (endToken stream)] ∧
    Tiling stream 0 tiles
  fits : ∀ scanner, Reached (ofStream stream) scanner → scanner.Fits largest

/-- What a run over a text yields, and how far its counters get. -/
structure SourceScan (source : String) : Prop where
  slices : ∀ token ∈ (Scan.ofSource source).tokens, Slice source token.span token.lexeme
  items : (ofSource source).all.Pairwise fun earlier later =>
    SpanBefore (itemSpan earlier) (itemSpan later)
  tokens : (Scan.ofSource source).tokens.Pairwise fun earlier later =>
    SpanBefore earlier.span later.span
  ending : ∃ front, (Scan.ofSource source).tokens =
      front ++ [Token.ending (1 + source.toList.count '\n') source.utf8ByteSize] ∧
    ∀ token ∈ front, token.kind ≠ .eof
  fits : ∀ scanner, Reached (ofSource source) scanner → scanner.Fits largest

theorem streamScan {stream : List SourceChar} (short : stream.length < largest)
    (small : ∀ source ∈ stream, source.stop ≤ largest) : StreamScan stream :=
  ⟨exists_tiling (scans_all _) (advance_zero _).symm (Nat.zero_le _),
    fun _ reached => fits_of_reached short small reached⟩

theorem lineBreaks_eq_count (read : List SourceChar) :
    lineBreaks read = (read.map SourceChar.char).count '\n' := by
  rw [List.count, List.countP_map]
  rfl

theorem endToken_place (source : String) :
    endToken (SourceChar.place 0 source.toList) =
      Token.ending (1 + source.toList.count '\n') source.utf8ByteSize := by
  unfold endToken lineAt
  rw [offsetAt_length, String.ofList_toList, List.take_length,
    lineBreaks_eq_count, map_char_place]

theorem stop_le_of_place {offset : Nat} {chars : List Char} {placed : SourceChar}
    (member : placed ∈ SourceChar.place offset chars) :
    placed.stop ≤ offset + (String.ofList chars).utf8ByteSize := by
  induction chars generalizing offset with
  | nil => cases member
  | cons char rest ih =>
      rw [utf8ByteSize_ofList_cons, ← Nat.add_assoc]
      rcases List.mem_cons.mp member with rfl | member
      · exact Nat.le_add_right _ _
      · exact ih member

theorem length_le_utf8ByteSize (chars : List Char) :
    chars.length ≤ (String.ofList chars).utf8ByteSize := by
  induction chars with
  | nil => exact Nat.zero_le _
  | cons char rest ih =>
      have some := Char.utf8Size_pos char
      rw [utf8ByteSize_ofList_cons, List.length_cons]
      omega

theorem mem_tokens {items : List Item} {token : Token} :
    token ∈ (Scan.ofItems items).tokens ↔ Except.ok token ∈ items := by
  unfold Scan.ofItems
  rw [List.mem_filterMap]
  constructor
  · rintro ⟨item, member, found⟩
    cases item with
    | error error => cases found
    | ok other =>
        cases found
        exact member
  · exact fun member => ⟨_, member, rfl⟩

theorem Tiling.spans {source : String} {tiles : List Tile}
    (tiling : Tiling (SourceChar.place 0 source.toList) 0 tiles) :
    (tiles.map Tile.item ++ [Except.ok (endToken (SourceChar.place 0 source.toList))]).Pairwise
      fun earlier later => SpanBefore (itemSpan earlier) (itemSpan later) := by
  have span {tile : Tile} (member : tile ∈ tiles) := (tiling.covers tile member).itemSpan
  have nonempty {tile : Tile} (member : tile ∈ tiles) :
      (itemSpan tile.item).start < (itemSpan tile.item).stop := by
    obtain ⟨-, order, inside⟩ := tiling.inside tile member
    rw [span member]
    exact offsetAt_lt _ order (by rwa [length_place] at inside)
  refine List.pairwise_append.mpr ⟨?_, List.pairwise_singleton _ _, ?_⟩
  · refine List.pairwise_map.mpr (tiling.increasing.imp_of_mem fun first second order => ?_)
    refine ⟨nonempty first, ?_⟩
    rw [span first, span second]
    exact offsetAt_mono _ order
  · intro item early last member
    obtain ⟨tile, found, rfl⟩ := List.mem_map.mp early
    obtain rfl := List.mem_singleton.mp member
    refine ⟨nonempty found, ?_⟩
    rw [span found]
    exact offsetAt_mono _ (tiling.inside tile found).2.2

section Source

variable (source : String)

theorem tiling_ofSource :
    ∃ tiles, (ofSource source).all =
        tiles.map Tile.item ++ [.ok (endToken (SourceChar.place 0 source.toList))] ∧
      Tiling (SourceChar.place 0 source.toList) 0 tiles :=
  exists_tiling (scans_all _) (advance_zero _).symm (Nat.zero_le _)

theorem items_before : (ofSource source).all.Pairwise fun earlier later =>
    SpanBefore (itemSpan earlier) (itemSpan later) := by
  obtain ⟨tiles, all, tiling⟩ := tiling_ofSource source
  rw [all]
  exact tiling.spans

theorem tokens_before : (Scan.ofSource source).tokens.Pairwise fun earlier later =>
    SpanBefore earlier.span later.span := by
  refine (items_before source).filterMap _ fun first second order => ?_
  intro earlier firstIs later secondIs
  cases first <;> cases firstIs
  cases second <;> cases secondIs
  exact order

theorem tokens_slice : ∀ token ∈ (Scan.ofSource source).tokens,
    Slice source token.span token.lexeme := by
  obtain ⟨tiles, all, tiling⟩ := tiling_ofSource source
  intro token member
  have found := mem_tokens.mp member
  rw [all] at found
  rcases List.mem_append.mp found with tile | last
  · obtain ⟨tile, found, same⟩ := List.mem_map.mp tile
    have covers := tiling.covers tile found
    obtain ⟨-, order, -⟩ := tiling.inside tile found
    rw [same] at covers
    cases covers with
    | token _ span lexeme _ =>
        rw [span, lexeme]
        exact slice_range source (Nat.le_of_lt order)
  · obtain rfl := Except.ok.inj (List.mem_singleton.mp last)
    rw [endToken_place]
    exact ⟨source, "", by simp [Token.ending], rfl, rfl⟩

theorem tokens_ending : ∃ front, (Scan.ofSource source).tokens =
    front ++ [Token.ending (1 + source.toList.count '\n') source.utf8ByteSize] ∧
      ∀ token ∈ front, token.kind ≠ .eof := by
  obtain ⟨tiles, all, tiling⟩ := tiling_ofSource source
  refine ⟨(tiles.map Tile.item).filterMap Except.toOption, ?_, ?_⟩
  · unfold Scan.ofSource Scan.ofItems
    rw [all, List.filterMap_append, endToken_place]
    rfl
  · intro token member
    obtain ⟨tile, found, same⟩ := List.mem_map.mp (mem_tokens.mp member)
    have covers := tiling.covers tile found
    rw [same] at covers
    cases covers with
    | token kind => exact kind

end Source

theorem sourceScan {source : String} (short : source.utf8ByteSize < largest) :
    SourceScan source := by
  have chars := length_le_utf8ByteSize source.toList
  rw [String.ofList_toList] at chars
  have scan : StreamScan (SourceChar.place 0 source.toList) := by
    refine streamScan (by rw [length_place]; omega) fun placed member => ?_
    have stop := stop_le_of_place member
    rw [String.ofList_toList] at stop
    omega
  exact ⟨tokens_slice source, items_before source, tokens_before source, tokens_ending source,
    scan.fits⟩

/-- The items of a run are tiles of the text, in order, and no counter overflows.  In a source text
spans are slices. -/
theorem scan_tiles :
    (∀ stream : List SourceChar, stream.length < largest →
      (∀ source ∈ stream, source.stop ≤ largest) → StreamScan stream) ∧
    ∀ source : String, source.utf8ByteSize < largest → SourceScan source :=
  ⟨fun _ short small => streamScan short small, fun _ short => sourceScan short⟩

theorem scan_tiles_twoLines :
    (([⟨7, '"'⟩, ⟨20, '\n'⟩, ⟨21, '"'⟩, ⟨30, '/'⟩] : List SourceChar).length < largest ∧
      StreamScan [⟨7, '"'⟩, ⟨20, '\n'⟩, ⟨21, '"'⟩, ⟨30, '/'⟩]) ∧
      "é // two\n1.5".utf8ByteSize < largest ∧ SourceScan "é // two\n1.5" :=
  ⟨⟨by decide, scan_tiles.1 _ (by decide) (by decide)⟩, by decide, scan_tiles.2 _ (by decide)⟩

end TreeWalk.Scanner
