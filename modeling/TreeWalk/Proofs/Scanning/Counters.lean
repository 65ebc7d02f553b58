import TreeWalk.Proofs.Scanning.Steps

/-!
# Offsets and lines of a scanner stay small

Whatever has been read, the offsets and the line that a scanner works with are bounded by those of
the characters it was given.
-/

set_option autoImplicit false

namespace TreeWalk.Scanner

/-- The states that are met in a run: between the items, and between the characters of an item. -/
inductive Reached (start : Scanner) : Scanner → Prop where
  | start : Reached start start
  | read {scanner : Scanner} (reached : Reached start scanner) : Reached start (scanner.advance 1)
  | item {scanner : Scanner} (reached : Reached start scanner) : Reached start scanner.nextToken.2
  | next {scanner : Scanner} (reached : Reached start scanner) : Reached start scanner.next?.2

/-- The offset behind the character after the next one. -/
def endOfNext (scanner : Scanner) : Nat :=
  scanner.nextPosition + (scanner.rest[1]?.map fun source => source.char.utf8Size).getD 0

structure Fits (limit : Nat) (scanner : Scanner) : Prop where
  position : scanner.position ≤ limit
  nextPosition : scanner.nextPosition ≤ limit
  endOfNext : scanner.endOfNext ≤ limit
  line : scanner.line ≤ limit

/-- Each line break that is still to come needs a character of its own. -/
structure Bounded (limit : Nat) (scanner : Scanner) : Prop where
  ahead : ∀ source ∈ scanner.rest, source.stop ≤ limit
  stop : scanner.stop ≤ limit
  line : scanner.line + scanner.rest.length ≤ limit

theorem lineBreaks_le (read : List SourceChar) : lineBreaks read ≤ read.length :=
  List.countP_le_length

theorem Bounded.advance {limit : Nat} {scanner : Scanner} (bounded : scanner.Bounded limit)
    (count : Nat) : (scanner.advance count).Bounded limit := by
  have line := bounded.line
  refine ⟨?_, ?_, ?_⟩
  · intro source member
    exact bounded.ahead source (List.mem_of_mem_drop member)
  · change ((scanner.rest.take count).getLast?.map SourceChar.stop).getD scanner.stop ≤ limit
    cases last : (scanner.rest.take count).getLast? with
    | none => exact bounded.stop
    | some source =>
        exact bounded.ahead source (List.mem_of_mem_take (List.mem_of_getLast? last))
  · have breaks := lineBreaks_le (scanner.rest.take count)
    rw [List.length_take] at breaks
    change scanner.line + lineBreaks (scanner.rest.take count) + (scanner.rest.drop count).length ≤
      limit
    rw [List.length_drop]
    omega

theorem nextToken_snd (scanner : Scanner) :
    ∃ count, scanner.nextToken.2 = scanner.advance count := by
  unfold nextToken skipBlank
  dsimp only
  split
  · exact ⟨_, rfl⟩
  · rw [takeShape_snd, advance_advance]
    exact ⟨_, rfl⟩

theorem Bounded.nextToken {limit : Nat} {scanner : Scanner} (bounded : scanner.Bounded limit) :
    scanner.nextToken.2.Bounded limit := by
  obtain ⟨count, after⟩ := nextToken_snd scanner
  rw [after]
  exact bounded.advance count

theorem Bounded.next? {limit : Nat} {scanner : Scanner} (bounded : scanner.Bounded limit) :
    scanner.next?.2.Bounded limit := by
  unfold Scanner.next?
  split
  · exact bounded
  · obtain ⟨ahead, stop, line⟩ := bounded.nextToken
    exact ⟨ahead, stop, line⟩

theorem Reached.bounded {limit : Nat} {start scanner : Scanner} (reached : Reached start scanner)
    (bounded : start.Bounded limit) : scanner.Bounded limit := by
  induction reached with
  | start => exact bounded
  | read _ ih => exact ih.advance 1
  | item _ ih => exact ih.nextToken
  | next _ ih => exact ih.next?

theorem Bounded.fits {limit : Nat} {scanner : Scanner} (bounded : scanner.Bounded limit) :
    scanner.Fits limit := by
  have line := bounded.line
  have offset {source : SourceChar} (member : source ∈ scanner.rest) : source.offset ≤ limit :=
    (Nat.le_add_right _ _).trans (bounded.ahead source member)
  refine ⟨?_, ?_, ?_, by omega⟩
  · unfold Scanner.position
    split
    · exact bounded.stop
    · next ahead => exact offset (ahead ▸ List.mem_cons_self)
  · unfold Scanner.nextPosition
    split
    · exact bounded.stop
    · next ahead => exact bounded.ahead _ (ahead ▸ List.mem_cons_self)
    · next ahead => exact offset (ahead ▸ List.mem_cons_of_mem _ List.mem_cons_self)
  · unfold Scanner.endOfNext Scanner.nextPosition
    split
    · next ahead =>
        rw [ahead]
        exact bounded.stop
    · next source ahead =>
        rw [ahead]
        exact bounded.ahead _ (ahead ▸ List.mem_cons_self)
    · next source _ ahead =>
        rw [ahead]
        exact bounded.ahead source (ahead ▸ List.mem_cons_of_mem _ List.mem_cons_self)

/-- In a run over few characters with small offsets, no counter grows beyond the limit. -/
theorem fits_of_reached {limit : Nat} {stream : List SourceChar} (short : stream.length < limit)
    (small : ∀ source ∈ stream, source.stop ≤ limit) {scanner : Scanner}
    (reached : Reached (ofStream stream) scanner) : scanner.Fits limit := by
  refine (reached.bounded ⟨small, Nat.zero_le _, ?_⟩).fits
  change 1 + stream.length ≤ limit
  omega

end TreeWalk.Scanner
