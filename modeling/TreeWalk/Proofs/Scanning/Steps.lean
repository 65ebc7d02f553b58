import Mathlib.Data.List.TakeWhile
import TreeWalk.Token.Scanner

/-!
# The steps of a scanner

A scanner only ever reads characters, so each of its states is the start advanced by some number
of them.  `Scans` takes the run of a scanner apart: one blank character, one comment or one item at
a time, up to the end token.
-/

set_option autoImplicit false

namespace TreeWalk.Scanner

/-! ## Reading characters -/

theorem lineBreaks_append (early late : List SourceChar) :
    lineBreaks (early ++ late) = lineBreaks early + lineBreaks late :=
  List.countP_append

theorem position_nil {scanner : Scanner} (nothing : scanner.rest = []) :
    scanner.position = scanner.stop := by
  unfold position
  rw [nothing]

theorem position_cons {scanner : Scanner} {source : SourceChar} {rest : List SourceChar}
    (ahead : scanner.rest = source :: rest) : scanner.position = source.offset := by
  unfold position
  rw [ahead]

theorem advance_zero (scanner : Scanner) : scanner.advance 0 = scanner := by
  simp [advance, lineBreaks]

theorem advance_advance (scanner : Scanner) (first second : Nat) :
    (scanner.advance first).advance second = scanner.advance (first + second) := by
  have read : scanner.rest.take (first + second) =
      scanner.rest.take first ++ (scanner.rest.drop first).take second := List.take_add
  have stop : (((scanner.rest.drop first).take second).getLast?.map SourceChar.stop).getD
      (((scanner.rest.take first).getLast?.map SourceChar.stop).getD scanner.stop) =
      ((scanner.rest.take (first + second)).getLast?.map SourceChar.stop).getD scanner.stop := by
    rw [read, List.getLast?_append]
    cases ((scanner.rest.drop first).take second).getLast? <;> rfl
  have line : scanner.line + lineBreaks (scanner.rest.take first) +
      lineBreaks ((scanner.rest.drop first).take second) =
      scanner.line + lineBreaks (scanner.rest.take (first + second)) := by
    rw [read, lineBreaks_append, Nat.add_assoc]
  simp only [advance, stop, line, List.drop_drop]

/-! ## Blank space and comments -/

theorem isBlank_iff {char : Char} : isBlank char = true ↔ char ∈ [' ', '\r', '\t', '\n'] := by
  simp [isBlank, or_assoc]

/-- The characters of a comment behind its slashes. -/
def commentLength (rest : List SourceChar) : Nat := (rest.takeWhile (·.char ≠ '\n')).length

theorem commentLength_le (rest : List SourceChar) : commentLength rest ≤ rest.length :=
  (List.takeWhile_prefix _).length_le

theorem commentLength_inside {rest : List SourceChar} {index : Nat}
    (inside : index < commentLength rest) : rest[index]?.map SourceChar.char ≠ some '\n' := by
  unfold commentLength at inside
  rw [← List.takeWhile_append_dropWhile (p := (·.char ≠ '\n')) (l := rest),
    List.getElem?_append_left inside, List.getElem?_eq_getElem inside]
  have outside := List.mem_takeWhile_imp (List.getElem_mem inside)
  simpa using outside

theorem commentLength_end (rest : List SourceChar) :
    commentLength rest = rest.length ∨
      rest[commentLength rest]?.map SourceChar.char = some '\n' := by
  unfold commentLength
  induction rest with
  | nil => exact Or.inl rfl
  | cons source rest ih =>
      by_cases ends : source.char = '\n'
      · exact Or.inr (by simp [ends])
      · simpa [List.takeWhile_cons, ends] using ih

theorem blankLength_inside (chars : List SourceChar) :
    blankLength true chars = commentLength chars +
      blankLength false (chars.drop (commentLength chars)) := by
  induction chars with
  | nil => rfl
  | cons source rest ih =>
      by_cases ends : source.char = '\n'
      · simp [blankLength, commentLength, ends, isBlank]
      · have inside : commentLength (source :: rest) = commentLength rest + 1 := by
          simp [commentLength, ends]
        rw [inside, List.drop_succ_cons]
        simp only [blankLength, ends, ne_eq, not_false_eq_true, decide_true, if_true, ih]
        omega

theorem blankLength_blank {source : SourceChar} (blank : isBlank source.char = true)
    (rest : List SourceChar) :
    blankLength false (source :: rest) = 1 + blankLength false rest := by
  simp [blankLength, blank]

theorem blankLength_comment {first second : SourceChar} (opens : first.char = '/')
    (again : second.char = '/') (rest : List SourceChar) :
    blankLength false (first :: second :: rest) =
      2 + commentLength rest + blankLength false (rest.drop (commentLength rest)) := by
  have slash : isBlank '/' = false := by decide
  simp only [blankLength, opens, again, slash, List.head?_cons, Option.map_some, Bool.false_eq_true,
    if_false, decide_true, Bool.and_self, if_true]
  rw [show decide ('/' ≠ '\n') = true by decide, blankLength_inside]
  omega

/-- A comment begins here. -/
def opensComment (first : Char) (rest : List SourceChar) : Prop :=
  first = '/' ∧ rest.head?.map SourceChar.char = some '/'

theorem blankLength_front {source : SourceChar} {rest : List SourceChar}
    (visible : isBlank source.char = false) (outside : ¬ opensComment source.char rest) :
    blankLength false (source :: rest) = 0 := by
  have closed : (decide (source.char = '/') &&
      decide (rest.head?.map SourceChar.char = some '/')) = false := by
    rw [← Bool.not_eq_true, Bool.and_eq_true, decide_eq_true_iff, decide_eq_true_iff]
    exact outside
  simp only [blankLength, visible, closed, Bool.false_eq_true, if_false]

theorem skipBlank_advance {scanner : Scanner} {count : Nat}
    (skips : blankLength false scanner.rest =
      count + blankLength false (scanner.rest.drop count)) :
    scanner.skipBlank = (scanner.advance count).skipBlank := by
  unfold skipBlank
  rw [rest_advance, advance_advance, skips]

theorem skipBlank_blank {scanner : Scanner} {source : SourceChar} {rest : List SourceChar}
    (ahead : scanner.rest = source :: rest) (blank : isBlank source.char = true) :
    scanner.skipBlank = (scanner.advance 1).skipBlank := by
  apply skipBlank_advance
  rw [ahead, blankLength_blank blank]
  rfl

theorem skipBlank_comment {scanner : Scanner} {first second : SourceChar}
    {rest : List SourceChar} (ahead : scanner.rest = first :: second :: rest)
    (opens : first.char = '/') (again : second.char = '/') :
    scanner.skipBlank = (scanner.advance (2 + commentLength rest)).skipBlank := by
  apply skipBlank_advance
  rw [ahead, blankLength_comment opens again, Nat.add_comm 2, List.drop_succ_cons,
    List.drop_succ_cons]

theorem skipBlank_front {scanner : Scanner} {source : SourceChar} {rest : List SourceChar}
    (ahead : scanner.rest = source :: rest) (visible : isBlank source.char = false)
    (outside : ¬ opensComment source.char rest) : scanner.skipBlank = scanner := by
  unfold skipBlank
  rw [ahead, blankLength_front visible outside, advance_zero]

/-! ## Items -/

/-- The number of characters that a shape takes in front of a text of this length. -/
def Shape.size (length : Nat) : Shape → Nat
  | .lexeme _ size => size
  | .unterminated => length
  | .unexpected _ => 1

theorem takeShape_snd (scanner : Scanner) (shape : Shape) :
    (scanner.takeShape shape).2 = scanner.advance (shape.size scanner.rest.length) := by
  cases shape <;> rfl

/-- A shape that covers some of the characters, at least one, and is not the end. -/
def Shape.Sound (length : Nat) : Shape → Prop
  | .lexeme kind size => kind ≠ .eof ∧ 0 < size ∧ size ≤ length
  | .unterminated | .unexpected _ => 0 < length

theorem numberTail_le (rest : List SourceChar) : numberTail rest ≤ rest.length := by
  have whole := (List.takeWhile_prefix isDigitAt (l := rest)).length_le
  unfold numberTail
  dsimp only
  split
  · next point behind split =>
      have fraction := (List.takeWhile_prefix isDigitAt (l := behind)).length_le
      have length := congrArg List.length split
      rw [List.length_drop, List.length_cons] at length
      split <;> omega
  · exact whole

theorem ofWord?_ne_eof (word : String) : (Kind.ofWord? word).getD .identifier ≠ .eof := by
  cases found : Kind.ofWord? word with
  | none => simp
  | some kind =>
      have member := List.mem_of_find?_eq_some found
      rintro rfl
      revert member
      decide

theorem withEqual_sound {single double : Kind} (one : single ≠ .eof) (two : double ≠ .eof)
    (rest : List SourceChar) : (withEqual single double rest).Sound (rest.length + 1) := by
  unfold withEqual
  split
  · next follows =>
      cases rest with
      | nil => simp at follows
      | cons source rest =>
          refine ⟨two, by omega, ?_⟩
          rw [List.length_cons]
          omega
  · exact ⟨one, by omega, by omega⟩

theorem stringShape_sound (rest : List SourceChar) : (stringShape rest).Sound (rest.length + 1) := by
  unfold stringShape
  split
  · exact Nat.succ_pos _
  · next closing behind split =>
      have length := congrArg List.length
        (List.takeWhile_append_dropWhile (p := fun source : SourceChar => source.char ≠ '"')
          (l := rest))
      rw [split, List.length_append, List.length_cons] at length
      exact ⟨by decide, by omega, by omega⟩

theorem simpleKind?_ne_eof {first : Char} {kind : Kind} (simple : simpleKind? first = some kind) :
    kind ≠ .eof := by
  unfold simpleKind? at simple
  split at simple <;> cases simple <;> decide

theorem shape_sound (first : Char) (rest : List SourceChar) :
    (shape first rest).Sound (rest.length + 1) := by
  unfold shape
  split
  · next kind simple => exact ⟨simpleKind?_ne_eof simple, by omega, by omega⟩
  · split
    · exact withEqual_sound (by decide) (by decide) rest
    split
    · exact withEqual_sound (by decide) (by decide) rest
    split
    · exact withEqual_sound (by decide) (by decide) rest
    split
    · exact withEqual_sound (by decide) (by decide) rest
    split
    · exact stringShape_sound rest
    split
    · have tail := numberTail_le rest
      exact ⟨by decide, by omega, by omega⟩
    split
    · have tail := (List.takeWhile_prefix (fun source => isNamePart source.char)
        (l := rest)).length_le
      exact ⟨ofWord?_ne_eof _, by omega, by omega⟩
    · exact Nat.succ_pos _

theorem Shape.Sound.size {length : Nat} {shape : Shape} (sound : shape.Sound length) :
    0 < shape.size length ∧ shape.size length ≤ length := by
  cases shape with
  | lexeme kind size => exact sound.2
  | unterminated => exact ⟨sound, Nat.le_refl _⟩
  | unexpected found => exact ⟨Nat.one_pos, sound⟩

theorem isEnd_takeShape (scanner : Scanner) {length : Nat} {shape : Shape}
    (sound : shape.Sound length) : isEnd (scanner.takeShape shape).1 = false := by
  cases shape with
  | lexeme kind size => exact decide_eq_false sound.1
  | unterminated | unexpected => rfl

/-! ## Runs -/

/-- From here on the scanner yields these items. -/
inductive Scans : Scanner → List Item → Prop where
  | ending {scanner : Scanner} (nothing : scanner.rest = []) :
      Scans scanner [.ok (Token.ending scanner.line scanner.position)]
  | blank {scanner : Scanner} {source : SourceChar} {rest : List SourceChar} {items : List Item}
      (ahead : scanner.rest = source :: rest) (blank : isBlank source.char = true)
      (behind : Scans (scanner.advance 1) items) : Scans scanner items
  | comment {scanner : Scanner} {first second : SourceChar} {rest : List SourceChar}
      {items : List Item} (ahead : scanner.rest = first :: second :: rest)
      (opens : first.char = '/') (again : second.char = '/')
      (behind : Scans (scanner.advance (2 + commentLength rest)) items) : Scans scanner items
  | item {scanner : Scanner} {source : SourceChar} {rest : List SourceChar} {items : List Item}
      (ahead : scanner.rest = source :: rest) (visible : isBlank source.char = false)
      (outside : ¬ opensComment source.char rest)
      (behind : Scans (scanner.advance ((shape source.char rest).size (rest.length + 1))) items) :
      Scans scanner ((scanner.takeShape (shape source.char rest)).1 :: items)

theorem items_of_skipBlank {scanner other : Scanner} (same : scanner.skipBlank = other.skipBlank)
    (count : Nat) : scanner.items count = other.items count := by
  cases count with
  | zero => rfl
  | succ count =>
      have token : scanner.nextToken = other.nextToken := by
        unfold nextToken
        rw [same]
      simp only [items, token]

theorem items_ending {scanner : Scanner} (nothing : scanner.rest = []) (count : Nat) :
    scanner.items (count + 1) = [.ok (Token.ending scanner.line scanner.position)] := by
  have stays : scanner.skipBlank = scanner := by
    unfold skipBlank
    rw [nothing]
    exact advance_zero scanner
  have token : scanner.nextToken =
      (.ok (Token.ending scanner.line scanner.position), scanner) := by
    unfold nextToken
    simp only [stays, nothing]
  unfold items
  rw [token]
  rfl

theorem items_front {scanner : Scanner} {source : SourceChar} {rest : List SourceChar}
    (ahead : scanner.rest = source :: rest) (visible : isBlank source.char = false)
    (outside : ¬ opensComment source.char rest) (count : Nat) :
    scanner.items (count + 1) =
      (scanner.takeShape (shape source.char rest)).1 ::
        (scanner.advance ((shape source.char rest).size (rest.length + 1))).items count := by
  have token : scanner.nextToken = scanner.takeShape (shape source.char rest) := by
    unfold nextToken
    simp only [skipBlank_front ahead visible outside, ahead]
  have more := isEnd_takeShape scanner (shape_sound source.char rest)
  have after := takeShape_snd scanner (shape source.char rest)
  rw [ahead, List.length_cons] at after
  simp only [items, token, more, after, Bool.false_eq_true, if_false]

/-- Each step leaves fewer characters, and each item but the last one takes some. -/
theorem scans_items {scanner : Scanner} {count : Nat} (enough : scanner.rest.length < count) :
    Scans scanner (scanner.items count) := by
  induction left : scanner.rest.length using Nat.strongRecOn generalizing scanner count with
  | _ length ih =>
      subst left
      cases ahead : scanner.rest with
      | nil =>
          cases count with
          | zero => omega
          | succ count =>
              rw [items_ending ahead]
              exact .ending ahead
      | cons source rest =>
          rw [ahead, List.length_cons] at enough ih
          have fewer (taken : Nat) (some : 0 < taken) :
              (scanner.advance taken).rest.length < rest.length + 1 := by
            rw [rest_advance, ahead, List.length_drop, List.length_cons]
            omega
          by_cases blank : isBlank source.char = true
          · rw [items_of_skipBlank (skipBlank_blank ahead blank)]
            have step := fewer 1 Nat.one_pos
            exact .blank ahead blank (ih _ step (by omega) rfl)
          · by_cases comment : opensComment source.char rest
            · obtain ⟨opens, again⟩ := comment
              cases rest with
              | nil => cases again
              | cons second rest =>
                  have again := Option.some.inj again
                  rw [items_of_skipBlank (skipBlank_comment ahead opens again)]
                  have step := fewer (2 + commentLength rest) (by omega)
                  exact .comment ahead opens again (ih _ step (by omega) rfl)
            · have visible : isBlank source.char = false := by simpa using blank
              have sound := shape_sound source.char rest
              have step := fewer _ sound.size.1
              cases count with
              | zero => omega
              | succ count =>
                  rw [items_front ahead visible comment]
                  exact .item ahead visible comment (ih _ step (by omega) rfl)

theorem scans_all (scanner : Scanner) : Scans scanner scanner.all :=
  scans_items (Nat.lt_succ_self _)

end TreeWalk.Scanner
