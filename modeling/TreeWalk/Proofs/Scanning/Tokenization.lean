import TreeWalk.Proofs.Scanning.Numerals
import TreeWalk.Proofs.Scanning.SourceText

/-!
# A run takes the text apart by longest matches

Where neither blank space nor a comment stands in front, `Scanner.shape` describes the longest match
or tells rightly that there is none.  So a run follows the longest matches through the text.
-/

set_option autoImplicit false

namespace TreeWalk.Lexical

open Scanner

/-! ## Shapes -/

def Describes (first : Char) (chars : List Char) : Shape → Prop
  | .lexeme kind size => Longest (first :: chars) ((first :: chars).take size)
      (.token kind (literal? kind ((first :: chars).take size)))
  | .unterminated => first = '"' ∧ Unmatched (first :: chars)
  | .unexpected found => found = first ∧ first ≠ '"' ∧ Unmatched (first :: chars)

theorem describes_lexeme {first : Char} {chars piece : List Char} {kind : Kind} {size : Nat}
    (taken : chars.take size = piece)
    (longest : Longest (first :: chars) (first :: piece)
      (.token kind (literal? kind (first :: piece)))) :
    Describes first chars (.lexeme kind (size + 1)) := by
  subst taken
  exact longest

theorem literal?_plain {kind : Kind} (plain : kind ≠ .number ∧ kind ≠ .string)
    (lexeme : List Char) : literal? kind lexeme = none := by
  obtain ⟨number, string⟩ := plain
  unfold literal?
  split
  · exact absurd rfl number
  · exact absurd rfl string
  · rfl

theorem literal?_operator {piece : List Char} {kind : Kind} (known : (piece, kind) ∈ operators)
    (lexeme : List Char) : literal? kind lexeme = none := by
  have plain : ∀ entry ∈ operators, entry.2 ≠ .number ∧ entry.2 ≠ .string := by decide
  exact literal?_plain (plain _ known) lexeme

theorem simple_describes {first : Char} {kind : Kind} {rest : List SourceChar}
    (simple : simpleKind? first = some kind) (outside : ¬ opensComment first rest) :
    Describes first (rest.map SourceChar.char) (.lexeme kind 1) := by
  refine describes_lexeme List.take_zero ?_
  rw [literal?_operator (simpleKind?_operator simple)]
  exact longest_simple simple (by simpa [opensComment] using outside)

theorem withEqual_describes {first : Char} {single double : Kind} (other : first ≠ '/')
    (one : ([first], single) ∈ operators) (two : ([first, '='], double) ∈ operators)
    (rest : List SourceChar) :
    Describes first (rest.map SourceChar.char) (withEqual single double rest) := by
  unfold withEqual
  split
  · next follows =>
      cases rest with
      | nil => cases follows
      | cons source rest =>
          obtain equal : source.char = '=' := Option.some.inj follows
          refine describes_lexeme (congrArg (fun char => [char]) equal) ?_
          rw [literal?_operator two, List.map_cons, equal]
          exact longest_double two other
  · next apart =>
      refine describes_lexeme List.take_zero ?_
      rw [literal?_operator one]
      exact longest_single one other (by simpa using apart)

theorem stringShape_describes (rest : List SourceChar) :
    Describes '"' (rest.map SourceChar.char) (stringShape rest) := by
  generalize body : rest.takeWhile (·.char ≠ '"') = inner
  have inside : '"' ∉ inner.map SourceChar.char := by
    intro member
    obtain ⟨source, among, same⟩ := List.mem_map.mp member
    rw [← body] at among
    have apart := List.mem_takeWhile_imp among
    simp [same] at apart
  have parts := List.takeWhile_append_dropWhile (p := (·.char ≠ '"')) (l := rest)
  rw [body] at parts
  unfold stringShape
  rw [body]
  split
  · next nothing =>
      rw [nothing, List.append_nil] at parts
      subst parts
      exact ⟨rfl, unmatched_quote inside⟩
  · next closing behind split =>
      have quote : closing.char = '"' := by
        have ends := List.head?_dropWhile_not (·.char ≠ '"') rest
        rw [split] at ends
        simpa using ends
      have chars : rest.map SourceChar.char =
          inner.map SourceChar.char ++ '"' :: behind.map SourceChar.char := by
        rw [← parts, split, List.map_append, List.map_cons, quote]
      have taken : (rest.map SourceChar.char).take (inner.length + 1) =
          inner.map SourceChar.char ++ ['"'] := by
        simp [chars, List.take_append]
      refine describes_lexeme taken ?_
      rw [chars]
      have value : literal? .string ('"' :: (inner.map SourceChar.char ++ ['"'])) =
          some (.text (String.ofList (inner.map SourceChar.char))) := by
        simp [literal?]
      rw [value]
      exact longest_string inside

theorem ofWord?_plain (word : String) (lexeme : List Char) :
    literal? ((Kind.ofWord? word).getD .identifier) lexeme = none := by
  have keyword : ∀ kind ∈ Kind.keywords, kind ≠ .number ∧ kind ≠ .string := by decide
  cases found : Kind.ofWord? word with
  | none => rfl
  | some kind => exact literal?_plain (keyword kind (List.mem_of_find?_eq_some found)) lexeme

theorem nameShape_describes {first : Char} (begins : Letter first) (rest : List SourceChar) :
    Describes first (rest.map SourceChar.char) (nameShape first rest) := by
  unfold nameShape
  dsimp only
  rw [Nat.add_comm, ← takeWhile_chars]
  refine describes_lexeme (take_takeWhile_chars isNamePart rest) ?_
  rw [ofWord?_plain, ofWord?_eq_lookup]
  exact longest_word begins

theorem number_describes {first : Char} (digit : first.isDigit = true) (rest : List SourceChar) :
    Describes first (rest.map SourceChar.char) (.lexeme .number (1 + numberTail rest)) := by
  obtain ⟨value, longest, reads⟩ := longest_number digit rest
  rw [Nat.add_comm]
  refine describes_lexeme rfl ?_
  simp only [literal?, reads, Option.getD_some]
  exact longest

theorem marks_operators {char : Char} (mark : char ∈ marks) :
    (simpleKind? char).isSome = true ∨ char ∈ ['!', '=', '<', '>'] := by
  have known : marks.all
      fun char => (simpleKind? char).isSome || ['!', '=', '<', '>'].contains char := by decide
  have this := List.all_eq_true.mp known char mark
  simpa using this

theorem shape_describes {first : Char} {rest : List SourceChar} (visible : isBlank first = false)
    (outside : ¬ opensComment first rest) :
    Describes first (rest.map SourceChar.char) (shape first rest) := by
  unfold shape
  split
  · next kind simple => exact simple_describes simple outside
  next other =>
  by_cases bang : first = '!'
  · subst bang
    exact withEqual_describes (by decide) (by decide) (by decide) rest
  by_cases equal : first = '='
  · subst equal
    exact withEqual_describes (by decide) (by decide) (by decide) rest
  by_cases less : first = '<'
  · subst less
    exact withEqual_describes (by decide) (by decide) (by decide) rest
  by_cases greater : first = '>'
  · subst greater
    exact withEqual_describes (by decide) (by decide) (by decide) rest
  by_cases quote : first = '"'
  · subst quote
    exact stringShape_describes rest
  by_cases digit : first.isDigit = true
  · simp only [bang, equal, less, greater, quote, digit, if_true, if_false]
    exact number_describes digit rest
  by_cases letter : isNameStart first = true
  · simp only [bang, equal, less, greater, quote, digit, letter, if_true, if_false]
    exact nameShape_describes (by simpa [isNameStart, Letter] using letter) rest
  simp only [bang, equal, less, greater, quote, digit, letter, if_false]
  have blank : first ∉ blanks := by
    intro member
    rw [isBlank_iff.mpr member] at visible
    cases visible
  have mark : first ∉ marks := by
    intro member
    rcases marks_operators member with simple | double
    · simp [other] at simple
    · simp [bang, equal, less, greater] at double
  have nothing : beginning? first = none := by
    simpa [beginning?, blank, mark, quote, digit, isNameStart] using letter
  refine ⟨rfl, quote, unmatched_of_explains ?_⟩
  intro rest another _ explains
  rw [nothing] at explains
  exact explains

/-! ## Blank space and comments -/

theorem longest_blank {first : Char} (blank : first ∈ blanks) (chars : List Char) :
    Longest (first :: chars) [first] .dropped := by
  refine longest_of_explains List.nil_prefix (.blank blank) ?_
  intro rest another _ explains
  rw [beginning?_blank blank] at explains
  rw [explains.1]

theorem longest_comment (rest : List SourceChar) :
    Longest ('/' :: '/' :: rest.map SourceChar.char)
      ('/' :: '/' :: (rest.map SourceChar.char).take (commentLength rest)) .dropped := by
  have body := take_takeWhile_chars (fun char => decide (char ≠ '\n')) rest
  unfold commentLength
  rw [body]
  have front := List.takeWhile_prefix (fun char => decide (char ≠ '\n'))
    (l := rest.map SourceChar.char)
  refine longest_of_explains (List.cons_prefix_cons.mpr ⟨rfl, front⟩) (.comment ?_) ?_
  · intro member
    simpa using List.mem_takeWhile_imp member
  · intro other another before explains
    have mark : beginning? '/' = some .mark := by decide
    rw [mark] at explains
    rcases explains with ⟨kind, known, -⟩ | ⟨-, body, rfl, inside, -⟩
    · have single := operators_simple _ known rfl
      simp_all
    · have most := length_le_takeWhile (List.cons_prefix_cons.mp before).2 (avoids inside)
      exact Nat.succ_le_succ most

/-! ## Runs -/

/-- The scanner stands at this place, with this text ahead. -/
structure Stands (scanner : Scanner) (place : Place) (text : List Char) : Prop where
  rest : scanner.rest = SourceChar.place place.offset text
  position : scanner.position = place.offset
  line : scanner.line = place.line

theorem take_place (offset : Nat) (text : List Char) (size : Nat) :
    (SourceChar.place offset text).take size = SourceChar.place offset (text.take size) := by
  induction text generalizing offset size with
  | nil => simp [SourceChar.place]
  | cons char text ih =>
      cases size with
      | zero => rfl
      | succ size => simp [SourceChar.place, ih]

theorem drop_place (offset : Nat) (text : List Char) (size : Nat) :
    (SourceChar.place offset text).drop size =
      SourceChar.place (offset + (String.ofList (text.take size)).utf8ByteSize)
        (text.drop size) := by
  induction text generalizing offset size with
  | nil => simp [SourceChar.place]
  | cons char text ih =>
      cases size with
      | zero => rfl
      | succ size =>
          rw [List.take_succ_cons, utf8ByteSize_ofList_cons, ← Nat.add_assoc]
          exact ih (offset + char.utf8Size) size

theorem Stands.advance {scanner : Scanner} {place : Place} {text : List Char}
    (stands : Stands scanner place text) (size : Nat) :
    Stands (scanner.advance size) (place.behind (text.take size)) (text.drop size) := by
  have rest : (scanner.advance size).rest =
      SourceChar.place (place.behind (text.take size)).offset (text.drop size) := by
    rw [rest_advance, stands.rest, drop_place]
    rfl
  refine ⟨rest, ?_, ?_⟩
  · cases ahead : text.drop size with
    | cons char more =>
        rw [ahead] at rest
        exact position_cons rest
    | nil =>
        rw [ahead] at rest
        have whole : text.take size = text :=
          List.take_of_length_le (List.drop_eq_nil_iff.mp ahead)
        have last := lastStop_place place.offset text
        have ends := stands.position
        rw [position_nil rest, whole]
        change ((scanner.rest.take size).getLast?.map SourceChar.stop).getD scanner.stop =
          place.offset + (String.ofList text).utf8ByteSize
        rw [stands.rest, take_place, whole, ← last]
        cases found : (SourceChar.place place.offset text).getLast? with
        | some source => rfl
        | none =>
            have nothing := stands.rest.trans (List.getLast?_eq_none_iff.mp found)
            rw [position_nil nothing] at ends
            exact ends
  · change scanner.line + lineBreaks (scanner.rest.take size) = _
    rw [stands.rest, stands.line, lineBreaks_eq_count, take_place, map_char_place]
    rfl

theorem Stands.ahead {scanner : Scanner} {place : Place} {text : List Char} {source : SourceChar}
    {rest : List SourceChar} (stands : Stands scanner place text)
    (ahead : scanner.rest = source :: rest) : text = source.char :: rest.map SourceChar.char := by
  rw [← map_char_place place.offset text, ← stands.rest, ahead]
  rfl

section Items

variable {scanner : Scanner} {place : Place} {text : List Char} (stands : Stands scanner place text)

include stands

theorem Stands.lexeme (kind : Kind) (size : Nat) :
    (scanner.takeShape (.lexeme kind size)).1 =
      .ok ⟨kind, String.ofList (text.take size), literal? kind (text.take size), place.line,
        place.span (text.take size)⟩ := by
  have read : (scanner.rest.take size).map SourceChar.char = text.take size := by
    rw [stands.rest, take_place, map_char_place]
  simp only [takeShape, takeToken, read, stands.line, stands.position,
    (stands.advance size).position]
  rfl

theorem Stands.unterminated :
    (scanner.takeShape .unterminated).1 =
      .error ⟨.unterminatedString, place.span text, (place.behind text).line⟩ := by
  have length : scanner.rest.length = text.length := by
    rw [stands.rest, length_place]
  have after := stands.advance text.length
  rw [List.take_length] at after
  simp only [takeShape, length, stands.position, after.position, after.line]
  rfl

theorem Stands.unexpected (found : Char) :
    (scanner.takeShape (.unexpected found)).1 =
      .error ⟨.unexpectedCharacter found, place.span (text.take 1), place.line⟩ := by
  simp only [takeShape, stands.position, stands.line, (stands.advance 1).position]
  rfl

end Items

theorem tokenizes_shape {scanner : Scanner} {place : Place} {first : Char} {chars : List Char}
    {shape : Shape} {items : List Item} (stands : Stands scanner place (first :: chars))
    (describes : Describes first chars shape) (sound : shape.Sound (chars.length + 1))
    (behind : Tokenizes (place.behind ((first :: chars).take (shape.size (chars.length + 1))))
      ((first :: chars).drop (shape.size (chars.length + 1))) items) :
    Tokenizes place (first :: chars) ((scanner.takeShape shape).1 :: items) := by
  cases shape with
  | lexeme kind size =>
      have length : ((first :: chars).take size).length = size := by
        rw [List.length_take]
        exact Nat.min_eq_left sound.2.2
      rw [stands.lexeme]
      apply Tokenizes.token describes
      rw [length]
      exact behind
  | unterminated =>
      obtain ⟨rfl, nothing⟩ := describes
      change Tokenizes (place.behind (('"' :: chars).take ('"' :: chars).length))
        (('"' :: chars).drop ('"' :: chars).length) items at behind
      rw [List.take_length, List.drop_length] at behind
      rw [stands.unterminated]
      exact .unterminated nothing behind
  | unexpected found =>
      obtain ⟨rfl, unquoted, nothing⟩ := describes
      rw [stands.unexpected]
      exact .unexpected nothing unquoted behind

theorem tokenizes_of_scans {scanner : Scanner} {items : List Item} (scans : Scans scanner items)
    {place : Place} {text : List Char} (stands : Stands scanner place text) :
    Tokenizes place text items := by
  induction scans generalizing place text with
  | ending nothing =>
      have text_nil : text = [] := by
        rw [← map_char_place place.offset text, ← stands.rest, nothing]
        rfl
      subst text_nil
      rw [stands.line, stands.position]
      exact .ending
  | blank ahead blank _ ih =>
      have behind := ih (stands.advance 1)
      obtain rfl := stands.ahead ahead
      exact .dropped (longest_blank (isBlank_iff.mp blank) _) behind
  | @comment _ first second rest _ ahead opens again _ ih =>
      have behind := ih (stands.advance (2 + commentLength rest))
      obtain rfl := stands.ahead ahead
      rw [List.map_cons, opens, again] at behind ⊢
      have most := commentLength_le rest
      have length : ((rest.map SourceChar.char).take (commentLength rest)).length =
          commentLength rest := by
        rw [List.length_take, List.length_map]
        exact Nat.min_eq_left most
      refine .dropped (longest_comment rest) ?_
      rw [Nat.add_comm 2] at behind
      rw [List.length_cons, List.length_cons, length]
      exact behind
  | @item scanner source rest items ahead visible outside _ ih =>
      have behind := ih (stands.advance _)
      obtain rfl := stands.ahead ahead
      have length : (rest.map SourceChar.char).length = rest.length := List.length_map _
      refine tokenizes_shape stands (shape_describes visible outside) ?_ ?_
      · rw [length]
        exact shape_sound source.char rest
      · rw [length]
        exact behind

theorem stands_ofSource (source : String) : Stands (ofSource source) ⟨0, 1⟩ source.toList := by
  refine ⟨rfl, ?_, rfl⟩
  unfold ofSource
  cases source.toList <;> rfl

theorem tokenizes_ofSource (source : String) :
    Tokenizes ⟨0, 1⟩ source.toList (ofSource source).all :=
  tokenizes_of_scans (scans_all _) (stands_ofSource source)

/-- A source text is taken apart by its longest matches in one way only, and a scan yields the
tokens and the mistakes of that way. -/
theorem tokenizes_iff (source : String) :
    (∀ items, Tokenizes ⟨0, 1⟩ source.toList items ↔ items = (ofSource source).all) ∧
      Scan.ofSource source = Scan.ofItems (ofSource source).all := by
  have run := tokenizes_ofSource source
  refine ⟨fun items => ⟨?_, ?_⟩, rfl⟩
  · exact fun tokenizes => tokenizes.unique run
  · rintro rfl
    exact run

end TreeWalk.Lexical
