import TreeWalk.Proofs.Scanning.SourceText
import TreeWalk.Proofs.Scanning.Tokenization

/-!
# Scanning restarts at a line break

Nothing but a string goes on behind a line break.  So two texts with a line break between them are
taken apart like the two texts alone, if the first one does not end inside a string, and the
places in the second text move by what stands before it.
-/

set_option autoImplicit false

namespace TreeWalk

/-! ## Moving places -/

/-- How far a text stands behind the beginning of a source. -/
structure Displacement where
  bytes : Nat
  lines : Nat

/-- Behind this text and a line break. -/
def Displacement.behind (text : String) : Displacement where
  bytes := text.utf8ByteSize + 1
  lines := 1 + text.toList.count '\n'

def Span.moved (span : Span) (way : Displacement) : Span :=
  ⟨span.start + way.bytes, span.stop + way.bytes⟩

def Token.moved (token : Token) (way : Displacement) : Token :=
  { token with line := token.line + way.lines, span := token.span.moved way }

def LexicalError.moved (error : LexicalError) (way : Displacement) : LexicalError :=
  { error with line := error.line + way.lines, span := error.span.moved way }

def Scanner.Item.moved (way : Displacement) : Item → Item
  | .ok token => .ok (token.moved way)
  | .error error => .error (error.moved way)

namespace Lexical

open Scanner (Item)

def Place.moved (place : Place) (way : Displacement) : Place :=
  ⟨place.offset + way.bytes, place.line + way.lines⟩

theorem Place.behind_moved (place : Place) (way : Displacement) (piece : List Char) :
    (place.moved way).behind piece = (place.behind piece).moved way := by
  simp only [Place.moved, Place.behind, Nat.add_right_comm]

theorem Place.span_moved (place : Place) (way : Displacement) (piece : List Char) :
    (place.moved way).span piece = (place.span piece).moved way := by
  rw [Place.span, behind_moved]
  rfl

theorem Place.behind_append (place : Place) (early late : List Char) :
    place.behind (early ++ late) = (place.behind early).behind late := by
  simp only [Place.behind, Scanner.utf8ByteSize_ofList_append, List.count_append, Nat.add_assoc]

theorem Place.moved_behind (text : String) :
    Place.moved ⟨0, 1⟩ (.behind text) = (Place.behind ⟨0, 1⟩ text.toList).behind ['\n'] := by
  have one : (String.ofList ['\n']).utf8ByteSize = 1 := by decide
  simp only [Place.moved, Displacement.behind, Place.behind, String.ofList_toList, one,
    List.count_singleton_self, Nat.zero_add, Nat.add_comm]

theorem Tokenizes.moved {place : Place} {text : List Char} {items : List Item}
    (tokenizes : Tokenizes place text items) (way : Displacement) :
    Tokenizes (place.moved way) text (items.map (Item.moved way)) := by
  induction tokenizes with
  | ending => exact .ending
  | dropped longest _ ih =>
      rw [← Place.behind_moved] at ih
      exact .dropped longest ih
  | token longest _ ih =>
      rw [← Place.behind_moved] at ih
      rw [List.map_cons, Item.moved, Token.moved, ← Place.span_moved]
      exact .token longest ih
  | unterminated nothing _ ih =>
      rw [← Place.behind_moved] at ih
      have whole := Tokenizes.unterminated nothing ih
      rwa [Place.span_moved, Place.behind_moved] at whole
  | unexpected nothing other _ ih =>
      rw [← Place.behind_moved] at ih
      rw [List.map_cons, Item.moved, LexicalError.moved, ← Place.span_moved]
      exact .unexpected nothing other ih

/-! ## Pieces that go on behind blank space -/

theorem Numeral.digit_or_point {piece : List Char} (numeral : Numeral piece) {char : Char}
    (member : char ∈ piece) : char.isDigit = true ∨ char = '.' := by
  cases numeral with
  | whole digits => exact Or.inl (digits.2 char member)
  | fraction digits behind =>
      rcases List.mem_append.mp member with front | back
      · exact Or.inl (digits.2 char front)
      · rcases List.mem_cons.mp back with point | back
        · exact Or.inr point
        · exact Or.inl (behind.2 char back)

theorem operators_unbroken : ∀ entry ∈ operators, ∀ blank ∈ blanks, blank ∉ entry.1 := by
  have unbroken : ∀ entry ∈ operators, blanks.all (· ∉ entry.1) = true := by decide
  simpa only [List.all_eq_true, decide_eq_true_eq] using unbroken

/-- A piece that goes on behind blank space is a string or a comment. -/
theorem Matches.of_blank_inside {first blank : Char} {rest : List Char} {reading : Reading}
    (found : Matches (first :: rest) reading) (known : blank ∈ blanks) (inside : blank ∈ rest) :
    first = '"' ∨ first = '/' ∧ ∃ body, rest = '/' :: body ∧ '\n' ∉ body := by
  obtain ⟨digit, alpha, underscore⟩ :=
    special_plain (List.mem_append_left ['"'] (List.mem_append_left marks known))
  cases found with
  | blank => cases inside
  | comment apart => exact Or.inr ⟨rfl, _, rfl, apart⟩
  | operator among =>
      exact absurd (List.mem_cons_of_mem first inside) (operators_unbroken _ among blank known)
  | string => exact Or.inl rfl
  | number numeral =>
      rcases numeral.digit_or_point (List.mem_cons_of_mem first inside) with isDigit | rfl
      · simp [digit] at isDigit
      · exact absurd known (by decide)
  | word _ continues =>
      rcases continues blank inside with (isAlpha | rfl) | isDigit
      · simp [alpha] at isAlpha
      · exact absurd rfl underscore
      · simp [digit] at isDigit

theorem Matches.quote_of_lineBreak {first : Char} {rest : List Char} {reading : Reading}
    (found : Matches (first :: rest) reading) (inside : '\n' ∈ rest) : first = '"' := by
  rcases found.of_blank_inside (by decide) inside with quote | ⟨-, body, rfl, apart⟩
  · exact quote
  · rcases List.mem_cons.mp inside with slash | inside
    · cases slash
    · exact absurd inside apart

section Extended

variable {text more : List Char}

/-- Only a string can match beyond the text in front of a line break. -/
theorem inside_or_quote {first : Char} {rest piece : List Char} {reading : Reading}
    (front : piece <+: (first :: rest) ++ '\n' :: more) (found : Matches piece reading) :
    piece <+: first :: rest ∨ first = '"' := by
  rcases List.prefix_or_prefix_of_prefix front (List.prefix_append _ _) with inside | ⟨behind, rfl⟩
  · exact Or.inl inside
  · cases behind with
    | nil =>
        rw [List.append_nil]
        exact Or.inl (List.prefix_refl _)
    | cons char behind =>
        obtain ⟨rfl, -⟩ := List.cons_prefix_cons.mp ((List.prefix_append_right_inj _).mp front)
        exact Or.inr (found.quote_of_lineBreak (List.mem_append_right _ List.mem_cons_self))

theorem Unmatched.extend {first : Char} {rest : List Char} (nothing : Unmatched (first :: rest))
    (other : first ≠ '"') : Unmatched ((first :: rest) ++ '\n' :: more) := by
  intro piece reading front found
  rcases inside_or_quote front found with inside | quote
  · exact nothing piece reading inside found
  · exact other quote

theorem Longest.extend {piece : List Char} {reading : Reading}
    (longest : Longest text piece reading) : Longest (text ++ '\n' :: more) piece reading := by
  cases text with
  | nil => exact absurd rfl longest.text_ne_nil
  | cons first rest =>
      -- a string ends at its quote whatever follows; nothing else goes beyond a line break
      by_cases quote : first = '"'
      · subst quote
        obtain ⟨behind, whole⟩ := longest.front
        cases piece with
        | nil => exact absurd longest.found not_matches_nil
        | cons char inner =>
            obtain ⟨rfl, -⟩ := List.cons.inj whole
            obtain ⟨body, rfl, closed, rfl⟩ := longest.found.explains
            have same : '"' :: (body ++ ['"']) ++ behind ++ '\n' :: more =
                '"' :: (body ++ '"' :: (behind ++ '\n' :: more)) := by simp
            rw [← whole, same]
            exact longest_string closed
      · refine ⟨longest.front.trans (List.prefix_append _ _), longest.found, ?_⟩
        intro other another front found
        rcases inside_or_quote front found with inside | quoted
        · exact longest.longest other another inside found
        · exact absurd quoted quote

end Extended

/-! ## Two texts -/

theorem Matches.kind_ne_eof {piece : List Char} {kind : Kind} {literal : Option Literal}
    (found : Matches piece (.token kind literal)) : kind ≠ .eof := by
  have operator : ∀ entry ∈ operators, entry.2 ≠ .eof := by decide
  have keyword : ∀ entry ∈ keywords, entry.2 ≠ .eof := by decide
  cases found with
  | operator known => exact operator _ known
  | string | number => exact Kind.noConfusion
  | word =>
      unfold wordKind
      rw [← ofWord?_eq_lookup]
      exact Scanner.ofWord?_ne_eof _

theorem Longest.behind {text piece : List Char} {reading : Reading}
    (longest : Longest text piece reading) (place : Place) :
    (place.behind piece).behind (text.drop piece.length) = place.behind text := by
  rw [← Place.behind_append]
  exact congrArg place.behind (List.prefix_append_drop longest.front).symm

theorem Longest.drop_append {text piece : List Char} {reading : Reading}
    (longest : Longest text piece reading) (more : List Char) :
    (text ++ more).drop piece.length = text.drop piece.length ++ more :=
  List.drop_append_of_le_length longest.front.length_le

/-- The items of a text in front of its end token.  They are the same when a line break and more
text come behind it, and the items of that text follow them. -/
structure Joins (place : Place) (text : List Char) (front : List Item) : Prop where
  inner : ∀ token, .ok token ∈ front → token.kind ≠ .eof
  joined : ∀ more others, Tokenizes ((place.behind text).behind ['\n']) more others →
    Tokenizes place (text ++ '\n' :: more) (front ++ others)

theorem Tokenizes.joins {place : Place} {text : List Char} {items : List Item}
    (tokenizes : Tokenizes place text items)
    (closed : ∀ error, .error error ∈ items → error.cause ≠ .unterminatedString) :
    ∃ front ending, items = front ++ [.ok ending] ∧ ending.kind = .eof ∧
      Joins place text front := by
  induction tokenizes with
  | @ending place =>
      refine ⟨[], _, rfl, rfl, by simp, ?_⟩
      intro more others behind
      -- where the end token stood the line break is dropped
      exact .dropped (longest_blank (by decide) more) behind
  | @dropped place text piece items longest _ ih =>
      obtain ⟨front, ending, rfl, last, joins⟩ := ih closed
      refine ⟨front, ending, rfl, last, joins.inner, ?_⟩
      intro more others behind
      rw [← longest.behind] at behind
      have joined := joins.joined more others behind
      rw [← longest.drop_append] at joined
      exact .dropped longest.extend joined
  | @token place text piece kind literal items longest _ ih =>
      obtain ⟨front, ending, rfl, last, joins⟩ :=
        ih fun error member => closed error (List.mem_cons_of_mem _ member)
      refine ⟨_ :: front, ending, rfl, last, ?_, ?_⟩
      · intro token member
        rcases List.mem_cons.mp member with same | member
        · cases same
          exact longest.found.kind_ne_eof
        · exact joins.inner token member
      · intro more others behind
        rw [← longest.behind] at behind
        have joined := joins.joined more others behind
        rw [← longest.drop_append] at joined
        exact .token longest.extend joined
  | unterminated nothing => exact absurd rfl (closed _ List.mem_cons_self)
  | @unexpected place char rest items nothing other _ ih =>
      obtain ⟨front, ending, rfl, last, joins⟩ :=
        ih fun error member => closed error (List.mem_cons_of_mem _ member)
      refine ⟨_ :: front, ending, rfl, last, ?_, ?_⟩
      · intro token member
        rcases List.mem_cons.mp member with same | member
        · cases same
        · exact joins.inner token member
      · intro more others behind
        have same := place.behind_append [char] rest
        rw [List.singleton_append] at same
        rw [same] at behind
        exact .unexpected (nothing.extend other) other (joins.joined more others behind)

end Lexical

/-! ## Scans of two texts -/

open Scanner (Item)

namespace Scan

theorem ofItems_append (front back : List Item) :
    ofItems (front ++ back) =
      ⟨(ofItems front).tokens ++ (ofItems back).tokens,
        (ofItems front).errors ++ (ofItems back).errors⟩ := by
  simp only [ofItems, List.filterMap_append]

theorem ofItems_moved (way : Displacement) (items : List Item) :
    ofItems (items.map (Item.moved way)) =
      ⟨(ofItems items).tokens.map (·.moved way), (ofItems items).errors.map (·.moved way)⟩ := by
  induction items with
  | nil => rfl
  | cons item rest ih =>
      obtain ⟨tokens, errors⟩ := Scan.mk.inj ih
      cases item with
      | ok token => exact congrArg₂ Scan.mk (congrArg (token.moved way :: ·) tokens) errors
      | error error => exact congrArg₂ Scan.mk tokens (congrArg (error.moved way :: ·) errors)

theorem mem_errors {items : List Item} {error : LexicalError} :
    error ∈ (ofItems items).errors ↔ .error error ∈ items := by
  unfold ofItems
  rw [List.mem_filterMap]
  constructor
  · rintro ⟨item, member, found⟩
    cases item with
    | ok token => cases found
    | error other =>
        cases found
        exact member
  · exact fun member => ⟨.error error, member, rfl⟩

/-- A text that does not end inside a string has an end token behind its other tokens.  If a line
break and a second text follow, the tokens of the second text take its place, and the mistakes of
both texts stand one behind the other. -/
theorem join {first : String}
    (closed : ∀ error ∈ (ofSource first).errors, error.cause ≠ .unterminatedString) :
    ∃ front ending, (ofSource first).tokens = front ++ [ending] ∧ ending.kind = .eof ∧
      (∀ token ∈ front, token.kind ≠ .eof) ∧
      ∀ second : String, ofSource (first ++ "\n" ++ second) =
        ⟨front ++ (ofSource second).tokens.map (·.moved (.behind first)),
          (ofSource first).errors ++ (ofSource second).errors.map (·.moved (.behind first))⟩ := by
  obtain ⟨front, ending, items, last, joins⟩ :=
    (Lexical.tokenizes_ofSource first).joins
      fun error member => closed error (mem_errors.mpr member)
  have one : ofSource first =
      ⟨(ofItems front).tokens ++ [ending], (ofItems front).errors ++ []⟩ := by
    rw [ofSource, items, ofItems_append]
    rfl
  rw [one]
  refine ⟨(ofItems front).tokens, ending, rfl, last, ?_, fun second => ?_⟩
  · exact fun token member => joins.inner token (Scanner.mem_tokens.mp member)
  have behind := (Lexical.tokenizes_ofSource second).moved (.behind first)
  rw [Lexical.Place.moved_behind] at behind
  have whole := joins.joined _ _ behind
  have text : first.toList ++ '\n' :: second.toList = (first ++ "\n" ++ second).toList := by simp
  rw [text] at whole
  have same := whole.unique (Lexical.tokenizes_ofSource (first ++ "\n" ++ second))
  rw [ofSource, ← same, ofItems_append, ofItems_moved, List.append_nil]
  rfl

/-- Behind a text that does not end inside a string, a line break and a second text: the tokens are
those of the first text without its end token and then those of the second, the mistakes are those
of the one and then of the other, and what belongs to the second text has moved behind the break. -/
theorem ofSource_append_line {first : String}
    (closed : ∀ error ∈ (ofSource first).errors, error.cause ≠ .unterminatedString)
    (second : String) :
    ofSource (first ++ "\n" ++ second) =
      ⟨(ofSource first).tokens.filter (fun token => !token.isEnd) ++
          (ofSource second).tokens.map (·.moved (.behind first)),
        (ofSource first).errors ++ (ofSource second).errors.map (·.moved (.behind first))⟩ := by
  obtain ⟨front, ending, tokens, last, inner, joined⟩ := join closed
  have kept : front.filter (fun token => !token.isEnd) = front := by
    refine List.filter_eq_self.mpr fun token member => ?_
    simpa [Token.isEnd] using inner token member
  have dropped : [ending].filter (fun token => !token.isEnd) = [] := by
    simp [Token.isEnd, last]
  rw [joined second, tokens, List.filter_append, kept, dropped, List.append_nil]

/-- A point and a slash at the end of the first text take nothing from behind the break. -/
theorem ofSource_append_line_slash :
    (∀ error ∈ (ofSource "é // y\nx. /").errors, error.cause ≠ .unterminatedString) ∧
      ofSource ("é // y\nx. /" ++ "\n" ++ "/@") =
        ⟨[⟨.identifier, "x", none, 2, ⟨8, 9⟩⟩, ⟨.dot, ".", none, 2, ⟨9, 10⟩⟩,
            ⟨.slash, "/", none, 2, ⟨11, 12⟩⟩, ⟨.slash, "/", none, 3, ⟨13, 14⟩⟩, .ending 3 15],
          [⟨.unexpectedCharacter 'é', ⟨0, 2⟩, 1⟩, ⟨.unexpectedCharacter '@', ⟨14, 15⟩, 3⟩]⟩ := by
  have closed : ∀ error ∈ (ofSource "é // y\nx. /").errors, error.cause ≠ .unterminatedString := by
    decide
  have whole := ofSource_append_line closed "/@"
  exact ⟨closed, whole.trans (by decide)⟩

end Scan

end TreeWalk
