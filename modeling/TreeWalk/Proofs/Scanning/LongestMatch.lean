import Mathlib.Data.List.Infix
import TreeWalk.Token.Scanner

/-!
# Longest matches

`Matches` says which pieces of text are blank space, comments or tokens.  A text is taken apart by
its longest matches, one after the other, and a character at which nothing matches is a mistake.
This takes each text apart in one way only.
-/

set_option autoImplicit false

namespace TreeWalk.Lexical

/-! ## Pieces of text -/

def blanks : List Char := [' ', '\r', '\t', '\n']

def operators : List (List Char × Kind) :=
  [(['('], .leftParen), ([')'], .rightParen), (['{'], .leftBrace), (['}'], .rightBrace),
    ([','], .comma), (['.'], .dot), (['-'], .minus), (['+'], .plus), ([';'], .semicolon),
    (['*'], .star), (['/'], .slash), (['!'], .bang), (['!', '='], .bangEqual), (['='], .equal),
    (['=', '='], .equalEqual), (['<'], .less), (['<', '='], .lessEqual), (['>'], .greater),
    (['>', '='], .greaterEqual)]

def keywords : List (String × Kind) :=
  [("and", .keyAnd), ("class", .keyClass), ("else", .keyElse), ("false", .keyFalse),
    ("fun", .keyFun), ("for", .keyFor), ("if", .keyIf), ("nil", .keyNil), ("or", .keyOr),
    ("print", .keyPrint), ("return", .keyReturn), ("super", .keySuper), ("this", .keyThis),
    ("true", .keyTrue), ("var", .keyVar), ("while", .keyWhile)]

def wordKind (word : String) : Kind := (keywords.lookup word).getD .identifier

def Letter (char : Char) : Prop := char.isAlpha = true ∨ char = '_'

def Digits (piece : List Char) : Prop := piece ≠ [] ∧ ∀ char ∈ piece, char.isDigit = true

inductive Numeral : List Char → Prop where
  | whole {whole : List Char} (digits : Digits whole) : Numeral whole
  | fraction {whole fraction : List Char} (digits : Digits whole) (behind : Digits fraction) :
      Numeral (whole ++ '.' :: fraction)

inductive Reading where
  | dropped
  | token (kind : Kind) (literal : Option Literal)

/-- The piece of text is one of those that the language knows, with this reading. -/
inductive Matches : List Char → Reading → Prop where
  | blank {char : Char} (blank : char ∈ blanks) : Matches [char] .dropped
  | comment {body : List Char} (inside : '\n' ∉ body) : Matches ('/' :: '/' :: body) .dropped
  | operator {piece : List Char} {kind : Kind} (known : (piece, kind) ∈ operators) :
      Matches piece (.token kind none)
  | string {body : List Char} (inside : '"' ∉ body) :
      Matches ('"' :: (body ++ ['"'])) (.token .string (some (.text (String.ofList body))))
  | number {piece : List Char} {value : Float} (numeral : Numeral piece)
      (reads : Number.Numeral.read? (String.ofList piece) = some value) :
      Matches piece (.token .number (some (.number value)))
  | word {first : Char} {rest : List Char} (begins : Letter first)
      (continues : ∀ char ∈ rest, Letter char ∨ char.isDigit = true) :
      Matches (first :: rest) (.token (wordKind (String.ofList (first :: rest))) none)

structure Longest (text piece : List Char) (reading : Reading) : Prop where
  front : piece <+: text
  found : Matches piece reading
  longest : ∀ other another, other <+: text → Matches other another →
    other.length ≤ piece.length

def Unmatched (text : List Char) : Prop := ∀ piece reading, piece <+: text → ¬ Matches piece reading

/-! ## Taking a text apart -/

structure Place where
  offset : Nat
  line : Nat

def Place.behind (place : Place) (piece : List Char) : Place where
  offset := place.offset + (String.ofList piece).utf8ByteSize
  line := place.line + piece.count '\n'

def Place.span (place : Place) (piece : List Char) : Span :=
  ⟨place.offset, (place.behind piece).offset⟩

/-- The text that stands at the place is taken apart into these items. -/
inductive Tokenizes : Place → List Char → List Scanner.Item → Prop where
  | ending {place : Place} : Tokenizes place [] [.ok (Token.ending place.line place.offset)]
  | dropped {place : Place} {text piece : List Char} {items : List Scanner.Item}
      (longest : Longest text piece .dropped)
      (behind : Tokenizes (place.behind piece) (text.drop piece.length) items) :
      Tokenizes place text items
  | token {place : Place} {text piece : List Char} {kind : Kind} {literal : Option Literal}
      {items : List Scanner.Item} (longest : Longest text piece (.token kind literal))
      (behind : Tokenizes (place.behind piece) (text.drop piece.length) items) :
      Tokenizes place text
        (.ok ⟨kind, String.ofList piece, literal, place.line, place.span piece⟩ :: items)
  | unterminated {place : Place} {rest : List Char} {items : List Scanner.Item}
      (nothing : Unmatched ('"' :: rest))
      (behind : Tokenizes (place.behind ('"' :: rest)) [] items) :
      Tokenizes place ('"' :: rest) (.error ⟨.unterminatedString, place.span ('"' :: rest),
        (place.behind ('"' :: rest)).line⟩ :: items)
  | unexpected {place : Place} {char : Char} {rest : List Char} {items : List Scanner.Item}
      (nothing : Unmatched (char :: rest)) (other : char ≠ '"')
      (behind : Tokenizes (place.behind [char]) rest items) :
      Tokenizes place (char :: rest)
        (.error ⟨.unexpectedCharacter char, place.span [char], place.line⟩ :: items)

/-! ## Beginnings -/

inductive Beginning where
  | blank
  | mark
  | quote
  | digit
  | letter
  deriving DecidableEq

def marks : List Char :=
  ['(', ')', '{', '}', ',', '.', '-', '+', ';', '*', '/', '!', '=', '<', '>']

/-- What a piece of text is can be told from its first character, but for a slash. -/
def beginning? (char : Char) : Option Beginning :=
  if char ∈ blanks then some .blank
  else if char ∈ marks then some .mark
  else if char = '"' then some .quote
  else if char.isDigit then some .digit
  else if char.isAlpha || char = '_' then some .letter
  else none

theorem beginning?_blank {char : Char} (blank : char ∈ blanks) :
    beginning? char = some .blank := if_pos blank

theorem special_plain {char : Char} (special : char ∈ blanks ++ marks ++ ['"']) :
    char.isDigit = false ∧ char.isAlpha = false ∧ char ≠ '_' := by
  have plain : (blanks ++ marks ++ ['"']).all
      fun char => !char.isDigit && !char.isAlpha && char != '_' := by decide
  have this := List.all_eq_true.mp plain char special
  simp only [Bool.and_eq_true, Bool.not_eq_true', bne_iff_ne] at this
  exact ⟨this.1.1, this.1.2, this.2⟩

theorem isDigit_of_isAlpha {char : Char} (alpha : char.isAlpha = true) : char.isDigit = false := by
  rw [← Bool.not_eq_true]
  intro digit
  obtain ⟨-, last⟩ := Char.isDigit_iff_toNat.mp digit
  have first : 'A'.toNat ≤ char.toNat := by
    rcases (Bool.or_eq_true _ _).mp alpha with upper | lower
    · exact (of_decide_eq_true upper).1
    · have small : 'a'.toNat ≤ char.toNat :=
        of_decide_eq_true ((Bool.and_eq_true _ _).mp lower).1
      exact Nat.le_trans (by decide) small
  exact absurd (Nat.le_trans first last) (by decide)

theorem beginning?_plain {char : Char} (plain : char ∉ blanks ++ marks ++ ['"']) :
    beginning? char = if char.isDigit then some .digit
      else if char.isAlpha || char = '_' then some .letter else none := by
  simp only [List.mem_append, List.mem_singleton, not_or] at plain
  simp only [beginning?, plain, if_false]

theorem beginning?_digit {char : Char} (digit : char.isDigit = true) :
    beginning? char = some .digit := by
  rw [beginning?_plain fun member => by simp [special_plain member] at digit, if_pos digit]

theorem beginning?_letter {char : Char} (letter : Letter char) :
    beginning? char = some .letter := by
  have plain : char ∉ blanks ++ marks ++ ['"'] := by
    intro member
    have special := special_plain member
    rcases letter with alpha | underscore
    · simp [alpha] at special
    · exact special.2.2 underscore
  rw [beginning?_plain plain]
  rcases letter with alpha | rfl
  · simp [alpha, isDigit_of_isAlpha alpha]
  · decide

/-- What the beginning of a piece says about it. -/
def Explains (char : Char) (rest : List Char) (reading : Reading) : Option Beginning → Prop
  | some .blank => rest = [] ∧ reading = .dropped
  | some .mark => (∃ kind, (char :: rest, kind) ∈ operators ∧ reading = .token kind none) ∨
      char = '/' ∧ ∃ body, rest = '/' :: body ∧ '\n' ∉ body ∧ reading = .dropped
  | some .quote => ∃ body, rest = body ++ ['"'] ∧ '"' ∉ body ∧
      reading = .token .string (some (.text (String.ofList body)))
  | some .digit => Numeral (char :: rest) ∧ ∃ value,
      Number.Numeral.read? (String.ofList (char :: rest)) = some value ∧
        reading = .token .number (some (.number value))
  | some .letter => (∀ other ∈ rest, Letter other ∨ other.isDigit = true) ∧
      reading = .token (wordKind (String.ofList (char :: rest))) none
  | none => False

theorem operators_mark : ∀ entry ∈ operators,
    (entry.1.head?.bind beginning?) = some .mark := by decide

theorem Numeral.head {char : Char} {rest : List Char} (numeral : Numeral (char :: rest)) :
    char.isDigit = true := by
  generalize same : char :: rest = piece at numeral
  cases numeral with
  | whole digits =>
      subst same
      exact digits.2 char List.mem_cons_self
  | @fraction whole _ digits _ =>
      cases whole with
      | nil => exact absurd rfl digits.1
      | cons first whole =>
          obtain ⟨rfl, -⟩ := List.cons.inj same
          exact digits.2 char List.mem_cons_self

theorem Matches.explains {char : Char} {rest : List Char} {reading : Reading}
    (found : Matches (char :: rest) reading) : Explains char rest reading (beginning? char) := by
  cases found with
  | blank blank =>
      rw [beginning?_blank blank]
      exact ⟨rfl, rfl⟩
  | comment inside =>
      exact Or.inr ⟨rfl, _, rfl, inside, rfl⟩
  | operator known =>
      have mark : beginning? char = some .mark := operators_mark _ known
      rw [mark]
      exact Or.inl ⟨_, known, rfl⟩
  | string inside => exact ⟨_, rfl, inside, rfl⟩
  | number numeral reads =>
      rw [beginning?_digit numeral.head]
      exact ⟨numeral, _, reads, rfl⟩
  | word begins continues =>
      rw [beginning?_letter begins]
      exact ⟨continues, rfl⟩

/-! ## One way only -/

theorem Numeral.ne_nil {piece : List Char} (numeral : Numeral piece) : piece ≠ [] := by
  cases numeral with
  | whole digits => exact digits.1
  | fraction => simp

theorem not_matches_nil {reading : Reading} : ¬ Matches [] reading := by
  intro found
  generalize same : ([] : List Char) = piece at found
  cases found with
  | operator known =>
      subst same
      cases operators_mark _ known
  | number numeral => exact numeral.ne_nil same.symm
  | _ => cases same

theorem operators_functional : ∀ first ∈ operators, ∀ second ∈ operators,
    first.1 = second.1 → first.2 = second.2 := by decide

theorem operators_second : ∀ entry ∈ operators, entry.1[1]? ≠ some '/' := by decide

/-- A piece of text has one reading. -/
theorem Matches.unique {piece : List Char} {first second : Reading} (one : Matches piece first)
    (other : Matches piece second) : first = second := by
  cases piece with
  | nil => exact absurd one not_matches_nil
  | cons char rest =>
      have left := one.explains
      have right := other.explains
      cases start : beginning? char with
      | none =>
          rw [start] at left
          exact left.elim
      | some beginning =>
          rw [start] at left right
          cases beginning with
          | blank => rw [left.2, right.2]
          | mark =>
              rcases left with ⟨kind, known, rfl⟩ | ⟨-, body, rfl, -, rfl⟩
              · rcases right with ⟨another, again, rfl⟩ | ⟨-, body, rfl, -, rfl⟩
                · have same : kind = another := operators_functional _ known _ again rfl
                  rw [same]
                · exact absurd rfl (operators_second _ known)
              · rcases right with ⟨another, again, rfl⟩ | ⟨-, -, -, -, rfl⟩
                · exact absurd rfl (operators_second _ again)
                · rfl
          | quote =>
              obtain ⟨body, rfl, -, rfl⟩ := left
              obtain ⟨other, same, -, rfl⟩ := right
              rw [List.append_cancel_right same]
          | digit =>
              obtain ⟨-, value, reads, rfl⟩ := left
              obtain ⟨-, other, again, rfl⟩ := right
              rw [reads] at again
              rw [Option.some.inj again]
          | letter => rw [left.2, right.2]

theorem Longest.unique {text piece other : List Char} {reading another : Reading}
    (longest : Longest text piece reading) (again : Longest text other another) :
    piece = other ∧ reading = another := by
  have same : piece = other := by
    refine (List.prefix_of_prefix_length_le longest.front again.front ?_).eq_of_length_le ?_
    · exact again.longest piece reading longest.front longest.found
    · exact longest.longest other another again.front again.found
  subst same
  exact ⟨rfl, longest.found.unique again.found⟩

theorem Longest.not_unmatched {text piece : List Char} {reading : Reading}
    (longest : Longest text piece reading) (nothing : Unmatched text) : False :=
  nothing piece reading longest.front longest.found

theorem Longest.text_ne_nil {text piece : List Char} {reading : Reading}
    (longest : Longest text piece reading) : text ≠ [] := by
  rintro rfl
  have found := longest.found
  rw [List.prefix_nil.mp longest.front] at found
  exact not_matches_nil found

theorem Tokenizes.unique {place : Place} {text : List Char} {items others : List Scanner.Item}
    (one : Tokenizes place text items) (other : Tokenizes place text others) : items = others := by
  induction one generalizing others with
  | ending =>
      generalize same : ([] : List Char) = text at other
      cases other with
      | ending => rfl
      | dropped longest => exact absurd same.symm longest.text_ne_nil
      | token longest => exact absurd same.symm longest.text_ne_nil
      | unterminated => cases same
      | unexpected => cases same
  | dropped longest behind ih =>
      cases other with
      | ending => exact absurd rfl longest.text_ne_nil
      | dropped again behind =>
          obtain ⟨rfl, -⟩ := longest.unique again
          exact ih behind
      | token again => cases (longest.unique again).2
      | unterminated nothing => exact (longest.not_unmatched nothing).elim
      | unexpected nothing => exact (longest.not_unmatched nothing).elim
  | token longest behind ih =>
      cases other with
      | ending => exact absurd rfl longest.text_ne_nil
      | dropped again => cases (longest.unique again).2
      | token again behind =>
          obtain ⟨rfl, same⟩ := longest.unique again
          cases same
          rw [ih behind]
      | unterminated nothing => exact (longest.not_unmatched nothing).elim
      | unexpected nothing => exact (longest.not_unmatched nothing).elim
  | unterminated nothing behind ih =>
      generalize same : '"' :: _ = text at other
      cases other with
      | ending => cases same
      | dropped longest =>
          subst same
          exact (longest.not_unmatched nothing).elim
      | token longest =>
          subst same
          exact (longest.not_unmatched nothing).elim
      | unterminated again behind =>
          cases same
          rw [ih behind]
      | unexpected again unquoted =>
          cases same
          exact absurd rfl unquoted
  | unexpected nothing unquoted behind ih =>
      generalize same : _ :: _ = text at other
      cases other with
      | ending => cases same
      | dropped longest =>
          subst same
          exact (longest.not_unmatched nothing).elim
      | token longest =>
          subst same
          exact (longest.not_unmatched nothing).elim
      | unterminated again behind =>
          cases same
          exact absurd rfl unquoted
      | unexpected again unquoted behind =>
          cases same
          rw [ih behind]

end TreeWalk.Lexical
