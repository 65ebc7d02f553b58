import Mathlib.Data.List.Basic
import TreeWalk.Text.Quoted

/-!
# Forms in parentheses

A form is a word, or a head word with forms behind it in parentheses.  Its text can be read in one
way only: it tells the form, and also where the form ends if a space or a closing parenthesis
follows.  Spaces and parentheses in a quoted word do no harm, since each mark inside it is escaped.
-/

set_option autoImplicit false

namespace TreeWalk

theorem cut_inj {mark : Char} {text text' more more' : List Char} (inside : mark ∉ text)
    (inside' : mark ∉ text') (same : text ++ mark :: more = text' ++ mark :: more') :
    text = text' ∧ more = more' := by
  have cut {text more : List Char} (inside : mark ∉ text) :
      (text ++ mark :: more).takeWhile (· ≠ mark) = text := by
    rw [List.takeWhile_append_of_pos, List.takeWhile_cons_of_neg (by simp), List.append_nil]
    intro char member
    rw [decide_eq_true_iff]
    rintro rfl
    exact inside member
  obtain rfl : text = text' := by rw [← cut inside, same, cut inside']
  exact ⟨rfl, (List.cons.inj (List.append_cancel_left same)).2⟩

/-! ## Quoted text -/

namespace Text

/-- The letters behind a backslash that stand for one character each. -/
def letterEscapes : List (Char × Char) :=
  [('"', '"'), ('\\', '\\'), ('t', '\t'), ('r', '\r'), ('n', '\n'), ('0', '\x00')]

theorem letterEscapes_unique : ∀ one ∈ letterEscapes, ∀ other ∈ letterEscapes,
    one.1 = other.1 → one.2 = other.2 := by decide

theorem letterEscapes_letter : ∀ entry ∈ letterEscapes, entry.1 ≠ 'u' := by decide

/-- How a character can be written between quotation marks. -/
inductive Escaped (char : Char) : List Char → Prop where
  | plain (mark : char ≠ '"') (backslash : char ≠ '\\') : Escaped char [char]
  | letter {letter : Char} (known : (letter, char) ∈ letterEscapes) : Escaped char ['\\', letter]
  | numbered : Escaped char (numberedEscape char)

theorem escaped_escape (char : Char) : Escaped char (escape '"' char) := by
  unfold escape
  split
  · next special => rcases special with rfl | rfl <;> exact .letter (by decide)
  · next other =>
      obtain ⟨mark, backslash⟩ := not_or.mp other
      split_ifs with tab return_ newline null
      · subst tab
        exact .letter (by decide)
      · subst return_
        exact .letter (by decide)
      · subst newline
        exact .letter (by decide)
      · subst null
        exact .letter (by decide)
      · exact .plain mark backslash
      · exact .numbered

theorem exists_digitChar {number : Nat} {char : Char} (member : char ∈ Nat.toDigits 16 number) :
    ∃ digit, char = Nat.digitChar digit := by
  induction number using Nat.strongRecOn with
  | ind number ih =>
      rw [Nat.toDigits_eq_if (by decide)] at member
      split at member
      · exact ⟨number, List.mem_singleton.mp member⟩
      · rcases List.mem_append.mp member with member | member
        · exact ih (number / 16) (by omega) member
        · exact ⟨number % 16, List.mem_singleton.mp member⟩

theorem digitChar_inj : ∀ one < 16, ∀ other < 16,
    Nat.digitChar one = Nat.digitChar other → one = other := by decide

theorem toDigits_inj {one other : Nat} (same : Nat.toDigits 16 one = Nat.toDigits 16 other) :
    one = other := by
  induction one using Nat.strongRecOn generalizing other with
  | ind one ih =>
      rw [Nat.toDigits_eq_if (by decide), Nat.toDigits_eq_if (n := other) (by decide)] at same
      split at same <;> split at same
      · exact digitChar_inj one ‹_› other ‹_› (List.singleton_inj.mp same)
      · exact absurd (List.append_eq_singleton_iff.mp same.symm) (by simp [Nat.toDigits_ne_nil])
      · exact absurd (List.append_eq_singleton_iff.mp same) (by simp [Nat.toDigits_ne_nil])
      · obtain ⟨front, last⟩ := List.append_singleton_inj.mp same
        have upper := ih (one / 16) (by omega) front
        have lower := digitChar_inj _ (Nat.mod_lt _ (by decide)) _ (Nat.mod_lt _ (by decide)) last
        omega

theorem numberedEscape_append (char : Char) (more : List Char) : numberedEscape char ++ more =
    '\\' :: 'u' :: '{' :: (Nat.toDigits 16 char.toNat ++ '}' :: more) := by
  simp [numberedEscape]

theorem Escaped.append_inj {char char' : Char} {piece piece' more more' : List Char}
    (escaped : Escaped char piece) (escaped' : Escaped char' piece')
    (same : piece ++ more = piece' ++ more') : char = char' ∧ more = more' := by
  cases escaped with
  | plain mark backslash =>
      cases escaped' with
      | plain => exact List.cons.inj same
      | letter => exact absurd (List.cons.inj same).1 backslash
      | numbered =>
          rw [numberedEscape_append] at same
          exact absurd (List.cons.inj same).1 backslash
  | @letter letter known =>
      cases escaped' with
      | plain mark backslash => exact absurd (List.cons.inj same).1.symm backslash
      | letter known' =>
          obtain ⟨-, letters⟩ := List.cons.inj same
          obtain ⟨rfl, rest⟩ := List.cons.inj letters
          exact ⟨letterEscapes_unique _ known _ known' rfl, rest⟩
      | numbered =>
          rw [numberedEscape_append] at same
          obtain ⟨-, letters⟩ := List.cons.inj same
          obtain ⟨rfl, -⟩ := List.cons.inj letters
          exact absurd rfl (letterEscapes_letter _ known)
  | numbered =>
      rw [numberedEscape_append] at same
      cases escaped' with
      | plain mark backslash => exact absurd (List.cons.inj same).1.symm backslash
      | letter known' =>
          obtain ⟨-, letters⟩ := List.cons.inj same
          obtain ⟨rfl, -⟩ := List.cons.inj letters
          exact absurd rfl (letterEscapes_letter _ known')
      | numbered =>
          rw [numberedEscape_append] at same
          simp only [List.cons.injEq, true_and] at same
          -- the closing brace is no digit
          have closed (number : Nat) : '}' ∉ Nat.toDigits 16 number := by
            intro member
            obtain ⟨digit, brace⟩ := exists_digitChar member
            exact Nat.digitChar_ne '}' rfl brace.symm
          obtain ⟨digits, rest⟩ := cut_inj (closed _) (closed _) same
          exact ⟨Char.toNat_inj.mp (toDigits_inj digits), rest⟩

/-- No escape begins with the mark, so that quoted text goes up to the first mark that does not
belong to one. -/
theorem Escaped.head_ne {char : Char} {piece more rest : List Char} (escaped : Escaped char piece) :
    piece ++ more ≠ '"' :: rest := by
  intro same
  cases escaped with
  | plain mark => exact mark (List.cons.inj same).1
  | letter => exact absurd (List.cons.inj same).1 (by decide)
  | numbered =>
      rw [numberedEscape_append] at same
      exact absurd (List.cons.inj same).1 (by decide)

theorem quoted_append_inj {text text' more more' : List Char}
    (same : quoted '"' text ++ more = quoted '"' text' ++ more') : text = text' ∧ more = more' := by
  simp only [quoted, List.cons_append, List.append_assoc, List.cons.injEq, true_and,
    List.nil_append] at same
  induction text generalizing text' with
  | nil =>
      cases text' with
      | nil => exact ⟨rfl, (List.cons.inj same).2⟩
      | cons first' rest' =>
          rw [List.flatMap_cons, List.append_assoc] at same
          exact absurd same.symm (escaped_escape first').head_ne
  | cons first rest ih =>
      rw [List.flatMap_cons, List.append_assoc] at same
      cases text' with
      | nil => exact absurd same (escaped_escape first).head_ne
      | cons first' rest' =>
          rw [List.flatMap_cons, List.append_assoc] at same
          obtain ⟨rfl, behind⟩ := (escaped_escape first).append_inj (escaped_escape first') same
          obtain ⟨rfl, after⟩ := ih behind
          exact ⟨rfl, after⟩

end Text

/-! ## Forms -/

/-- A word, or a head word and the forms behind it. -/
inductive PrefixForm where
  | word (text : String)
  | node (head : String) (items : List PrefixForm)

namespace PrefixForm

mutual

def text : PrefixForm → List Char
  | word text => text.toList
  | node head items => '(' :: (head.toList ++ behind items)

def behind : List PrefixForm → List Char
  | [] => [')']
  | item :: rest => ' ' :: (item.text ++ behind rest)

end

def delimiters : List Char := [' ', '(', ')', '"']

/-- A word that has no delimiter in it. -/
def Bare (word : List Char) : Prop := word ≠ [] ∧ ∀ char ∈ word, char ∉ delimiters

instance : DecidablePred Bare := fun word =>
  decidable_of_iff (word ≠ [] ∧ word.all (· ∉ delimiters) = true)
    (and_congr_right fun _ => by simp only [List.all_eq_true, decide_eq_true_eq])

/-- A word that can be told from what follows. -/
inductive Word : List Char → Prop where
  | bare {word : List Char} (inside : Bare word) : Word word
  | quoted (text : List Char) : Word (Text.quoted '"' text)

mutual

/-- The words of a form are words, and its head words are bare. -/
def Legible : PrefixForm → Prop
  | word text => Word text.toList
  | node head items => Bare head.toList ∧ AllLegible items

def AllLegible : List PrefixForm → Prop
  | [] => True
  | item :: rest => item.Legible ∧ AllLegible rest

end

/-- What follows a form: nothing, a space or a closing parenthesis. -/
def Delimited (more : List Char) : Prop := ∀ char ∈ more.head?, char = ' ' ∨ char = ')'

theorem delimited_behind (items : List PrefixForm) (more : List Char) :
    Delimited (behind items ++ more) := by
  cases items with
  | nil => simp [behind, Delimited]
  | cons => simp [behind, Delimited]

/-! ## Words -/

section Words

variable {word word' more more' : List Char}

theorem Bare.takeWhile_append (bare : Bare word) (delimited : Delimited more) :
    (word ++ more).takeWhile (· ∉ delimiters) = word := by
  rw [List.takeWhile_append_of_pos fun char member => by simpa using bare.2 char member]
  cases more with
  | nil => rw [List.takeWhile_nil, List.append_nil]
  | cons char rest =>
      have special : char ∈ delimiters := by
        rcases delimited char rfl with rfl | rfl <;> decide
      rw [List.takeWhile_cons_of_neg (by simpa using special), List.append_nil]

theorem Bare.append_inj (bare : Bare word) (bare' : Bare word') (delimited : Delimited more)
    (delimited' : Delimited more') (same : word ++ more = word' ++ more') :
    word = word' ∧ more = more' := by
  obtain rfl : word = word' := by
    rw [← bare.takeWhile_append delimited, same, bare'.takeWhile_append delimited']
  exact ⟨rfl, List.append_cancel_left same⟩

theorem Bare.head_ne (bare : Bare word) {char : Char} (special : char ∈ delimiters)
    {rest : List Char} : word ++ more ≠ char :: rest := by
  obtain ⟨first, others, rfl⟩ := List.exists_cons_of_ne_nil bare.1
  intro same
  obtain ⟨rfl, -⟩ := List.cons.inj same
  exact bare.2 first List.mem_cons_self special

theorem Word.append_inj (legible : Word word) (legible' : Word word') (delimited : Delimited more)
    (delimited' : Delimited more') (same : word ++ more = word' ++ more') :
    word = word' ∧ more = more' := by
  cases legible with
  | bare inside =>
      cases legible' with
      | bare inside' => exact inside.append_inj inside' delimited delimited' same
      | quoted => exact absurd same (inside.head_ne (by decide))
  | quoted =>
      cases legible' with
      | bare inside' => exact absurd same.symm (inside'.head_ne (by decide))
      | quoted =>
          obtain ⟨rfl, rest⟩ := Text.quoted_append_inj same
          exact ⟨rfl, rest⟩

/-- A parenthesis opens no word. -/
theorem Word.head_ne (legible : Word word) {rest : List Char} : word ++ more ≠ '(' :: rest := by
  cases legible with
  | bare inside => exact inside.head_ne (by decide)
  | quoted => exact fun same => absurd (List.cons.inj same).1 (by decide)

end Words

/-! ## Texts -/

theorem text_node_append (head : String) (items : List PrefixForm) (more : List Char) :
    (node head items).text ++ more = '(' :: (head.toList ++ (behind items ++ more)) := by
  simp [text]

theorem behind_cons_append (item : PrefixForm) (rest : List PrefixForm) (more : List Char) :
    behind (item :: rest) ++ more = ' ' :: (item.text ++ (behind rest ++ more)) := by
  simp [behind]

mutual

/-- The text of a form tells the form and what follows it. -/
theorem text_append_inj : {form form' : PrefixForm} → {more more' : List Char} → form.Legible →
    form'.Legible → Delimited more → Delimited more' → form.text ++ more = form'.text ++ more' →
    form = form' ∧ more = more'
  | word _, word _, _, _, legible, legible', delimited, delimited', same => by
      obtain ⟨words, rest⟩ := Word.append_inj legible legible' delimited delimited' same
      exact ⟨congrArg word (String.toList_injective words), rest⟩
  | word _, node _ _, _, _, legible, _, _, _, same => absurd same (Word.head_ne legible)
  | node _ _, word _, _, _, _, legible', _, _, same => absurd same.symm (Word.head_ne legible')
  | node head items, node head' items', more, more', legible, legible', delimited, delimited',
      same => by
      rw [text_node_append, text_node_append] at same
      obtain ⟨-, inside⟩ := List.cons.inj same
      obtain ⟨heads, after⟩ := legible.1.append_inj legible'.1 (delimited_behind items more)
        (delimited_behind items' more') inside
      obtain ⟨rfl, rest⟩ := behind_append_inj legible.2 legible'.2 after
      exact ⟨congrArg (node · items) (String.toList_injective heads), rest⟩

theorem behind_append_inj : {items items' : List PrefixForm} → {more more' : List Char} →
    AllLegible items → AllLegible items' → behind items ++ more = behind items' ++ more' →
    items = items' ∧ more = more'
  | [], [], _, _, _, _, same => ⟨rfl, (List.cons.inj same).2⟩
  | [], _ :: _, _, _, _, _, same => absurd (List.cons.inj same).1 (by decide)
  | _ :: _, [], _, _, _, _, same => absurd (List.cons.inj same).1 (by decide)
  | item :: rest, item' :: rest', more, more', legible, legible', same => by
      rw [behind_cons_append, behind_cons_append] at same
      obtain ⟨-, inside⟩ := List.cons.inj same
      obtain ⟨rfl, after⟩ := text_append_inj legible.1 legible'.1 (delimited_behind rest more)
        (delimited_behind rest' more') inside
      obtain ⟨rfl, last⟩ := behind_append_inj legible.2 legible'.2 after
      exact ⟨rfl, last⟩

end

theorem text_inj {form form' : PrefixForm} (legible : form.Legible) (legible' : form'.Legible)
    (same : form.text = form'.text) : form = form' := by
  have nothing : Delimited [] := by simp [Delimited]
  exact (text_append_inj legible legible' nothing nothing (by rw [same])).1

end PrefixForm

end TreeWalk
