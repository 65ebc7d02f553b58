import TreeWalk.Proofs.Scanning.Lexemes

/-!
# Numerals

Every numeral has a value, so the default for a text that is no number is never used.  A numeral
goes on behind its point only where a digit follows.
-/

set_option autoImplicit false

namespace TreeWalk.Lexical

open Scanner (numberTail isDigitAt)
open Number.Numeral (splitSign decimal? exponent? word? read?)

theorem takeWhile_digits {whole behind : List Char} (digits : ∀ char ∈ whole, char.isDigit = true) :
    (whole ++ '.' :: behind).takeWhile Char.isDigit = whole := by
  rw [List.takeWhile_append_of_pos digits, List.takeWhile_cons_of_neg (by decide), List.append_nil]

theorem dropWhile_digits {whole behind : List Char} (digits : ∀ char ∈ whole, char.isDigit = true) :
    (whole ++ '.' :: behind).dropWhile Char.isDigit = '.' :: behind := by
  rw [List.dropWhile_append_of_pos digits, List.dropWhile_cons_of_neg (by decide)]

/-! ## Values -/

theorem splitSign_digit {first : Char} (digit : first.isDigit = true) (rest : List Char) :
    splitSign (first :: rest) = (false, first :: rest) := by
  unfold splitSign
  split
  · next same =>
      obtain ⟨rfl, -⟩ := List.cons.inj same
      exact absurd digit (by decide)
  · next same =>
      obtain ⟨rfl, -⟩ := List.cons.inj same
      exact absurd digit (by decide)
  · rfl

theorem Numeral.decimal?_isSome {piece : List Char} (numeral : Numeral piece) :
    (decimal? piece).isSome = true := by
  cases numeral with
  | whole digits =>
      have all := List.takeWhile_eq_self_iff.mpr digits.2
      have nothing := List.dropWhile_eq_nil_iff.mpr digits.2
      simp [decimal?, all, nothing, digits.1, exponent?]
  | @fraction whole fraction digits behind =>
      have all := List.takeWhile_eq_self_iff.mpr behind.2
      have nothing := List.dropWhile_eq_nil_iff.mpr behind.2
      simp [decimal?, takeWhile_digits digits.2, dropWhile_digits digits.2, all, nothing, digits.1,
        exponent?]

theorem Numeral.reads {piece : List Char} (numeral : Numeral piece) :
    ∃ value, read? (String.ofList piece) = some value := by
  rw [← Option.isSome_iff_exists]
  have some := numeral.decimal?_isSome
  cases piece with
  | nil => exact absurd rfl numeral.ne_nil
  | cons first rest =>
      unfold read?
      rw [String.toList_ofList, splitSign_digit numeral.head]
      simp [some]

/-! ## Lengths -/

theorem Numeral.rest {first : Char} {rest : List Char} (numeral : Numeral (first :: rest)) :
    (∀ char ∈ rest, char.isDigit = true) ∨ ∃ whole fraction, rest = whole ++ '.' :: fraction ∧
      (∀ char ∈ whole, char.isDigit = true) ∧ Digits fraction := by
  generalize same : first :: rest = piece at numeral
  cases numeral with
  | whole digits =>
      subst same
      exact Or.inl fun char member => digits.2 char (List.mem_cons_of_mem _ member)
  | @fraction whole fraction digits behind =>
      cases whole with
      | nil => exact absurd rfl digits.1
      | cons char whole =>
          obtain ⟨rfl, rfl⟩ := List.cons.inj same
          exact Or.inr ⟨whole, fraction, rfl,
            fun char member => digits.2 char (List.mem_cons_of_mem _ member), behind⟩

theorem takeWhile_isDigitAt (rest : List SourceChar) :
    (rest.map SourceChar.char).takeWhile Char.isDigit =
      (rest.takeWhile isDigitAt).map SourceChar.char := takeWhile_chars Char.isDigit rest

section Tail

variable {rest after : List SourceChar} {point : SourceChar}

theorem numberTail_nil (split : rest.drop (rest.takeWhile isDigitAt).length = []) :
    numberTail rest = (rest.takeWhile isDigitAt).length := by
  simp only [numberTail, split]

theorem numberTail_point (split : rest.drop (rest.takeWhile isDigitAt).length = point :: after)
    (dot : point.char = '.') (some : 0 < (after.takeWhile isDigitAt).length) :
    numberTail rest =
      (rest.takeWhile isDigitAt).length + 1 + (after.takeWhile isDigitAt).length := by
  simp only [numberTail, split, dot, some, decide_true, Bool.and_self, if_true]

theorem numberTail_other (split : rest.drop (rest.takeWhile isDigitAt).length = point :: after)
    (other : ¬ (point.char = '.' ∧ 0 < (after.takeWhile isDigitAt).length)) :
    numberTail rest = (rest.takeWhile isDigitAt).length := by
  simp only [numberTail, split, Bool.and_eq_true, decide_eq_true_eq, other, if_false]

end Tail

/-- A fraction is taken if there is one, else only the digits. -/
theorem numberTail_spec {rest : List SourceChar} {chars whole : List Char}
    (same : rest.map SourceChar.char = chars) (digits : chars.takeWhile Char.isDigit = whole) :
    (∃ fraction behind, chars = whole ++ '.' :: (fraction ++ behind) ∧ Digits fraction ∧
      (fraction ++ behind).takeWhile Char.isDigit = fraction ∧
      numberTail rest = (whole ++ '.' :: fraction).length) ∨
    numberTail rest = whole.length ∧
      ∀ fraction, Digits fraction → ¬ whole ++ '.' :: fraction <+: chars := by
  subst same
  rw [takeWhile_isDigitAt] at digits
  subst digits
  have parts := List.prefix_iff_eq_append.mp (List.takeWhile_prefix isDigitAt (l := rest))
  have chars := congrArg (List.map SourceChar.char) parts
  rw [List.map_append] at chars
  cases split : rest.drop (rest.takeWhile isDigitAt).length with
  | nil =>
      rw [split, List.map_nil, List.append_nil] at chars
      rw [numberTail_nil split, List.length_map]
      refine Or.inr ⟨rfl, fun fraction _ before => ?_⟩
      have most := before.length_le
      rw [List.length_append, chars, List.length_cons] at most
      omega
  | cons point after =>
      rw [split, List.map_cons] at chars
      by_cases goes : point.char = '.' ∧ 0 < (after.takeWhile isDigitAt).length
      · obtain ⟨dot, some⟩ := goes
        have fraction := takeWhile_isDigitAt after
        refine Or.inl ⟨(after.map SourceChar.char).takeWhile Char.isDigit,
          (after.map SourceChar.char).dropWhile Char.isDigit, ?_, ⟨?_, ?_⟩, ?_, ?_⟩
        · rw [List.takeWhile_append_dropWhile, ← dot]
          exact chars.symm
        · rw [fraction, ← List.length_pos_iff, List.length_map]
          exact some
        · exact fun char => List.mem_takeWhile_imp
        · rw [List.takeWhile_append_dropWhile]
        · rw [numberTail_point split dot some, fraction]
          simp
          omega
      · rw [numberTail_other split goes, List.length_map]
        refine Or.inr ⟨rfl, fun fraction digits before => goes ?_⟩
        rw [← chars, List.prefix_append_right_inj, List.cons_prefix_cons] at before
        have most := length_le_takeWhile before.2 digits.2
        rw [takeWhile_isDigitAt, List.length_map] at most
        have some := List.length_pos_iff.mpr digits.1
        exact ⟨before.1.symm, by omega⟩

theorem Numeral.front {first : Char} {rest chars whole : List Char}
    (numeral : Numeral (first :: rest)) (before : rest <+: chars)
    (digits : chars.takeWhile Char.isDigit = whole) :
    rest.length ≤ whole.length ∨ ∃ fraction, rest = whole ++ '.' :: fraction ∧ Digits fraction := by
  rcases numeral.rest with inside | ⟨other, fraction, rfl, inside, behind⟩
  · have most := length_le_takeWhile before inside
    rw [digits] at most
    exact Or.inl most
  · obtain ⟨after, rfl⟩ := before
    rw [List.append_assoc, List.cons_append, takeWhile_digits inside] at digits
    subst digits
    exact Or.inr ⟨fraction, rfl, behind⟩

theorem longest_number {first : Char} (digit : first.isDigit = true) (rest : List SourceChar) :
    ∃ value, Longest (first :: rest.map SourceChar.char)
        (first :: (rest.map SourceChar.char).take (numberTail rest))
        (.token .number (some (.number value))) ∧
      read? (String.ofList (first :: (rest.map SourceChar.char).take (numberTail rest))) =
        some value := by
  generalize same : rest.map SourceChar.char = chars
  generalize whole : chars.takeWhile Char.isDigit = ahead
  have digits : Digits (first :: ahead) := by
    refine ⟨List.cons_ne_nil _ _, ?_⟩
    subst whole
    rintro char (_ | ⟨_, member⟩)
    · exact digit
    · exact List.mem_takeWhile_imp member
  rcases numberTail_spec same whole with ⟨fraction, behind, split, some, ends, tail⟩ | ⟨tail, none⟩
  · have front : ahead ++ '.' :: fraction <+: chars := ⟨behind, by simp [split]⟩
    have numeral : Numeral (first :: (ahead ++ '.' :: fraction)) := .fraction digits some
    obtain ⟨value, reads⟩ := numeral.reads
    rw [tail, ← List.prefix_iff_eq_take.mp front]
    refine ⟨value, longest_of_explains front (.number numeral reads) ?_, reads⟩
    intro other another before explains
    rw [beginning?_digit digit] at explains
    rcases explains.1.front before whole with most | ⟨longer, rfl, inside⟩
    · rw [List.length_append]
      omega
    · rw [split, List.prefix_append_right_inj, List.cons_prefix_cons] at before
      have most := length_le_takeWhile before.2 inside.2
      rw [ends] at most
      simpa using most
  · have front : ahead <+: chars := whole ▸ List.takeWhile_prefix _
    have numeral : Numeral (first :: ahead) := .whole digits
    obtain ⟨value, reads⟩ := numeral.reads
    rw [tail, ← List.prefix_iff_eq_take.mp front]
    refine ⟨value, longest_of_explains front (.number numeral reads) ?_, reads⟩
    intro other another before explains
    rw [beginning?_digit digit] at explains
    rcases explains.1.front before whole with most | ⟨longer, rfl, inside⟩
    · exact most
    · exact absurd before (none longer inside)

end TreeWalk.Lexical
