import TreeWalk.Proofs.Printing.Cells
import TreeWalk.Proofs.Scanning.Numerals

/-!
# Numbers can be told from their text

The text of a finite number denotes its shortest decimal, and still does when the fraction of a
whole number is left out.  A text denotes one decimal only, so different numbers have different
texts.
-/

set_option autoImplicit false

namespace TreeWalk.Number

open Lexical (Digits splitSign_digit takeWhile_digits)
open Numeral (accumulate decimal? exponent? power? splitSign)

/-! ## Digits -/

theorem accumulate_eq (start : Nat) (digits : List Char) :
    accumulate start digits = Nat.ofDigitChars 10 digits start := by
  rw [Nat.ofDigitChars_eq_foldl]
  simp only [accumulate, Numeral.digitValue, Nat.mul_comm]

theorem accumulate_append (start : Nat) (front back : List Char) :
    accumulate start (front ++ back) = accumulate (accumulate start front) back :=
  List.foldl_append

theorem accumulate_zeros (start count : Nat) :
    accumulate start (List.replicate count '0') = start * 10 ^ count := by
  rw [accumulate_eq, Nat.ofDigitChars_replicate_zero, Nat.mul_comm]

theorem accumulate_toDigits (number : Nat) : accumulate 0 (Nat.toDigits 10 number) = number := by
  rw [accumulate_eq, Nat.ofDigitChars_ten_toDigits]

theorem digits_toDigits (number : Nat) : Digits (Nat.toDigits 10 number) :=
  ⟨Nat.toDigits_ne_nil, fun _ => Nat.isDigit_of_mem_toDigits (by decide) (by decide)⟩

theorem isDigit_of_mem_zeros {count : Nat} (char : Char)
    (member : char ∈ List.replicate count '0') : char.isDigit = true := by
  rw [List.eq_of_mem_replicate member]
  rfl

theorem digits_zero : Digits ['0'] := digits_toDigits 0

/-! ## Powers of ten -/

/-- The characters of a power of ten. -/
def scaleMarks : List Char := ['e', 'E', '+', '-']

theorem mem_of_power? {text : List Char} {power : Int} (read : power? text = some power)
    {char : Char} (member : char ∈ text) : char.isDigit = true ∨ char ∈ scaleMarks := by
  have inside : ∀ digit ∈ (splitSign text).2, digit.isDigit = true := by
    unfold power? at read
    dsimp only at read
    split at read
    · cases read
    · next digits =>
        simp only [Bool.or_eq_true, Bool.not_eq_true', not_or, Bool.not_eq_false] at digits
        exact List.all_eq_true.mp digits.2
  unfold splitSign at inside
  split at inside
  all_goals
    first
    | exact Or.inl (inside char member)
    | rcases List.mem_cons.mp member with rfl | member
      · exact Or.inr (by decide)
      · exact Or.inl (inside char member)

theorem exponent?_eq_some {text : List Char} {power : Int} (read : exponent? text = some power) :
    text = [] ∨ ∃ mark rest, text = mark :: rest ∧ (mark = 'e' ∨ mark = 'E') ∧
      power? rest = some power := by
  cases text with
  | nil => exact Or.inl rfl
  | cons mark rest =>
      simp only [exponent?, Bool.or_eq_true, decide_eq_true_eq] at read
      split at read
      · next marked => exact Or.inr ⟨mark, rest, rfl, marked, read⟩
      · cases read

theorem mem_of_exponent? {text : List Char} {power : Int} (read : exponent? text = some power)
    {char : Char} (member : char ∈ text) : char.isDigit = true ∨ char ∈ scaleMarks := by
  rcases exponent?_eq_some read with rfl | ⟨mark, rest, rfl, marked, read⟩
  · cases member
  · rcases List.mem_cons.mp member with rfl | member
    · rcases marked with rfl | rfl <;> exact Or.inr (by decide)
    · exact mem_of_power? read member

theorem takeWhile_exponent {text : List Char} {power : Int} (read : exponent? text = some power) :
    text.takeWhile Char.isDigit = [] := by
  rcases exponent?_eq_some read with rfl | ⟨mark, rest, rfl, rfl | rfl, -⟩ <;> rfl

theorem splitSign_digits {digits : List Char} (all : Digits digits) :
    splitSign digits = (false, digits) := by
  cases digits with
  | nil => exact absurd rfl all.1
  | cons first rest => exact splitSign_digit (all.2 first List.mem_cons_self) rest

theorem power?_toDigits (size : Nat) : power? (Nat.toDigits 10 size) = some (size : Int) := by
  have digits := digits_toDigits size
  unfold power?
  rw [splitSign_digits digits]
  simp [digits.1, List.all_eq_true.mpr digits.2, accumulate_toDigits]

theorem power?_minus_toDigits (size : Nat) :
    power? ('-' :: Nat.toDigits 10 size) = some (-size : Int) := by
  have digits := digits_toDigits size
  simp [power?, splitSign, digits.1, List.all_eq_true.mpr digits.2, accumulate_toDigits]

theorem exponent?_toString (power : Int) :
    exponent? ('e' :: (toString power).toList) = some power := by
  show power? (toString power).toList = some power
  rw [Int.toString_eq_repr, Int.repr_eq_if]
  split
  · next above =>
      rw [Nat.toList_repr, power?_toDigits, Int.toNat_of_nonneg above]
  · next below =>
      rw [String.toList_append, Nat.toList_repr]
      refine (power?_minus_toDigits _).trans (congrArg some ?_)
      omega

section Scaled

variable {front front' scale scale' : List Char} {power power' : Int}

theorem takeWhile_scaled (digits : ∀ char ∈ front, char.isDigit = true)
    (read : exponent? scale = some power) : (front ++ scale).takeWhile Char.isDigit = front := by
  rw [List.takeWhile_append_of_pos digits, takeWhile_exponent read, List.append_nil]

theorem scaled_inj (digits : ∀ char ∈ front, char.isDigit = true)
    (digits' : ∀ char ∈ front', char.isDigit = true) (read : exponent? scale = some power)
    (read' : exponent? scale' = some power') (same : front ++ scale = front' ++ scale') :
    front = front' ∧ power = power' := by
  have alike : front = front' := by
    rw [← takeWhile_scaled digits read, same, takeWhile_scaled digits' read']
  subst alike
  rw [List.append_cancel_left same, read'] at read
  exact ⟨rfl, (Option.some.inj read).symm⟩

end Scaled

/-! ## Numerals -/

/-- The decimal that a text denotes. -/
inductive Denotes : List Char → Decimal → Prop where
  | whole {whole scale : List Char} {power : Int} (digits : Digits whole)
      (read : exponent? scale = some power) : Denotes (whole ++ scale) ⟨accumulate 0 whole, power⟩
  | fraction {whole fraction scale : List Char} {power : Int} (digits : Digits whole)
      (behind : ∀ char ∈ fraction, char.isDigit = true) (read : exponent? scale = some power) :
      Denotes (whole ++ '.' :: (fraction ++ scale))
        ⟨accumulate 0 (whole ++ fraction), power - fraction.length⟩

namespace Denotes

variable {text : List Char} {number number' : Decimal}

theorem begins (denotes : Denotes text number) :
    ∃ first rest, text = first :: rest ∧ first.isDigit = true := by
  obtain ⟨whole, rest, rfl, some, digits⟩ : ∃ whole rest, text = whole ++ rest ∧ Digits whole := by
    cases denotes with
    | whole digits => exact ⟨_, _, rfl, digits⟩
    | fraction digits => exact ⟨_, _, rfl, digits⟩
  cases whole with
  | nil => exact absurd rfl some
  | cons first others => exact ⟨first, _, rfl, digits first List.mem_cons_self⟩

theorem mem (denotes : Denotes text number) {char : Char} (member : char ∈ text) :
    char.isDigit = true ∨ char ∈ '.' :: scaleMarks := by
  have scaled {scale : List Char} {power : Int} (read : exponent? scale = some power)
      (member : char ∈ scale) : char.isDigit = true ∨ char ∈ '.' :: scaleMarks :=
    (mem_of_exponent? read member).imp_right (List.mem_cons_of_mem _)
  cases denotes with
  | whole digits read =>
      rcases List.mem_append.mp member with member | member
      · exact Or.inl (digits.2 char member)
      · exact scaled read member
  | fraction digits behind read =>
      rcases List.mem_append.mp member with member | member
      · exact Or.inl (digits.2 char member)
      rcases List.mem_cons.mp member with rfl | member
      · exact Or.inr List.mem_cons_self
      rcases List.mem_append.mp member with member | member
      · exact Or.inl (behind char member)
      · exact scaled read member

theorem point_not_mem {digits scale : List Char} {power : Int}
    (inside : ∀ char ∈ digits, char.isDigit = true) (read : exponent? scale = some power) :
    '.' ∉ digits ++ scale := by
  intro member
  rcases List.mem_append.mp member with member | member
  · exact absurd (inside '.' member) (by decide)
  · exact absurd (mem_of_exponent? read member) (by decide)

/-- A text denotes one decimal only. -/
theorem unique (denotes : Denotes text number) (denotes' : Denotes text number') :
    number = number' := by
  generalize same : text = other at denotes'
  cases denotes with
  | @whole whole scale power digits read =>
      cases denotes' with
      | whole digits' read' =>
          obtain ⟨rfl, rfl⟩ := scaled_inj digits.2 digits'.2 read read' same
          rfl
      | fraction => exact absurd (same ▸ by simp) (point_not_mem digits.2 read)
  | @fraction whole fraction scale power digits behind read =>
      cases denotes' with
      | whole digits' read' => exact absurd (same ▸ by simp) (point_not_mem digits'.2 read')
      | @fraction whole' fraction' scale' _ digits' behind' read' =>
          obtain ⟨rfl, -, rest⟩ := (List.append_cons_inj_of_notMem
            (fun member => absurd (digits.2 '.' member) (by decide))
            (point_not_mem behind read)).mp same
          obtain ⟨rfl, rfl⟩ := scaled_inj behind behind' read read' rest
          rfl

theorem of_wholeMark (denotes : Denotes (text ++ ['.', '0']) number) :
    ∃ number', Denotes text number' ∧ number'.value = number.value := by
  generalize same : text ++ ['.', '0'] = marked at denotes
  cases denotes with
  | whole digits read => exact absurd (same ▸ by simp) (point_not_mem digits.2 read)
  | @fraction whole fraction scale power digits behind read =>
      obtain ⟨rfl, -, rest⟩ := (List.append_cons_inj_of_notMem
        (fun member => absurd (digits.2 '.' member) (by decide))
        (point_not_mem behind read)).mp same.symm
      obtain ⟨rfl, rfl⟩ : ['0'] = fraction ∧ (0 : Int) = power :=
        scaled_inj digits_zero.2 behind rfl read rest.symm
      refine ⟨⟨accumulate 0 whole, 0⟩, ?_, ?_⟩
      · have plain : Denotes (whole ++ []) _ := .whole digits rfl
        rwa [List.append_nil] at plain
      · simp [Decimal.value, accumulate, Numeral.digitValue]

end Denotes

/-! ## Decimals as text -/

/-- The text denotes a decimal of this value. -/
def Shows (text : List Char) (value : ℚ) : Prop :=
  ∃ number, Denotes text number ∧ number.value = value

theorem Shows.unique {text : List Char} {value value' : ℚ} (shows : Shows text value)
    (shows' : Shows text value') : value = value' := by
  obtain ⟨number, denotes, rfl⟩ := shows
  obtain ⟨number', denotes', rfl⟩ := shows'
  rw [denotes.unique denotes']

theorem value_shift (digits count : Nat) (power : Int) :
    Decimal.value ⟨digits * 10 ^ count, power⟩ = digits * (10 : ℚ) ^ (count + power) := by
  rw [Decimal.value, zpow_add₀ (by norm_num), zpow_natCast, ← mul_assoc]
  push_cast
  rfl

theorem trimZeros_append (digits : List Char) :
    (trimZeros digits).1 ++ List.replicate (trimZeros digits).2 '0' = digits := by
  generalize zeros : (digits.reverse.takeWhile (· = '0')).reverse = back
  have parts : (trimZeros digits).1 ++ back = digits := by
    rw [← zeros, trimZeros, ← List.reverse_append, List.takeWhile_append_dropWhile,
      List.reverse_reverse]
  have count : (trimZeros digits).2 = back.length := by
    have total := congrArg List.length parts
    rw [List.length_append] at total
    show digits.length - (trimZeros digits).1.length = back.length
    omega
  have alike : back = List.replicate back.length '0' := by
    refine List.eq_replicate_iff.mpr ⟨rfl, fun char member => ?_⟩
    rw [← zeros, List.mem_reverse] at member
    simpa using List.mem_takeWhile_imp member
  rw [count, ← alike, parts]

theorem trimZeros_spec {digits : List Char} (all : Digits digits)
    (positive : 0 < accumulate 0 digits) :
    Digits (trimZeros digits).1 ∧
      accumulate 0 digits = accumulate 0 (trimZeros digits).1 * 10 ^ (trimZeros digits).2 := by
  have parts := trimZeros_append digits
  have sum : accumulate 0 digits =
      accumulate 0 (trimZeros digits).1 * 10 ^ (trimZeros digits).2 := by
    rw [← accumulate_zeros, ← accumulate_append, parts]
  refine ⟨⟨?_, fun char member => all.2 char (parts ▸ List.mem_append_left _ member)⟩, sum⟩
  intro nothing
  rw [sum, nothing] at positive
  exact absurd positive (by simp [accumulate])

section Layouts

variable {digits : List Char} (all : Digits digits)

include all

theorem shows_plain (whole : Int) :
    Shows (languageLayout.plain digits whole).toList
      (accumulate 0 digits * (10 : ℚ) ^ (whole - digits.length)) := by
  unfold Layout.plain
  split
  · next least =>
      -- zeros in front of the digits do not change the number
      generalize count : (-whole).toNat = free
      have text : ("0." ++ zeros free ++ String.ofList digits).toList =
          ['0'] ++ '.' :: (List.replicate free '0' ++ digits ++ []) := by
        simp [zeros]
      have value : accumulate 0 digits * (10 : ℚ) ^ (whole - digits.length) =
          accumulate 0 (['0'] ++ (List.replicate free '0' ++ digits)) *
            (10 : ℚ) ^ ((0 : Int) - (List.replicate free '0' ++ digits).length) := by
        rw [accumulate_append, accumulate_append, show accumulate 0 ['0'] = 0 from rfl,
          accumulate_zeros, Nat.zero_mul, List.length_append, List.length_replicate]
        congr 2
        omega
      rw [text, value]
      refine ⟨_, .fraction digits_zero ?_ rfl, rfl⟩
      exact List.forall_mem_append.mpr ⟨isDigit_of_mem_zeros, all.2⟩
  · next above =>
      split
      · next long =>
          -- zeros behind the digits and the fraction are powers of ten
          generalize count : whole.toNat - digits.length = filled
          have text : (String.ofList digits ++ zeros filled ++ languageLayout.wholeMark).toList =
              digits ++ List.replicate filled '0' ++ '.' :: (['0'] ++ []) := by
            simp [zeros, languageLayout]
          have value : accumulate 0 digits * (10 : ℚ) ^ (whole - digits.length) =
              Decimal.value ⟨accumulate 0 (digits ++ List.replicate filled '0' ++ ['0']),
                (0 : Int) - ['0'].length⟩ := by
            rw [List.append_assoc, ← List.replicate_succ', accumulate_append, accumulate_zeros,
              value_shift]
            congr 2
            simp only [List.length_singleton]
            omega
          rw [text, value]
          refine ⟨_, .fraction ⟨by simp [all.1], ?_⟩ digits_zero.2 rfl, rfl⟩
          exact List.forall_mem_append.mpr ⟨all.2, isDigit_of_mem_zeros⟩
      · next short =>
          have text : (String.ofList (digits.take whole.toNat) ++ "." ++
              String.ofList (digits.drop whole.toNat)).toList =
                digits.take whole.toNat ++ '.' :: (digits.drop whole.toNat ++ []) := by
            simp
          have value : accumulate 0 digits * (10 : ℚ) ^ (whole - digits.length) =
              accumulate 0 (digits.take whole.toNat ++ digits.drop whole.toNat) *
                (10 : ℚ) ^ ((0 : Int) - (digits.drop whole.toNat).length) := by
            rw [List.take_append_drop, List.length_drop]
            congr 2
            omega
          rw [text, value]
          refine ⟨_, .fraction ⟨?_, fun char member => all.2 char (List.mem_of_mem_take member)⟩
            (fun char member => all.2 char (List.mem_of_mem_drop member)) rfl, rfl⟩
          rw [← List.length_pos_iff, List.length_take]
          omega

theorem shows_scaled (power : Int) :
    Shows (languageLayout.scaled digits power).toList
      (accumulate 0 digits * (10 : ℚ) ^ (power + 1 - digits.length)) := by
  obtain ⟨first, rest, rfl⟩ := List.exists_cons_of_ne_nil all.1
  have leading : Digits [first] := ⟨by simp, fun char member => all.2 char (by simp_all)⟩
  have inside : ∀ char ∈ rest, char.isDigit = true :=
    fun char member => all.2 char (List.mem_cons_of_mem _ member)
  have read := exponent?_toString power
  unfold Layout.scaled
  cases rest with
  | nil =>
      have text : (String.ofList ([first].take 1) ++ (if [first].length ≤ 1 then "" else
          "." ++ String.ofList ([first].drop 1)) ++ languageLayout.exponentMark ++
            toString power).toList = [first] ++ 'e' :: (toString power).toList := by
        simp [languageLayout]
      rw [text]
      refine ⟨_, .whole leading read, ?_⟩
      simp [Decimal.value]
  | cons second others =>
      have text : (String.ofList ((first :: second :: others).take 1) ++
          (if (first :: second :: others).length ≤ 1 then "" else
            "." ++ String.ofList ((first :: second :: others).drop 1)) ++
            languageLayout.exponentMark ++ toString power).toList =
              [first] ++ '.' :: (second :: others ++ 'e' :: (toString power).toList) := by
        simp [languageLayout]
      rw [text]
      refine ⟨_, .fraction leading inside read, ?_⟩
      simp only [Decimal.value, List.singleton_append, List.length_cons]
      congr 2
      omega

end Layouts

theorem shows_decimal {number : Decimal} (positive : 0 < number.digits) :
    Shows (languageLayout.decimal number).toList number.value := by
  obtain ⟨kept, dropped⟩ := trimZeros_spec (digits_toDigits number.digits)
    (by rwa [accumulate_toDigits])
  rw [accumulate_toDigits] at dropped
  have value : number.value = accumulate 0 (trimZeros (Nat.toDigits 10 number.digits)).1 *
      (10 : ℚ) ^ ((trimZeros (Nat.toDigits 10 number.digits)).2 + number.exponent) := by
    rw [← value_shift, ← dropped]
  rw [value]
  unfold Layout.decimal
  generalize trimZeros (Nat.toDigits 10 number.digits) = trimmed at kept
  dsimp only
  split
  · convert shows_plain kept _ using 3
    ring
  · convert shows_scaled kept _ using 3
    ring

theorem shows_magnitude (mantissa : Nat) (exponent : Int) :
    Shows (languageLayout.magnitude (.finite mantissa exponent)).toList
      (if mantissa = 0 then 0 else (shortest mantissa exponent).value) := by
  unfold Layout.magnitude
  dsimp only
  split
  · have zero : Denotes (['0'] ++ '.' :: (['0'] ++ [])) ⟨accumulate 0 (['0'] ++ ['0']), _⟩ :=
      .fraction digits_zero digits_zero.2 rfl
    exact ⟨_, zero, by simp [Decimal.value, accumulate, Numeral.digitValue]⟩
  · next other => exact shows_decimal (digits_shortest (Nat.pos_of_ne_zero other) exponent)

/-! ## Doubles as text -/

theorem exists_of_endsWith {text mark : String} (ends : text.endsWith mark = true) :
    ∃ front, text.toList = front ++ mark.toList ∧
      (text.dropEnd mark.length).toString.toList = front := by
  rw [String.endsWith_eq_endsWith_toSlice, String.Slice.endsWith_string_iff,
    String.copy_toSlice] at ends
  obtain ⟨front, split⟩ := ends
  refine ⟨front, split.symm, ?_⟩
  show (text.dropEnd mark.length).copy.toList = front
  rw [String.toList_copy_dropEnd, ← split, List.length_append, String.length_toList,
    Nat.add_sub_cancel, List.take_left]

/-- What stands in front of a number. -/
def signMark (negative : Bool) : List Char := if negative then ['-'] else []

section Doubles

variable {value value' : Float} {mantissa mantissa' : Nat} {exponent exponent' : Int}

theorem toList_exactText (finite : (Binary.ofFloat value).magnitude = .finite mantissa exponent) :
    (exactText value).toList = signMark (Binary.ofFloat value).negative ++
      (languageLayout.magnitude (.finite mantissa exponent)).toList := by
  unfold exactText Layout.text
  cases sign : (Binary.ofFloat value).negative with
  | false => simp [finite, sign, signMark]
  | true => simp [finite, sign, signMark, show languageLayout.minusSign = "-" from rfl]

theorem exists_of_signMark {negative : Bool} {text front : List Char}
    (same : signMark negative ++ text = front ++ ['.', '0']) :
    ∃ rest, front = signMark negative ++ rest ∧ text = rest ++ ['.', '0'] := by
  cases negative with
  | false => exact ⟨front, rfl, same⟩
  | true =>
      cases front with
      | nil => simp [signMark] at same
      | cons first rest =>
          obtain ⟨rfl, behind⟩ := List.cons.inj same
          exact ⟨rest, rfl, behind⟩

/-- A number is shown as its sign and a text that denotes its shortest decimal. -/
theorem shows_shownText
    (finite : (Binary.ofFloat value).magnitude = .finite mantissa exponent) :
    ∃ text, (shownText value).toList = signMark (Binary.ofFloat value).negative ++ text ∧
      Shows text (if mantissa = 0 then 0 else (shortest mantissa exponent).value) := by
  have exact := toList_exactText finite
  have shows := shows_magnitude mantissa exponent
  generalize (languageLayout.magnitude (.finite mantissa exponent)).toList = text at exact shows
  unfold shownText
  dsimp only
  split
  · next marked =>
      obtain ⟨front, ends, dropped⟩ := exists_of_endsWith marked
      rw [exact] at ends
      obtain ⟨rest, rfl, rfl⟩ := exists_of_signMark ends
      obtain ⟨number, denotes, value⟩ := shows
      obtain ⟨shorter, again, same⟩ := denotes.of_wholeMark
      exact ⟨rest, dropped, shorter, again, same.trans value⟩
  · exact ⟨text, exact, shows⟩

theorem signMark_inj {negative negative' : Bool} {text text' : List Char} {number number' : ℚ}
    (shows : Shows text number) (shows' : Shows text' number')
    (same : signMark negative ++ text = signMark negative' ++ text') :
    negative = negative' ∧ text = text' := by
  obtain ⟨_, denotes, _⟩ := shows
  obtain ⟨_, denotes', _⟩ := shows'
  obtain ⟨first, rest, rfl, digit⟩ := denotes.begins
  obtain ⟨first', rest', rfl, digit'⟩ := denotes'.begins
  cases negative <;> cases negative'
  · exact ⟨rfl, same⟩
  · obtain ⟨rfl, -⟩ := List.cons.inj same
    exact absurd digit (by decide)
  · obtain ⟨rfl, -⟩ := List.cons.inj same
    exact absurd digit' (by decide)
  · exact ⟨rfl, (List.cons.inj same).2⟩

/-- A number begins with a digit or a minus, and has nothing in it but digits, a point and the marks
of a power of ten. -/
theorem shape_shownText (finite : IsFinite value) :
    ∃ first rest, (shownText value).toList = first :: rest ∧
      (first = '-' ∨ first.isDigit = true) ∧
      ∀ char ∈ first :: rest, char.isDigit = true ∨ char ∈ '.' :: scaleMarks := by
  obtain ⟨mantissa, exponent, known⟩ := finite
  obtain ⟨text, shown, number, denotes, -⟩ := shows_shownText known
  obtain ⟨first, rest, rfl, digit⟩ := denotes.begins
  cases sign : (Binary.ofFloat value).negative with
  | false =>
      rw [sign] at shown
      exact ⟨first, rest, shown, Or.inr digit, fun char => denotes.mem⟩
  | true =>
      rw [sign] at shown
      refine ⟨'-', first :: rest, shown, Or.inl rfl, List.forall_mem_cons.mpr ⟨?_, ?_⟩⟩
      · exact Or.inr (by decide)
      · exact fun char => denotes.mem

theorem shown_value_inj (double : Canonical mantissa exponent)
    (double' : Canonical mantissa' exponent')
    (same : (if mantissa = 0 then 0 else (shortest mantissa exponent).value) =
      if mantissa' = 0 then 0 else (shortest mantissa' exponent').value) :
    mantissa = mantissa' ∧ exponent = exponent' := by
  rcases Nat.eq_zero_or_pos mantissa with rfl | positive
  · rcases Nat.eq_zero_or_pos mantissa' with rfl | positive'
    · exact ⟨rfl, (double.exponent_of_zero).trans double'.exponent_of_zero.symm⟩
    · rw [if_pos rfl, if_neg positive'.ne'] at same
      exact absurd same (value_shortest positive' exponent').ne
  · rcases Nat.eq_zero_or_pos mantissa' with rfl | positive'
    · rw [if_pos rfl, if_neg positive.ne'] at same
      exact absurd same.symm (value_shortest positive exponent).ne
    · rw [if_neg positive.ne', if_neg positive'.ne'] at same
      exact shortest_inj positive positive' double double' same

theorem shownText_inj (finite : IsFinite value) (finite' : IsFinite value')
    (same : shownText value = shownText value') : value = value' := by
  obtain ⟨mantissa, exponent, known⟩ := id finite
  obtain ⟨mantissa', exponent', known'⟩ := finite'
  obtain ⟨text, shown, shows⟩ := shows_shownText known
  obtain ⟨text', shown', shows'⟩ := shows_shownText known'
  rw [same, shown'] at shown
  obtain ⟨sign, rfl⟩ := signMark_inj shows' shows shown
  obtain ⟨rfl, rfl⟩ := shown_value_inj (canonical_ofFloat known) (canonical_ofFloat known')
    (shows.unique shows')
  refine ofFloat_inj finite ?_
  cases one : Binary.ofFloat value
  cases other : Binary.ofFloat value'
  simp_all

end Doubles

end TreeWalk.Number
