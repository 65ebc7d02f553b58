import Mathlib.Algebra.Group.Nat.Defs
import Mathlib.Data.List.Basic
import TreeWalk.Text.Utf8

/-!
# Reading UTF-8

Decoding accepts exactly the encodings of texts.  Bytes that encode no text are read up to the
first place at which no character is encoded, and what stands there decides how decoding fails:
either the bytes end before the character does, or there is none.
-/

set_option autoImplicit false

namespace TreeWalk.Text.Utf8

/-- The bytes that encode a text. -/
def encode (text : String) : List UInt8 := text.toUTF8.data.toList

theorem encode_eq (text : String) :
    encode text = text.toList.flatMap String.utf8EncodeChar := by
  rw [encode, String.toUTF8_eq_toByteArray, ← String.utf8Encode_toList, List.utf8Encode,
    List.toList_data_toByteArray]

/-! ## The bytes behind the first one of a character -/

def Continues (tail : List UInt8) : Prop := ∀ byte ∈ tail, isContinuation byte.toNat = true

theorem isContinuation_iff {byte : Nat} :
    isContinuation byte = true ↔ 0x80 ≤ byte ∧ byte < 0xC0 := by
  simp [isContinuation]

/-- The last digit of a value to the base 64, as a byte that continues a character. -/
def digit (value : Nat) : UInt8 := UInt8.ofNat (value % 64 + 0x80)

theorem toNat_digit (value : Nat) : (digit value).toNat = value % 64 + 0x80 := by
  have small : value % 64 + 0x80 < 256 := by omega
  exact UInt8.toNat_ofNat_of_lt' small

/-- The last digits of a value to the base 64, each in a byte of its own. -/
def digits : Nat → Nat → List UInt8
  | 0, _ => []
  | count + 1, value => digit (value / 64 ^ count) :: digits count value

theorem length_digits (count value : Nat) : (digits count value).length = count := by
  induction count with
  | zero => rfl
  | succ count ih => simp [digits, ih]

theorem continues_digits (count value : Nat) : Continues (digits count value) := by
  induction count with
  | zero => simp [Continues, digits]
  | succ count ih =>
      have head : isContinuation (digit (value / 64 ^ count)).toNat = true := by
        rw [toNat_digit, isContinuation_iff]
        omega
      exact List.forall_mem_cons.mpr ⟨head, ih⟩

namespace Opened

def continuedBy (opened : Opened) (tail : List UInt8) : Opened :=
  tail.foldl (fun opened byte => opened.continued byte.toNat) opened

variable (opened : Opened)

@[simp]
theorem owed_continued (byte : Nat) : (opened.continued byte).owed = opened.owed - 1 := rfl

@[simp]
theorem bits_continued (byte : Nat) :
    (opened.continued byte).bits = opened.bits * 64 + byte % 64 := rfl

@[simp]
theorem least_continued (byte : Nat) : (opened.continued byte).least = opened.least := rfl

theorem continuedBy_cons (byte : UInt8) (tail : List UInt8) :
    opened.continuedBy (byte :: tail) = (opened.continued byte.toNat).continuedBy tail := rfl

theorem continuedBy_concat (tail : List UInt8) (byte : UInt8) :
    opened.continuedBy (tail ++ [byte]) = (opened.continuedBy tail).continued byte.toNat := by
  simp [continuedBy]

theorem owed_continuedBy (tail : List UInt8) :
    (opened.continuedBy tail).owed = opened.owed - tail.length := by
  induction tail generalizing opened with
  | nil => rfl
  | cons byte tail ih =>
      rw [continuedBy_cons, ih, owed_continued, List.length_cons, Nat.sub_sub, Nat.add_comm]

theorem least_continuedBy (tail : List UInt8) :
    (opened.continuedBy tail).least = opened.least := by
  induction tail generalizing opened with
  | nil => rfl
  | cons byte tail ih => rw [continuedBy_cons, ih, least_continued]

theorem bits_continuedBy_div (tail : List UInt8) :
    (opened.continuedBy tail).bits / 64 ^ tail.length = opened.bits := by
  induction tail generalizing opened with
  | nil => simp [continuedBy]
  | cons byte tail ih =>
      rw [continuedBy_cons, List.length_cons, Nat.pow_succ, ← Nat.div_div_eq_div_mul, ih,
        bits_continued]
      omega

variable {opened}

theorem bits_continuedBy_digits {count value : Nat} (front : opened.bits = value / 64 ^ count) :
    (opened.continuedBy (digits count value)).bits = value := by
  induction count generalizing opened with
  | zero => simpa [digits, continuedBy] using front
  | succ count ih =>
      rw [digits, continuedBy_cons]
      apply ih
      rw [Nat.pow_succ, ← Nat.div_div_eq_div_mul] at front
      rw [bits_continued, toNat_digit, front]
      omega

theorem eq_digits {tail : List UInt8} (continues : Continues tail) :
    tail = digits tail.length (opened.continuedBy tail).bits := by
  induction tail generalizing opened with
  | nil => rfl
  | cons byte tail ih =>
      obtain ⟨head, continues⟩ := List.forall_mem_cons.mp continues
      have front := (opened.continued byte.toNat).bits_continuedBy_div tail
      rw [isContinuation_iff] at head
      rw [List.length_cons, digits, continuedBy_cons, ← ih continues, front, bits_continued]
      congr 1
      rw [← UInt8.toNat_inj, toNat_digit]
      omega

theorem char?_eq_some_iff {char : Char} :
    opened.char? = some char ↔ char.toNat = opened.bits ∧ opened.least ≤ opened.bits := by
  unfold char?
  by_cases valid : opened.bits.isValidChar
  · have value : (Char.ofNatAux opened.bits valid).toNat = opened.bits := rfl
    rw [dif_pos valid]
    by_cases enough : opened.least ≤ opened.bits
    · rw [if_pos enough, Option.some_inj, ← Char.toNat_inj, value]
      exact ⟨fun same => ⟨same.symm, enough⟩, fun both => both.1.symm⟩
    · rw [if_neg enough]
      simp [enough]
  · rw [dif_neg valid]
    simp only [reduceCtorEq, false_iff, not_and]
    intro same
    rw [← same] at valid
    exact absurd char.valid valid

end Opened

/-! ## Encodings of one character -/

/-- The bytes behind the first one complete a character. -/
structure Opened.Completed (opened : Opened) (tail : List UInt8) (char : Char) : Prop where
  owed : tail.length = opened.owed
  continues : Continues tail
  char : (opened.continuedBy tail).char? = some char

/-- The sizes of encodings: how many bytes follow the first one, the bits that mark the first one,
and the values that take this size. -/
inductive Sized : (count mark least value : Nat) → Prop where
  | one {value : Nat} (below : value < 0x80) : Sized 0 0 0 value
  | two {value : Nat} (enough : 0x80 ≤ value) (below : value < 0x800) : Sized 1 0xC0 0x80 value
  | three {value : Nat} (enough : 0x800 ≤ value) (below : value < 0x10000) :
      Sized 2 0xE0 0x800 value
  | four {value : Nat} (enough : 0x10000 ≤ value) (below : value < 0x200000) :
      Sized 3 0xF0 0x10000 value

theorem exists_sized (char : Char) : ∃ count mark least, Sized count mark least char.toNat := by
  have valid := char.valid
  unfold UInt32.isValidChar Nat.isValidChar at valid
  rw [Char.toNat_val] at valid
  by_cases one : char.toNat < 0x80
  · exact ⟨_, _, _, .one one⟩
  by_cases two : char.toNat < 0x800
  · exact ⟨_, _, _, .two (by omega) two⟩
  by_cases three : char.toNat < 0x10000
  · exact ⟨_, _, _, .three (by omega) three⟩
  · exact ⟨_, _, _, .four (by omega) (by omega)⟩

namespace Sized

variable {count mark least value : Nat}

theorem least_le (sized : Sized count mark least value) : least ≤ value := by
  cases sized <;> omega

theorem first_lt (sized : Sized count mark least value) :
    mark + value / 64 ^ count < UInt8.size := by
  show mark + value / 64 ^ count < 256
  cases sized <;> omega

theorem opening (sized : Sized count mark least value) :
    opening? (mark + value / 64 ^ count) = some ⟨count, value / 64 ^ count, least⟩ := by
  cases sized <;> grind [opening?]

theorem encoded {char : Char} (sized : Sized count mark least char.toNat) :
    String.utf8EncodeChar char =
      UInt8.ofNat (mark + char.toNat / 64 ^ count) :: digits count char.toNat := by
  unfold String.utf8EncodeChar
  rw [Char.toNat_val]
  cases sized with
  | one below =>
      rw [if_pos (by omega)]
      simp [digits]
  | two enough below =>
      have front : char.toNat / 64 % 32 + 192 = 192 + char.toNat / 64 := by omega
      rw [if_neg (by omega), if_pos (by omega), front]
      simp only [digits, digit, Nat.reducePow, Nat.div_one]
  | three enough below =>
      have front : char.toNat / 4096 % 16 + 224 = 224 + char.toNat / 4096 := by omega
      rw [if_neg (by omega), if_neg (by omega), if_pos (by omega), front]
      simp only [digits, digit, Nat.reducePow, Nat.div_one]
  | four enough below =>
      have front : char.toNat / 262144 % 8 + 240 = 240 + char.toNat / 262144 := by omega
      rw [if_neg (by omega), if_neg (by omega), if_neg (by omega), front]
      simp only [digits, digit, Nat.reducePow, Nat.div_one]

end Sized

theorem sized_of_opening {byte value : Nat} {opened : Opened}
    (opening : opening? byte = some opened) (front : value / 64 ^ opened.owed = opened.bits)
    (enough : opened.least ≤ value) :
    ∃ mark, Sized opened.owed mark opened.least value ∧ byte = mark + opened.bits := by
  unfold opening? at opening
  split_ifs at opening
  all_goals cases opening
  all_goals simp only at front enough
  · exact ⟨0, .one (by omega), by simp⟩
  · exact ⟨0xC0, .two enough (by omega), by simp; omega⟩
  · exact ⟨0xE0, .three enough (by omega), by simp; omega⟩
  · exact ⟨0xF0, .four enough (by omega), by simp; omega⟩

theorem exists_encoded (char : Char) : ∃ first tail opened,
    String.utf8EncodeChar char = first :: tail ∧ opening? first.toNat = some opened ∧
      opened.Completed tail char := by
  obtain ⟨count, mark, least, sized⟩ := exists_sized char
  refine ⟨_, _, ⟨count, char.toNat / 64 ^ count, least⟩, sized.encoded, ?_, length_digits _ _,
    continues_digits _ _, Opened.char?_eq_some_iff.mpr ?_⟩
  · rw [UInt8.toNat_ofNat_of_lt' sized.first_lt, sized.opening]
  · rw [Opened.bits_continuedBy_digits rfl, Opened.least_continuedBy]
    exact ⟨rfl, sized.least_le⟩

theorem encoded_of_completed {first : UInt8} {tail : List UInt8} {opened : Opened} {char : Char}
    (opening : opening? first.toNat = some opened) (completed : opened.Completed tail char) :
    String.utf8EncodeChar char = first :: tail := by
  obtain ⟨value, enough⟩ := Opened.char?_eq_some_iff.mp completed.char
  have front := opened.bits_continuedBy_div tail
  rw [← value, completed.owed] at front
  rw [← value, Opened.least_continuedBy] at enough
  obtain ⟨mark, sized, byte⟩ := sized_of_opening opening front enough
  rw [sized.encoded, front, ← byte, UInt8.ofNat_toNat, ← completed.owed, value,
    ← Opened.eq_digits completed.continues]

/-! ## Decoding the first character -/

/-- The bytes end before their first character does. -/
inductive CutOff : List UInt8 → Prop where
  | intro {first : UInt8} {tail : List UInt8} {opened : Opened}
      (opening : opening? first.toNat = some opened) (continues : Continues tail)
      (short : tail.length < opened.owed) : CutOff (first :: tail)

/-- No character is encoded where these bytes begin. -/
structure Flawed (bytes : List UInt8) (flaw : Flaw) : Prop where
  nonempty : bytes ≠ []
  unencoded : ∀ char, ¬ String.utf8EncodeChar char <+: bytes
  kind : flaw = .truncated ↔ CutOff bytes

section First

variable (done : List Char) {first : UInt8} {opened : Opened} {tail : List UInt8}

theorem decodeAfter_continues (continues : Continues tail) (short : tail.length < opened.owed)
    (rest : List UInt8) :
    decodeAfter done (some opened) (tail ++ rest) =
      decodeAfter done (some (opened.continuedBy tail)) rest := by
  induction tail generalizing opened with
  | nil => rfl
  | cons byte tail ih =>
      obtain ⟨head, continues⟩ := List.forall_mem_cons.mp continues
      rw [List.length_cons] at short
      have later : tail.length < (opened.continued byte.toNat).owed := Nat.lt_sub_of_add_lt short
      rw [List.cons_append, decodeAfter, if_pos head]
      simp only [Nat.ne_of_gt (Nat.zero_lt_of_lt later), if_false]
      exact ih continues later

variable (opening : opening? first.toNat = some opened)

include opening

theorem decodeAfter_opened (more : 0 < opened.owed) (rest : List UInt8) :
    decodeAfter done none (first :: rest) = decodeAfter done (some opened) rest := by
  rw [decodeAfter]
  simp only [opening, Nat.ne_of_gt more, if_false]

theorem decodeAfter_ended (owed : tail.length = opened.owed) (continues : Continues tail)
    (rest : List UInt8) :
    decodeAfter done none (first :: (tail ++ rest)) =
      match (opened.continuedBy tail).char? with
      | none => .error .malformed
      | some char => decodeAfter (char :: done) none rest := by
  rcases List.eq_nil_or_concat tail with rfl | ⟨front, last, split⟩
  · rw [List.nil_append, decodeAfter]
    simp only [opening, ← owed, List.length_nil, if_true]
    rfl
  · -- only the last byte settles the character
    rw [List.concat_eq_append] at split
    subst split
    rw [List.length_append, List.length_singleton] at owed
    obtain ⟨inside, head⟩ := List.forall_mem_append.mp continues
    have head : isContinuation last.toNat = true := head last (List.mem_singleton_self last)
    have settled : ((opened.continuedBy front).continued last.toNat).owed = 0 := by
      rw [Opened.owed_continued, Opened.owed_continuedBy]
      omega
    rw [Opened.continuedBy_concat, decodeAfter_opened done opening (by omega), List.append_assoc,
      decodeAfter_continues done inside (by omega), List.singleton_append, decodeAfter,
      if_pos head]
    exact if_pos settled

omit opening in
theorem decodeAfter_encoded (char : Char) (rest : List UInt8) :
    decodeAfter done none (String.utf8EncodeChar char ++ rest) =
      decodeAfter (char :: done) none rest := by
  obtain ⟨first, tail, opened, encoded, opening, completed⟩ := exists_encoded char
  rw [encoded, List.cons_append,
    decodeAfter_ended done opening completed.owed completed.continues, completed.char]

theorem decodeAfter_cutOff (continues : Continues tail) (short : tail.length < opened.owed) :
    decodeAfter done none (first :: tail) = .error .truncated := by
  rw [decodeAfter_opened done opening (Nat.zero_lt_of_lt short)]
  have run := decodeAfter_continues done continues short []
  rwa [List.append_nil] at run

theorem decodeAfter_broken (continues : Continues tail) (short : tail.length < opened.owed)
    {byte : UInt8} (other : isContinuation byte.toNat = false) (rest : List UInt8) :
    decodeAfter done none (first :: (tail ++ byte :: rest)) = .error .malformed := by
  rw [decodeAfter_opened done opening (Nat.zero_lt_of_lt short),
    decodeAfter_continues done continues short, decodeAfter, other]
  rfl

end First

/-- Bytes go on with enough continuation bytes, or they end too early, or another byte comes. -/
theorem split_continuation (count : Nat) (bytes : List UInt8) :
    (∃ tail rest, bytes = tail ++ rest ∧ tail.length = count ∧ Continues tail) ∨
      (bytes.length < count ∧ Continues bytes) ∨
      ∃ tail byte rest, bytes = tail ++ byte :: rest ∧ tail.length < count ∧ Continues tail ∧
        isContinuation byte.toNat = false := by
  induction count generalizing bytes with
  | zero => exact .inl ⟨[], bytes, rfl, rfl, by simp [Continues]⟩
  | succ count ih =>
      cases bytes with
      | nil => exact .inr (.inl ⟨Nat.zero_lt_succ _, by simp [Continues]⟩)
      | cons byte rest =>
          by_cases head : isContinuation byte.toNat = true
          · have extend {tail : List UInt8} (continues : Continues tail) :
                Continues (byte :: tail) := List.forall_mem_cons.mpr ⟨head, continues⟩
            rcases ih rest with ⟨tail, rest, rfl, length, continues⟩ | ⟨short, continues⟩ |
              ⟨tail, other, rest, rfl, short, continues, stops⟩
            · exact .inl ⟨byte :: tail, rest, rfl, congrArg (· + 1) length, extend continues⟩
            · exact .inr (.inl ⟨Nat.succ_lt_succ short, extend continues⟩)
            · exact .inr (.inr ⟨byte :: tail, other, rest, rfl, Nat.succ_lt_succ short,
                extend continues, stops⟩)
          · exact .inr (.inr ⟨[], byte, rest, rfl, Nat.zero_lt_succ _, by simp [Continues],
              Bool.eq_false_iff.mpr head⟩)

/-! ## Where decoding fails -/

section Flaws

variable {first : UInt8} {opened : Opened} {tail rest : List UInt8}

theorem exists_completed_of_prefix {char : Char}
    (front : String.utf8EncodeChar char <+: first :: rest) :
    ∃ opened tail, opening? first.toNat = some opened ∧ opened.Completed tail char ∧
      tail <+: rest := by
  obtain ⟨head, tail, opened, encoded, opening, completed⟩ := exists_encoded char
  rw [encoded, List.cons_prefix_cons] at front
  obtain ⟨rfl, inside⟩ := front
  exact ⟨opened, tail, opening, completed, inside⟩

theorem flawed_of_unopened (opening : opening? first.toNat = none) :
    Flawed (first :: rest) .malformed := by
  refine ⟨List.cons_ne_nil _ _, ?_, ?_⟩
  · intro char front
    obtain ⟨opened, tail, opens, -⟩ := exists_completed_of_prefix front
    simp [opening] at opens
  · simp only [reduceCtorEq, false_iff]
    rintro ⟨opens, -, -⟩
    simp [opening] at opens

variable (opening : opening? first.toNat = some opened)

include opening

theorem completed_of_prefix {char : Char}
    (front : String.utf8EncodeChar char <+: first :: rest) :
    ∃ tail, opened.Completed tail char ∧ tail <+: rest := by
  obtain ⟨other, tail, opens, completed⟩ := exists_completed_of_prefix front
  cases opening.symm.trans opens
  exact ⟨tail, completed⟩

theorem cutOff_iff : CutOff (first :: rest) ↔ Continues rest ∧ rest.length < opened.owed := by
  constructor
  · rintro ⟨opens, continues, short⟩
    cases opening.symm.trans opens
    exact ⟨continues, short⟩
  · rintro ⟨continues, short⟩
    exact .intro opening continues short

theorem flawed_of_cutOff (continues : Continues tail) (short : tail.length < opened.owed) :
    Flawed (first :: tail) .truncated := by
  refine ⟨List.cons_ne_nil _ _, ?_, ?_⟩
  · intro char front
    obtain ⟨inner, completed, inside⟩ := completed_of_prefix opening front
    have length := inside.length_le
    rw [completed.owed] at length
    omega
  · simpa using CutOff.intro opening continues short

theorem flawed_of_broken (short : tail.length < opened.owed) {byte : UInt8}
    (other : isContinuation byte.toNat = false) :
    Flawed (first :: (tail ++ byte :: rest)) .malformed := by
  have stops {bytes : List UInt8} (member : byte ∈ bytes) : ¬ Continues bytes := by
    intro continues
    simp [continues byte member] at other
  refine ⟨List.cons_ne_nil _ _, ?_, ?_⟩
  · intro char front
    obtain ⟨inner, completed, inside⟩ := completed_of_prefix opening front
    -- an encoding is longer than `tail`, so it would take in the byte that ends it
    have covered : tail ++ [byte] <+: inner := by
      apply List.prefix_of_prefix_length_le _ inside
      · simp [completed.owed]
        omega
      · simp
    exact stops (covered.subset (by simp)) completed.continues
  · simp only [reduceCtorEq, false_iff, cutOff_iff opening]
    rintro ⟨continues, -⟩
    exact stops (by simp) continues

theorem flawed_of_invalid (owed : tail.length = opened.owed)
    (undecided : (opened.continuedBy tail).char? = none) :
    Flawed (first :: (tail ++ rest)) .malformed := by
  refine ⟨List.cons_ne_nil _ _, ?_, ?_⟩
  · intro char front
    obtain ⟨inner, completed, inside⟩ := completed_of_prefix opening front
    have same : inner = tail := by
      apply List.IsPrefix.eq_of_length _ (completed.owed.trans owed.symm)
      exact List.prefix_of_prefix_length_le inside (List.prefix_append tail rest)
        (Nat.le_of_eq (completed.owed.trans owed.symm))
    have char := completed.char
    simp [same, undecided] at char
  · simp only [reduceCtorEq, false_iff, cutOff_iff opening, List.length_append]
    omega

end Flaws

/-- Where bytes are left, a character is encoded, or decoding fails. -/
theorem decodes_or_fails {bytes : List UInt8} (nonempty : bytes ≠ []) :
    (∃ char rest, bytes = String.utf8EncodeChar char ++ rest) ∨
      ∃ flaw, Flawed bytes flaw ∧ ∀ done, decodeAfter done none bytes = .error flaw := by
  obtain ⟨first, bytes, rfl⟩ := List.exists_cons_of_ne_nil nonempty
  cases opening : opening? first.toNat with
  | none =>
      refine .inr ⟨_, flawed_of_unopened opening, ?_⟩
      intro done
      rw [decodeAfter, opening]
  | some opened =>
      rcases split_continuation opened.owed bytes with ⟨tail, rest, rfl, owed, continues⟩ |
        ⟨short, continues⟩ | ⟨tail, byte, rest, rfl, short, continues, other⟩
      · cases decided : (opened.continuedBy tail).char? with
        | some char =>
            refine .inl ⟨char, rest, ?_⟩
            rw [encoded_of_completed opening ⟨owed, continues, decided⟩, List.cons_append]
        | none =>
            refine .inr ⟨_, flawed_of_invalid opening owed decided, ?_⟩
            intro done
            rw [decodeAfter_ended done opening owed continues, decided]
      · exact .inr ⟨_, flawed_of_cutOff opening continues short,
          fun done => decodeAfter_cutOff done opening continues short⟩
      · exact .inr ⟨_, flawed_of_broken opening short other,
          fun done => decodeAfter_broken done opening continues short other rest⟩

theorem Flawed.unique {bytes : List UInt8} {flaw other : Flaw} (flawed : Flawed bytes flaw)
    (again : Flawed bytes other) : flaw = other := by
  have kind := flawed.kind.trans again.kind.symm
  cases flaw <;> cases other <;> simp_all

theorem Flawed.decodeAfter {bytes : List UInt8} {flaw : Flaw} (flawed : Flawed bytes flaw)
    (done : List Char) : decodeAfter done none bytes = .error flaw := by
  obtain ⟨char, rest, rfl⟩ | ⟨other, again, run⟩ := decodes_or_fails flawed.nonempty
  · exact absurd (List.prefix_append _ _) (flawed.unencoded char)
  · rw [flawed.unique again, run]

/-! ## Decoding all bytes -/

theorem encode_cons (char : Char) (text : String) :
    encode (String.ofList (char :: text.toList)) = String.utf8EncodeChar char ++ encode text := by
  rw [encode_eq, encode_eq, String.toList_ofList, List.flatMap_cons]

/-- Bytes begin with a text, and behind it there is nothing or a flaw. -/
theorem encodes_or_flawed (bytes : List UInt8) :
    (∃ text, bytes = encode text) ∨
      ∃ text rest flaw, bytes = encode text ++ rest ∧ Flawed rest flaw := by
  induction size : bytes.length using Nat.strongRecOn generalizing bytes with
  | _ bound ih =>
      by_cases nonempty : bytes = []
      · exact .inl ⟨"", nonempty⟩
      obtain ⟨char, rest, rfl⟩ | ⟨flaw, flawed, -⟩ := decodes_or_fails nonempty
      · -- a character takes a byte at least
        have shorter : rest.length < bound := by simp [← size, Char.utf8Size_pos]
        obtain ⟨text, rfl⟩ | ⟨text, rest, flaw, rfl, flawed⟩ := ih _ shorter rest rfl
        · exact .inl ⟨_, (encode_cons char text).symm⟩
        · refine .inr ⟨String.ofList (char :: text.toList), rest, flaw, ?_, flawed⟩
          rw [encode_cons, List.append_assoc]
      · exact .inr ⟨"", bytes, flaw, rfl, flawed⟩

theorem decodeAfter_encode (done : List Char) (text : String) (rest : List UInt8) :
    decodeAfter done none (encode text ++ rest) =
      decodeAfter (text.toList.reverse ++ done) none rest := by
  rw [encode_eq]
  induction text.toList generalizing done with
  | nil => rfl
  | cons char chars ih =>
      rw [List.flatMap_cons, List.append_assoc, decodeAfter_encoded, ih, List.reverse_cons,
        List.append_assoc, List.singleton_append]

theorem decode_encode (text : String) : decode (encode text) = .ok text := by
  have run := decodeAfter_encode [] text []
  rw [List.append_nil, List.append_nil] at run
  simp [decode, run, decodeAfter, Except.map]

theorem decode_of_flawed {rest : List UInt8} {flaw : Flaw} (flawed : Flawed rest flaw)
    (text : String) : decode (encode text ++ rest) = .error flaw := by
  rw [decode, decodeAfter_encode, flawed.decodeAfter]
  rfl

/-- Decoding accepts the encodings of texts and nothing else. -/
theorem decode_eq_ok_iff {bytes : List UInt8} {text : String} :
    decode bytes = .ok text ↔ bytes = encode text := by
  constructor
  · intro decoded
    obtain ⟨other, rfl⟩ | ⟨other, rest, flaw, rfl, flawed⟩ := encodes_or_flawed bytes
    · rw [decode_encode] at decoded
      cases decoded
      rfl
    · simp [decode_of_flawed flawed] at decoded
  · rintro rfl
    exact decode_encode text

end TreeWalk.Text.Utf8
