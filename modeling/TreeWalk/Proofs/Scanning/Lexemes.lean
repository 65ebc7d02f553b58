import TreeWalk.Proofs.Scanning.LongestMatch
import TreeWalk.Proofs.Scanning.Steps

/-!
# Shapes are longest matches

Each branch of `Scanner.shape` takes the longest piece that begins with its character, and a
mistake stands where nothing matches.
-/

set_option autoImplicit false

namespace TreeWalk.Lexical

open Scanner (shape literal? simpleKind? isBlank isNameStart isNamePart opensComment)

variable {first : Char} {chars : List Char}

theorem longest_of_explains {piece : List Char} {reading : Reading} (front : piece <+: chars)
    (found : Matches (first :: piece) reading)
    (bound : ∀ rest another, rest <+: chars → Explains first rest another (beginning? first) →
      rest.length ≤ piece.length) : Longest (first :: chars) (first :: piece) reading := by
  refine ⟨List.cons_prefix_cons.mpr ⟨rfl, front⟩, found, ?_⟩
  intro other another before again
  cases other with
  | nil => exact Nat.zero_le _
  | cons char rest =>
      obtain ⟨rfl, inside⟩ := List.cons_prefix_cons.mp before
      exact Nat.succ_le_succ (bound rest another inside again.explains)

theorem unmatched_of_explains
    (nothing : ∀ rest another, rest <+: chars →
      ¬ Explains first rest another (beginning? first)) : Unmatched (first :: chars) := by
  intro piece reading before found
  cases piece with
  | nil => exact not_matches_nil found
  | cons char rest =>
      obtain ⟨rfl, inside⟩ := List.cons_prefix_cons.mp before
      exact nothing rest reading inside found.explains

theorem length_le_takeWhile {test : Char → Bool} {piece : List Char} (front : piece <+: chars)
    (inside : ∀ char ∈ piece, test char = true) :
    piece.length ≤ (chars.takeWhile test).length := by
  obtain ⟨rest, rfl⟩ := front
  rw [List.takeWhile_append_of_pos inside, List.length_append]
  exact Nat.le_add_right _ _

theorem avoids {mark : Char} {text : List Char} (apart : mark ∉ text) :
    ∀ char ∈ text, decide (char ≠ mark) = true := by
  intro char member
  rw [decide_eq_true_iff]
  rintro rfl
  exact apart member

theorem takeWhile_chars (test : Char → Bool) (rest : List SourceChar) :
    (rest.map SourceChar.char).takeWhile test =
      (rest.takeWhile (test ·.char)).map SourceChar.char := by
  rw [List.takeWhile_map]
  rfl

theorem take_takeWhile_chars (test : Char → Bool) (rest : List SourceChar) :
    (rest.map SourceChar.char).take (rest.takeWhile (test ·.char)).length =
      (rest.map SourceChar.char).takeWhile test := by
  rw [← List.length_map SourceChar.char, ← takeWhile_chars]
  exact (List.prefix_iff_eq_take.mp (List.takeWhile_prefix _)).symm

/-! ## Operators -/

theorem operators_simple : ∀ entry ∈ operators,
    (entry.1.head?.bind simpleKind?).isSome = true → entry.1.length = 1 := by decide

theorem operators_double : ∀ entry ∈ operators,
    entry.1.length = 1 ∨ entry.1.length = 2 ∧ entry.1[1]? = some '=' := by decide

theorem simpleKind?_operator {kind : Kind} (simple : simpleKind? first = some kind) :
    ([first], kind) ∈ operators := by
  unfold simpleKind? at simple
  split at simple <;> cases simple <;> decide

theorem longest_operator {piece : List Char} {kind : Kind} (front : piece <+: chars)
    (known : (first :: piece, kind) ∈ operators)
    (outside : ¬ (first = '/' ∧ chars.head? = some '/'))
    (bound : ∀ rest other, rest <+: chars → (first :: rest, other) ∈ operators →
      rest.length ≤ piece.length) : Longest (first :: chars) (first :: piece) (.token kind none) := by
  have mark : beginning? first = some .mark := operators_mark _ known
  refine longest_of_explains front (.operator known) ?_
  intro rest another before explains
  rw [mark] at explains
  rcases explains with ⟨other, again, -⟩ | ⟨slash, body, rfl, -, -⟩
  · exact bound rest other before again
  · obtain ⟨behind, rfl⟩ := before
    exact absurd ⟨slash, rfl⟩ outside

theorem longest_simple {kind : Kind} (simple : simpleKind? first = some kind)
    (outside : ¬ (first = '/' ∧ chars.head? = some '/')) :
    Longest (first :: chars) [first] (.token kind none) := by
  apply longest_operator List.nil_prefix (simpleKind?_operator simple) outside
  intro rest other before again
  have single := operators_simple _ again (by simp [simple])
  simpa using single

theorem longest_single {kind : Kind} (known : ([first], kind) ∈ operators) (other : first ≠ '/')
    (apart : chars.head? ≠ some '=') : Longest (first :: chars) [first] (.token kind none) := by
  apply longest_operator List.nil_prefix known fun slash => other slash.1
  intro rest another before again
  rcases operators_double _ again with single | ⟨-, equal⟩
  · simpa using single
  · obtain ⟨behind, rfl⟩ := before
    cases rest with
    | nil => cases equal
    | cons char rest => exact absurd equal apart

theorem longest_double {kind : Kind} (known : ([first, '='], kind) ∈ operators)
    (other : first ≠ '/') :
    Longest (first :: '=' :: chars) [first, '='] (.token kind none) := by
  apply longest_operator ⟨chars, rfl⟩ known fun slash => other slash.1
  intro rest another before again
  rcases operators_double _ again with single | ⟨double, -⟩
  · simp_all
  · simp_all

/-! ## Strings -/

theorem longest_string {body behind : List Char} (inside : '"' ∉ body) :
    Longest ('"' :: (body ++ '"' :: behind)) ('"' :: (body ++ ['"']))
      (.token .string (some (.text (String.ofList body)))) := by
  refine longest_of_explains ⟨behind, by simp⟩ (.string inside) ?_
  rintro rest another before ⟨other, rfl, apart, -⟩
  have most := length_le_takeWhile ((List.prefix_append _ _).trans before) (avoids apart)
  rw [List.takeWhile_append_of_pos (avoids inside), List.takeWhile_cons_of_neg (by simp),
    List.append_nil] at most
  simpa using most

theorem unmatched_quote (inside : '"' ∉ chars) : Unmatched ('"' :: chars) := by
  apply unmatched_of_explains
  rintro rest another before ⟨body, rfl, -, -⟩
  exact inside (before.subset (by simp))

/-! ## Names -/

theorem find?_eq_lookup (kinds : List Kind) (word : String) :
    (kinds.find? fun kind => kind.spelling = word) =
      (kinds.map fun kind => (kind.spelling, kind)).lookup word := by
  induction kinds with
  | nil => rfl
  | cons kind kinds ih =>
      by_cases same : kind.spelling = word
      · simp [same]
      · simp [same, ih, List.lookup_cons, beq_false_of_ne (Ne.symm same)]

theorem ofWord?_eq_lookup (word : String) : Kind.ofWord? word = keywords.lookup word :=
  find?_eq_lookup Kind.keywords word

theorem longest_word (begins : Letter first) :
    Longest (first :: chars) (first :: chars.takeWhile isNamePart)
      (.token (wordKind (String.ofList (first :: chars.takeWhile isNamePart))) none) := by
  have part (char : Char) : isNamePart char = true ↔ Letter char ∨ char.isDigit = true := by
    simp [isNamePart, Letter, Char.isAlphanum, or_right_comm]
  refine longest_of_explains (List.takeWhile_prefix _) (.word begins ?_) ?_
  · intro char member
    exact (part char).mp (List.mem_takeWhile_imp member)
  · intro rest another before explains
    rw [beginning?_letter begins] at explains
    exact length_le_takeWhile before fun char member => (part char).mpr (explains.1 char member)

end TreeWalk.Lexical
