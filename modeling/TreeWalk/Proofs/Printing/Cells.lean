import Mathlib.Algebra.Order.Field.Power
import Mathlib.Tactic.FieldSimp
import Mathlib.Tactic.Positivity
import Mathlib.Tactic.Ring
import TreeWalk.Number.Shortest

/-!
# A decimal rounds to one double

The cells of two different doubles have no number in common, although neighbours share an end: of
two neighbours one has an odd mantissa, and its cell is open.  The shortest decimal of a double lies
in the double's own cell, so that it is the decimal of no other double.
-/

set_option autoImplicit false

namespace TreeWalk.Number

/-! ## Doubles -/

/-- The mantissa and the exponent of a double: there is a leading bit, unless the unit is the least
one. -/
structure Canonical (mantissa : Nat) (exponent : Int) : Prop where
  small : mantissa < 2 * leadingUnit
  least : leastExponent ≤ exponent
  leading : leastExponent < exponent → leadingUnit ≤ mantissa

theorem Canonical.exponent_of_zero {exponent : Int} (double : Canonical 0 exponent) :
    exponent = leastExponent := by
  by_contra other
  exact absurd (double.leading (lt_of_le_of_ne double.least (Ne.symm other))) (by decide)

theorem leadingUnit_eq : leadingUnit = 4503599627370496 := rfl

section Fields

variable {field fraction mantissa : Nat} {exponent : Int}

theorem canonical_ofFields (bound : fraction < leadingUnit)
    (finite : Magnitude.ofFields field fraction = .finite mantissa exponent) :
    Canonical mantissa exponent := by
  unfold Magnitude.ofFields at finite
  split at finite
  · obtain ⟨rfl, rfl⟩ := Magnitude.finite.inj finite
    exact ⟨by omega, le_rfl, fun above => absurd above (lt_irrefl _)⟩
  · split at finite
    · split at finite <;> cases finite
    · obtain ⟨rfl, rfl⟩ := Magnitude.finite.inj finite
      exact ⟨by omega, by omega, fun _ => Nat.le_add_right _ _⟩

theorem ofFields_inj {field' fraction' : Nat} (bound : fraction < leadingUnit)
    (bound' : fraction' < leadingUnit)
    (finite : Magnitude.ofFields field fraction = .finite mantissa exponent)
    (finite' : Magnitude.ofFields field' fraction' = .finite mantissa exponent) :
    field = field' ∧ fraction = fraction' := by
  unfold Magnitude.ofFields at finite finite'
  split_ifs at finite finite' <;> simp only [Magnitude.finite.injEq] at finite finite' <;> omega

end Fields

/-- A double that is neither infinite nor without a value. -/
def IsFinite (value : Float) : Prop :=
  ∃ mantissa exponent, (Binary.ofFloat value).magnitude = .finite mantissa exponent

theorem canonical_ofFloat {value : Float} {mantissa : Nat} {exponent : Int}
    (finite : (Binary.ofFloat value).magnitude = .finite mantissa exponent) :
    Canonical mantissa exponent :=
  canonical_ofFields (Nat.mod_lt _ (by decide)) finite

theorem ofFloat_inj {value value' : Float} (finite : IsFinite value)
    (same : Binary.ofFloat value = Binary.ofFloat value') : value = value' := by
  obtain ⟨mantissa, exponent, finite⟩ := finite
  obtain ⟨sign, magnitude⟩ := Binary.mk.inj same
  have finite' : (Binary.ofFloat value').magnitude = .finite mantissa exponent := by
    rw [← same, finite]
  obtain ⟨field, fraction⟩ := ofFields_inj (Nat.mod_lt _ (by decide)) (Nat.mod_lt _ (by decide))
    finite finite'
  rw [decide_eq_decide] at sign
  have bound := value.toBits.toNat_lt
  have bound' := value'.toBits.toNat_lt
  rw [leadingUnit_eq, fieldCount] at *
  have bits : value.toBits = value'.toBits := UInt64.toNat_inj.mp (by omega)
  obtain ⟨⟨word, valid⟩⟩ := value
  obtain ⟨⟨word', valid'⟩⟩ := value'
  obtain rfl : word = word' := bits
  rfl

/-! ## Cells -/

theorem zpow_eq_div {base : ℚ} (positive : 0 < base) (power : Int) :
    base ^ power = base ^ power.toNat / base ^ (-power).toNat := by
  rw [← zpow_natCast, ← zpow_natCast, ← zpow_sub₀ positive.ne']
  congr 1
  omega

namespace Cell

/-- The number lies in the cell; the ends belong to a closed one. -/
structure Holds (cell : Cell) (number : ℚ) : Prop where
  low : cell.low * (2 : ℚ) ^ cell.exponent ≤ number
  high : number ≤ cell.high * (2 : ℚ) ^ cell.exponent
  inside : cell.closed = false →
    cell.low * (2 : ℚ) ^ cell.exponent < number ∧ number < cell.high * (2 : ℚ) ^ cell.exponent

theorem exists_grain (cell : Cell) (place : Int) :
    ∃ grain : ℚ, 0 < grain ∧ (2 : ℚ) ^ cell.exponent = (cell.scale place).quarter * grain ∧
      (10 : ℚ) ^ place = (cell.scale place).step * grain := by
  refine ⟨1 / (2 ^ (-cell.exponent).toNat * 10 ^ (-place).toNat), by positivity, ?_, ?_⟩
  · rw [zpow_eq_div two_pos]
    simp only [scale, Nat.pow_eq]
    push_cast
    field_simp
  · rw [zpow_eq_div (show (0 : ℚ) < 10 by norm_num)]
    simp only [scale, Nat.pow_eq]
    push_cast
    field_simp

theorem holds_point {cell : Cell} {place : Int} {point : Nat}
    (taken : cell.holds place point = true) : cell.Holds (point * (10 : ℚ) ^ place) := by
  obtain ⟨grain, positive, unit, grid⟩ := cell.exists_grain place
  have weak {few many size other : Nat} (least : few * size ≤ many * other) :
      few * (size * grain) ≤ many * (other * grain) := by
    rw [← mul_assoc, ← mul_assoc]
    exact mul_le_mul_of_nonneg_right (by exact_mod_cast least) positive.le
  have strict {few many size other : Nat} (less : few * size < many * other) :
      few * (size * grain) < many * (other * grain) := by
    rw [← mul_assoc, ← mul_assoc]
    exact mul_lt_mul_of_pos_right (by exact_mod_cast less) positive
  unfold holds at taken
  refine ⟨?_, ?_, fun openEnds => ?_⟩ <;> rw [unit, grid]
  · refine weak ?_
    split at taken <;> simp only [Bool.and_eq_true, decide_eq_true_eq] at taken <;> omega
  · refine weak ?_
    split at taken <;> simp only [Bool.and_eq_true, decide_eq_true_eq] at taken <;> omega
  · simp only [openEnds, Bool.false_eq_true, if_false, Bool.and_eq_true, decide_eq_true_eq] at taken
    exact ⟨strict taken.1, strict taken.2⟩

variable {mantissa mantissa' : Nat} {exponent exponent' : Int} {number number' : ℚ}

theorem holds_middle (positive : 0 < mantissa) :
    (around mantissa exponent).Holds (mantissa * (2 : ℚ) ^ exponent) := by
  have quarters : mantissa * (2 : ℚ) ^ exponent =
      (4 * mantissa : Nat) * (2 : ℚ) ^ (around mantissa exponent).exponent := by
    rw [around, zpow_sub₀ two_ne_zero]
    push_cast
    ring
  have unit : (0 : ℚ) < 2 ^ (around mantissa exponent).exponent := zpow_pos two_pos _
  have low : (around mantissa exponent).low < 4 * mantissa := by
    simp only [around]
    split <;> omega
  have high : 4 * mantissa < (around mantissa exponent).high := Nat.lt_add_of_pos_right two_pos
  have above := mul_lt_mul_of_pos_right (Nat.cast_lt (α := ℚ) |>.mpr low) unit
  have below := mul_lt_mul_of_pos_right (Nat.cast_lt (α := ℚ) |>.mpr high) unit
  rw [quarters]
  exact ⟨above.le, below.le, fun _ => ⟨above, below⟩⟩

/-- Between the cells of two doubles there is no overlap, and a common end only if one is open. -/
theorem high_le_low (double : Canonical mantissa exponent)
    (double' : Canonical mantissa' exponent')
    (less : exponent < exponent' ∨ exponent = exponent' ∧ mantissa < mantissa') :
    (around mantissa exponent).high ≤
        (around mantissa' exponent').low * 2 ^ (exponent' - exponent).toNat ∧
      ((around mantissa exponent).closed = true → (around mantissa' exponent').closed = true →
        (around mantissa exponent).high <
          (around mantissa' exponent').low * 2 ^ (exponent' - exponent).toNat) := by
  have small := double.small
  simp only [around, decide_eq_true_eq]
  rcases less with larger | ⟨rfl, less⟩
  · -- an upper double has a leading bit, and its unit is twice as large or more
    have leading := double'.leading (lt_of_le_of_lt double.least larger)
    have above := lt_of_le_of_lt double.least larger
    have twice : 2 ^ 1 ≤ 2 ^ (exponent' - exponent).toNat := Nat.pow_le_pow_right two_pos (by omega)
    rw [leadingUnit_eq] at *
    have low : 4 * 4503599627370496 - 1 ≤ 4 * mantissa' -
        if mantissa' = 4503599627370496 ∧ leastExponent < exponent' then 1 else 2 := by
      split <;> omega
    have least := Nat.mul_le_mul low twice
    constructor
    · omega
    · intros
      omega
  · -- the lower double keeps the upper one from being a power of two with a narrow cell
    have wide : ¬ (mantissa' = leadingUnit ∧ leastExponent < exponent) := by
      rintro ⟨rfl, above⟩
      exact absurd (double.leading above) (Nat.not_le.mpr less)
    rw [if_neg wide, sub_self, Int.toNat_zero, pow_zero, mul_one]
    constructor
    · omega
    · intros
      omega

theorem Holds.lt (double : Canonical mantissa exponent) (double' : Canonical mantissa' exponent')
    (less : exponent < exponent' ∨ exponent = exponent' ∧ mantissa < mantissa')
    (held : (around mantissa exponent).Holds number)
    (held' : (around mantissa' exponent').Holds number') : number < number' := by
  obtain ⟨apart, between⟩ := high_le_low double double' less
  have unit : (0 : ℚ) < 2 ^ (around mantissa exponent).exponent := zpow_pos two_pos _
  have scaled : (2 : ℚ) ^ (around mantissa' exponent').exponent =
      2 ^ (exponent' - exponent).toNat * 2 ^ (around mantissa exponent).exponent := by
    rw [← zpow_natCast, ← zpow_add₀ two_ne_zero]
    congr 1
    simp only [around]
    omega
  have low := held'.low
  have inside := held'.inside
  rw [scaled, ← mul_assoc] at low inside
  have step : (around mantissa exponent).high * (2 : ℚ) ^ (around mantissa exponent).exponent ≤
      (around mantissa' exponent').low * 2 ^ (exponent' - exponent).toNat *
        2 ^ (around mantissa exponent).exponent :=
    mul_le_mul_of_nonneg_right (by exact_mod_cast apart) unit.le
  cases first : (around mantissa exponent).closed with
  | false => exact ((held.inside first).2.trans_le step).trans_le low
  | true =>
      cases second : (around mantissa' exponent').closed with
      | false => exact (held.high.trans step).trans_lt (inside second).1
      | true =>
          have strict : (around mantissa exponent).high *
                (2 : ℚ) ^ (around mantissa exponent).exponent <
              (around mantissa' exponent').low * 2 ^ (exponent' - exponent).toNat *
                2 ^ (around mantissa exponent).exponent :=
            mul_lt_mul_of_pos_right (by exact_mod_cast between first second) unit
          exact (held.high.trans_lt strict).trans_le low

/-- The cells of different doubles have no number in common. -/
theorem Holds.unique (double : Canonical mantissa exponent)
    (double' : Canonical mantissa' exponent') (held : (around mantissa exponent).Holds number)
    (held' : (around mantissa' exponent').Holds number) :
    mantissa = mantissa' ∧ exponent = exponent' := by
  rcases lt_trichotomy exponent exponent' with less | same | more
  · exact absurd (held.lt double double' (Or.inl less) held') (lt_irrefl _)
  · rcases lt_trichotomy mantissa mantissa' with less | alike | more
    · exact absurd (held.lt double double' (Or.inr ⟨same, less⟩) held') (lt_irrefl _)
    · exact ⟨alike, same⟩
    · exact absurd (held'.lt double' double (Or.inr ⟨same.symm, more⟩) held) (lt_irrefl _)
  · exact absurd (held'.lt double' double (Or.inl more) held) (lt_irrefl _)

end Cell

/-! ## The shortest decimal -/

def Decimal.value (number : Decimal) : ℚ := number.digits * (10 : ℚ) ^ number.exponent

theorem value_exactDecimal (mantissa : Nat) (exponent : Int) :
    (exactDecimal mantissa exponent).value = mantissa * (2 : ℚ) ^ exponent := by
  simp only [exactDecimal, Decimal.value, Nat.pow_eq]
  push_cast
  by_cases negative : exponent < 0
  · have whole : exponent.toNat = 0 := by omega
    have tenths : (10 : ℚ) ^ (-exponent).toNat = 2 ^ (-exponent).toNat * 5 ^ (-exponent).toNat := by
      rw [← mul_pow]
      norm_num
    rw [if_pos negative, zpow_eq_div two_pos, zpow_eq_div (show (0 : ℚ) < 10 by norm_num), whole,
      tenths]
    field_simp
  · have whole : (-exponent).toNat = 0 := by omega
    rw [if_neg negative, zpow_eq_div two_pos, whole]
    ring

theorem Cell.holds_of_nearest? {cell : Cell} {place : Int} {point : Nat}
    (nearest : cell.nearest? place = some point) : cell.holds place point = true := by
  unfold nearest? at nearest
  dsimp only at nearest
  split at nearest
  · next taken =>
      obtain rfl := Option.some.inj nearest
      exact ((Bool.and_eq_true _ _).mp taken).1
  · split at nearest
    · next taken =>
        obtain rfl := Option.some.inj nearest
        exact taken
    · cases nearest

/-- The shortest decimal of a double rounds to this double. -/
theorem holds_shortest {mantissa : Nat} (positive : 0 < mantissa) (exponent : Int) :
    (Cell.around mantissa exponent).Holds (shortest mantissa exponent).value := by
  unfold shortest
  dsimp only
  generalize attempts : List.findSome? _ (List.range mostDigits) = found
  cases found with
  | none =>
      rw [Option.getD_none, value_exactDecimal]
      exact Cell.holds_middle positive
  | some decimal =>
      obtain ⟨extra, -, attempt⟩ := List.exists_of_findSome?_eq_some attempts
      obtain ⟨point, nearest, rfl⟩ := Option.map_eq_some_iff.mp attempt
      exact Cell.holds_point (Cell.holds_of_nearest? nearest)

theorem value_shortest {mantissa : Nat} (positive : 0 < mantissa) (exponent : Int) :
    0 < (shortest mantissa exponent).value := by
  have low : 0 < (Cell.around mantissa exponent).low := by
    simp only [Cell.around]
    split <;> omega
  have unit : (0 : ℚ) < 2 ^ (Cell.around mantissa exponent).exponent := zpow_pos two_pos _
  exact lt_of_lt_of_le (mul_pos (Nat.cast_pos.mpr low) unit) (holds_shortest positive exponent).low

theorem digits_shortest {mantissa : Nat} (positive : 0 < mantissa) (exponent : Int) :
    0 < (shortest mantissa exponent).digits := by
  have above := value_shortest positive exponent
  rw [Nat.pos_iff_ne_zero]
  intro zero
  simp [Decimal.value, zero] at above

/-- No two doubles have the same shortest decimal. -/
theorem shortest_inj {mantissa mantissa' : Nat} {exponent exponent' : Int}
    (positive : 0 < mantissa) (positive' : 0 < mantissa') (double : Canonical mantissa exponent)
    (double' : Canonical mantissa' exponent')
    (same : (shortest mantissa exponent).value = (shortest mantissa' exponent').value) :
    mantissa = mantissa' ∧ exponent = exponent' :=
  (holds_shortest positive exponent).unique double double'
    (same ▸ holds_shortest positive' exponent')

end TreeWalk.Number
