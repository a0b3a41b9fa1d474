import CaptureFormat.Proofs.Decimal.Digits
import Mathlib.Algebra.Order.Ring.Abs
import Mathlib.Data.Int.Log
import Mathlib.Data.Rat.Floor
import Mathlib.Tactic.FieldSimp
import Mathlib.Tactic.Linarith
import Mathlib.Tactic.Positivity

namespace CaptureFormat

/-!
# Rounding

Both ways of rounding a decimal give the nearest multiple of a power of ten,
and of two equally near ones the even one; there is only one such multiple.
For a number of places the power is fixed.  For a number of digits it is the
place of the last one, counted from the first digit of the exact number, also
where rounding carries into a new first digit.
-/

/-- The rational number that a decimal stands for. -/
def Decimal.value (decimal : Decimal) : ℚ :=
  decimal.coefficient * 10 ^ decimal.exponent

/-- The rational number that a finite binary number stands for, without its sign. -/
def Binary64.absolute (number : Binary64) : ℚ :=
  number.significand * 2 ^ number.scale

/-- A number rounds to the nearest multiple of a step, and to the even one of two. -/
def RoundsTo (step exact rounded : ℚ) : Prop :=
  ∃ multiple : ℕ,
    rounded = multiple * step ∧
      2 * |rounded - exact| ≤ step ∧
      (2 * |rounded - exact| = step → Even multiple)

namespace RoundsTo

variable {step exact rounded other : ℚ}

/-- A multiple of the step stays as it is. -/
theorem self
    (positive : 0 < step)
    (isMultiple : ∃ multiple : ℕ, exact = multiple * step) :
    RoundsTo step exact exact := by
  obtain ⟨multiple, isMultiple⟩ := isMultiple
  refine ⟨multiple, isMultiple, ?_, ?_⟩
  · rw [sub_self, abs_zero, mul_zero]
    exact positive.le
  · rw [sub_self, abs_zero, mul_zero]
    intro isZero
    exact absurd isZero positive.ne

/-- A number rounds to one multiple only. -/
theorem unique
    (positive : 0 < step)
    (left : RoundsTo step exact rounded)
    (right : RoundsTo step exact other) :
    rounded = other := by
  obtain ⟨first, rfl, nearFirst, evenFirst⟩ := left
  obtain ⟨second, rfl, nearSecond, evenSecond⟩ := right
  have apart :
      |(first : ℚ) - second| * step ≤
        |first * step - exact| + |second * step - exact| := by
    have triangle :=
      abs_sub_le (first * step) exact (second * step)
    rw [abs_sub_comm exact, ← sub_mul, abs_mul, abs_of_pos positive]
      at triangle
    exact triangle
  have atMost : |(first : ℚ) - second| ≤ 1 := by
    apply le_of_mul_le_mul_right _ positive
    linarith
  have atMostInt : |(first : ℤ) - second| ≤ 1 := by
    exact_mod_cast atMost
  by_contra different
  have distinct : first ≠ second := by
    rintro rfl
    exact different rfl
  -- neighbours that are equally near would both be even
  have neighbours : |(first : ℤ) - second| = 1 := by
    have positive : 0 < |(first : ℤ) - second| :=
      abs_pos.mpr (by omega)
    omega
  have neighboursCast : |(first : ℚ) - second| = 1 := by
    exact_mod_cast neighbours
  rw [neighboursCast, one_mul] at apart
  have bothEven : Even first ∧ Even second :=
    ⟨evenFirst (by linarith), evenSecond (by linarith)⟩
  obtain ⟨⟨half, rfl⟩, ⟨otherHalf, rfl⟩⟩ := bothEven
  rcases (abs_eq zero_le_one).mp neighbours with above | below <;> omega

end RoundsTo

/-- A rounded quotient is within half a denominator, and even half way. -/
theorem roundQuotient_spec
    {denominator : Nat}
    (positive : 0 < denominator)
    (numerator : Nat) :
    let rounded := roundQuotient numerator denominator
    2 * |(rounded * denominator : ℤ) - numerator| ≤ denominator ∧
      (2 * |(rounded * denominator : ℤ) - numerator| = denominator →
        Even rounded) := by
  intro rounded
  have split := Nat.div_add_mod numerator denominator
  have small := Nat.mod_lt numerator positive
  simp only [rounded, roundQuotient]
  generalize numerator / denominator = quotient at split ⊢
  generalize numerator % denominator = remainder at split small ⊢
  have numeratorEq :
      (numerator : ℤ) = quotient * denominator + remainder := by
    rw [← split, mul_comm denominator]
    push_cast
    rfl
  split
  · next below =>
      have distance :
          |(quotient * denominator : ℤ) - numerator| = remainder := by
        rw [numeratorEq, sub_add_cancel_left, abs_neg, Nat.abs_cast]
      rw [distance]
      exact ⟨by omega, by omega⟩
  · split
    · next above =>
        have distance :
            |((quotient + 1 : ℕ) * denominator : ℤ) - numerator| =
              denominator - remainder := by
          rw [numeratorEq, Nat.cast_add, Nat.cast_one, add_one_mul,
            add_sub_add_left_eq_sub, abs_of_pos (by omega)]
        rw [distance]
        exact ⟨by omega, by omega⟩
    · next notBelow notAbove =>
        refine ⟨?_, fun _ => ?_⟩
        · rcases Nat.mod_two_eq_zero_or_one quotient with even | odd
          · rw [even, numeratorEq, Nat.add_zero, sub_add_cancel_left,
              abs_neg, Nat.abs_cast]
            omega
          · rw [odd, numeratorEq, Nat.cast_add, Nat.cast_one, add_one_mul,
              add_sub_add_left_eq_sub, abs_of_pos (by omega)]
            omega
        · rw [Nat.even_iff]
          omega

/-- A count of units rounds to the nearest multiple of so many units. -/
theorem roundsTo_roundQuotient
    {unit : ℚ}
    (positiveUnit : 0 < unit)
    {denominator : Nat}
    (positive : 0 < denominator)
    (numerator : Nat) :
    RoundsTo (denominator * unit) (numerator * unit)
      (roundQuotient numerator denominator * (denominator * unit)) := by
  obtain ⟨near, even⟩ := roundQuotient_spec positive numerator
  generalize roundQuotient numerator denominator = rounded at near even ⊢
  have scaled :
      rounded * (denominator * unit) - numerator * unit =
        ((rounded * denominator - numerator : ℤ) : ℚ) * unit := by
    push_cast
    ring
  have distance :
      2 * |rounded * (denominator * unit) - numerator * unit| =
        ((2 * |(rounded * denominator : ℤ) - numerator| : ℤ) : ℚ) *
          unit := by
    rw [scaled, abs_mul, abs_of_pos positiveUnit, ← mul_assoc]
    push_cast
    rfl
  refine ⟨rounded, rfl, ?_, ?_⟩
  · rw [distance]
    apply mul_le_mul_of_nonneg_right _ positiveUnit.le
    exact_mod_cast near
  · rw [distance]
    intro tie
    apply even
    exact_mod_cast mul_right_cancel₀ positiveUnit.ne' tie

namespace Significand

/-- Zeros at the end of the digits have no part in the value. -/
theorem value?_append_zeros
    (digits : List Char)
    (count : Nat)
    (point : Int) :
    value? ⟨digits ++ List.replicate count '0', point⟩ =
      value? ⟨digits, point⟩ := by
  have ten : (10 : ℚ) ≠ 0 := by norm_num
  have power :
      (10 : ℚ) ^ (point - digits.length) =
        10 ^ count *
          10 ^ (point - (digits ++ List.replicate count '0').length) := by
    rw [← zpow_natCast, ← zpow_add₀ ten, List.length_append,
      List.length_replicate]
    congr 1
    omega
  simp only [value?, Numeral.read?_append_zeros (by decide : 0 < 10), power]
  cases Numeral.read? 10 .lower digits with
  | none =>
      rfl
  | some number =>
      change
        some (((number * 10 ^ count : ℕ) : ℚ) * _) = some ((number : ℚ) * _)
      rw [Nat.cast_mul, Nat.cast_pow, Nat.cast_ofNat, mul_assoc]

/-- Trimming leaves the value as it is. -/
theorem value?_trimmed (number : Significand) :
    number.trimmed.value? = number.value? := by
  obtain ⟨digits, point⟩ := number
  cases digits with
  | nil =>
      rfl
  | cons first rest =>
      obtain ⟨count, shape⟩ := exists_dropTrailingZeros_append rest
      conv_rhs => rw [shape, ← List.cons_append, value?_append_zeros]
      rfl

theorem value?_ofDecimal (decimal : Decimal) :
    (ofDecimal decimal).value? = some decimal.value := by
  have reads :
      Numeral.read? 10 .lower (Numeral.decimal decimal.coefficient) =
        some decimal.coefficient :=
    Numeral.read?_digits (by decide) (by decide) _
  simp only [value?, ofDecimal, reads, Decimal.value, add_sub_cancel_left]
  rfl

end Significand

namespace Decimal

theorem value_magnitude (number : Binary64) :
    (magnitude number).value = number.absolute := by
  unfold magnitude value Binary64.absolute
  split
  · next whole =>
      have power : (2 : ℚ) ^ number.scale = 2 ^ number.scale.toNat := by
        rw [← zpow_natCast, Int.toNat_of_nonneg whole]
      rw [power, Nat.pow_eq, zpow_zero, mul_one]
      push_cast
      rfl
  · next fractional =>
      obtain ⟨places, isPlaces⟩ :
          ∃ places : ℕ, number.scale = -(places : ℤ) :=
        ⟨(-number.scale).toNat, by omega⟩
      have fives : (10 : ℚ) ^ places = 5 ^ places * 2 ^ places := by
        rw [← mul_pow]
        norm_num
      simp only [isPlaces, neg_neg, Int.toNat_natCast, zpow_neg,
        zpow_natCast, fives, Nat.pow_eq]
      push_cast
      field_simp

section

variable (decimal : Decimal)

theorem power_pos (power : ℤ) : (0 : ℚ) < 10 ^ power :=
  zpow_pos (by norm_num) power

/-- A decimal is a multiple of any power of ten that is no larger than its own. -/
theorem exists_multiple
    {power : ℤ}
    (small : power ≤ decimal.exponent) :
    ∃ multiple : ℕ, decimal.value = multiple * 10 ^ power := by
  obtain ⟨zeros, isZeros⟩ : ∃ zeros : ℕ, decimal.exponent = zeros + power :=
    ⟨(decimal.exponent - power).toNat, by omega⟩
  refine ⟨decimal.coefficient * 10 ^ zeros, ?_⟩
  rw [value, isZeros, zpow_add₀ (by norm_num), zpow_natCast, Nat.cast_mul,
    Nat.cast_pow, Nat.cast_ofNat, mul_assoc]

/-- Rounding away digits rounds to the power of ten that is left. -/
theorem roundsTo_cut (excess : Nat) :
    RoundsTo (10 ^ (decimal.exponent + excess)) decimal.value
      (value
        ⟨roundQuotient decimal.coefficient (Nat.pow 10 excess),
          decimal.exponent + excess⟩) := by
  have rounds :=
    roundsTo_roundQuotient (power_pos decimal.exponent)
      (Nat.pow_pos (by decide) : 0 < 10 ^ excess) decimal.coefficient
  have step :
      (10 : ℚ) ^ (decimal.exponent + excess) =
        (10 ^ excess : ℕ) * 10 ^ decimal.exponent := by
    rw [add_comm, zpow_add₀ (by norm_num), zpow_natCast, Nat.cast_pow,
      Nat.cast_ofNat]
  rw [value, value, step]
  exact rounds

/-- Rounding to places leaves a number as it is, or makes them its last ones. -/
theorem toPlaces_cases (places : Nat) :
    -(places : ℤ) ≤ decimal.exponent ∧ decimal.toPlaces places = decimal ∨
      ∃ excess : ℕ,
        decimal.exponent + excess = -(places : ℤ) ∧
          decimal.toPlaces places =
            ⟨roundQuotient decimal.coefficient (Nat.pow 10 excess),
              -places⟩ := by
  let excess := (-places - decimal.exponent).toNat
  by_cases enough : excess = 0
  · exact Or.inl ⟨by omega, if_pos enough⟩
  · exact Or.inr ⟨excess, by omega, if_neg enough⟩

/-- Rounding to places gives the nearest number with no more of them. -/
theorem roundsTo_toPlaces (places : Nat) :
    RoundsTo (10 ^ (-places : ℤ)) decimal.value
      (decimal.toPlaces places).value := by
  obtain ⟨enough, unchanged⟩ | ⟨excess, exponent, cut⟩ :=
    decimal.toPlaces_cases places
  · rw [unchanged]
    exact RoundsTo.self (power_pos _) (decimal.exists_multiple enough)
  · have rounds := decimal.roundsTo_cut excess
    rw [exponent] at rounds
    rwa [cut]

end

/-- The first digit of a decimal stands where the logarithm of its value says. -/
theorem log_value
    {decimal : Decimal}
    (nonzero : decimal.coefficient ≠ 0) :
    Int.log 10 decimal.value =
      Nat.log 10 decimal.coefficient + decimal.exponent := by
  have positive : 0 < decimal.value := by
    have coefficient : (0 : ℚ) < decimal.coefficient := by
      exact_mod_cast Nat.pos_of_ne_zero nonzero
    exact mul_pos coefficient (power_pos decimal.exponent)
  have split (power : ℕ) :
      ((10 : ℕ) : ℚ) ^ (power + decimal.exponent) =
        (10 ^ power : ℕ) * 10 ^ decimal.exponent := by
    rw [zpow_add₀ (by norm_num), zpow_natCast]
    norm_cast
  apply le_antisymm
  · apply Int.lt_add_one_iff.mp
    have below :
        decimal.value <
          ((10 : ℕ) : ℚ) ^
            (((Nat.log 10 decimal.coefficient + 1 : ℕ) : ℤ) +
              decimal.exponent) := by
      rw [split]
      apply mul_lt_mul_of_pos_right _ (power_pos decimal.exponent)
      exact_mod_cast Nat.lt_pow_succ_log_self (by decide) _
    have bound :=
      (Int.lt_zpow_iff_log_lt (by decide : 1 < 10) positive).mp below
    omega
  · apply (Int.zpow_le_iff_le_log (by decide) positive).mp
    rw [split]
    apply mul_le_mul_of_nonneg_right _ (power_pos decimal.exponent).le
    exact_mod_cast Nat.pow_log_le_self 10 nonzero

/-- The digits of a power of ten are a one and zeros. -/
theorem decimal_ten_pow (power : Nat) :
    Numeral.decimal (10 ^ power) = '1' :: List.replicate power '0' := by
  induction power with
  | zero =>
      rfl
  | succ power inductionHypothesis =>
      have large : 10 ≤ 10 ^ (power + 1) := by
        rw [Nat.pow_succ]
        exact Nat.le_mul_of_pos_left 10 (Nat.pow_pos (by decide))
      have quotient : 10 ^ (power + 1) / 10 = 10 ^ power := by
        rw [Nat.pow_succ]
        exact Nat.mul_div_cancel _ (by decide)
      have remainder : 10 ^ (power + 1) % 10 = 0 := by
        rw [Nat.pow_succ]
        exact Nat.mul_mod_left _ _
      rw [Numeral.decimal] at inductionHypothesis ⊢
      rw [Numeral.digits_of_base_le (by decide) large, quotient, remainder,
        inductionHypothesis, List.replicate_succ']
      rfl

/-- Where rounding carries into a new digit, the last one is a zero. -/
theorem exists_take_append_zeros
    {count number : Nat}
    (positive : 0 < count)
    (most : number ≤ 10 ^ count) :
    ∃ zeros,
      Numeral.decimal number =
        (Numeral.decimal number).take count ++ List.replicate zeros '0' := by
  rcases Nat.lt_or_eq_of_le most with below | rfl
  · have short : (Numeral.decimal number).length ≤ count := by
      rw [Numeral.decimal, Numeral.length_digits (by decide)]
      exact Nat.log_lt_of_lt_pow' positive.ne' below
    refine ⟨0, ?_⟩
    rw [List.take_of_length_le short]
    exact (List.append_nil _).symm
  · obtain ⟨others, rfl⟩ := Nat.exists_eq_succ_of_ne_zero positive.ne'
    refine ⟨1, ?_⟩
    rw [decimal_ten_pow, List.take_succ_cons, List.take_replicate,
      Nat.min_eq_left (Nat.le_succ others), List.cons_append,
      ← List.replicate_add]

/-- A rounded quotient is at most one more than the floor. -/
theorem roundQuotient_le (numerator denominator : Nat) :
    roundQuotient numerator denominator ≤ numerator / denominator + 1 := by
  unfold roundQuotient
  simp only []
  split
  · exact Nat.le_succ _
  · split <;> omega

/-- Rounding carries into one new digit at most. -/
theorem roundQuotient_le_ten_pow
    {coefficient excess count : Nat}
    (digits : excess + count = Nat.log 10 coefficient + 1) :
    roundQuotient coefficient (Nat.pow 10 excess) ≤ 10 ^ count := by
  have floor : coefficient / 10 ^ excess < 10 ^ count := by
    apply Nat.div_lt_of_lt_mul
    rw [← Nat.pow_add, digits]
    exact Nat.lt_pow_succ_log_self (by decide) _
  exact (roundQuotient_le coefficient (Nat.pow 10 excess)).trans floor

section

variable
  {decimal : Decimal}
  {count : Nat}

/-- A number with no more digits than wanted is filled up with zeros. -/
theorem value?_toDigits_of_short
    (nonzero : decimal.coefficient ≠ 0)
    (short : (Numeral.decimal decimal.coefficient).length ≤ count) :
    (decimal.toDigits count).value? = some decimal.value := by
  have filled :
      decimal.toDigits count =
        { Significand.ofDecimal decimal with
          digits :=
            (Significand.ofDecimal decimal).digits.rightpad count '0' } := by
    rw [toDigits, if_neg nonzero]
    exact if_pos (Nat.sub_eq_zero_of_le short)
  rw [filled, List.rightpad, Significand.value?_append_zeros]
  exact Significand.value?_ofDecimal decimal

/-- A number with more digits than wanted is rounded, and a carry is cut again. -/
theorem value?_toDigits_of_long
    (positive : 0 < count)
    (nonzero : decimal.coefficient ≠ 0)
    {excess : Nat}
    (long :
      (Numeral.decimal decimal.coefficient).length = excess + 1 + count) :
    (decimal.toDigits count).value? =
      some
        (value
          ⟨roundQuotient decimal.coefficient (Nat.pow 10 (excess + 1)),
            decimal.exponent + (excess + 1 : Nat)⟩) := by
  let rounded :=
    roundQuotient decimal.coefficient (Nat.pow 10 (excess + 1))
  let whole : Decimal := ⟨rounded, decimal.exponent + (excess + 1 : Nat)⟩
  have isExcess :
      (Significand.ofDecimal decimal).digits.length - count = excess + 1 :=
    Nat.sub_eq_of_eq_add long
  have cut :
      decimal.toDigits count =
        { Significand.ofDecimal whole with
          digits := (Numeral.decimal rounded).take count } := by
    rw [toDigits, if_neg nonzero]
    simp only [isExcess]
    rfl
  have most : rounded ≤ 10 ^ count := by
    apply roundQuotient_le_ten_pow
    rw [← long]
    exact Numeral.length_digits (by decide) _
  obtain ⟨zeros, carried⟩ := exists_take_append_zeros positive most
  rw [cut, ← Significand.value?_append_zeros _ zeros, ← carried]
  exact Significand.value?_ofDecimal whole

end

/--
Rounding to digits gives the nearest number with no more of them.

The step is the place of the last digit, where the first one is that of the
number before it is rounded.
-/
theorem roundsTo_toDigits
    {count : Nat}
    (positive : 0 < count)
    (decimal : Decimal) :
    ∃ value,
      (decimal.toDigits count).value? = some value ∧
        RoundsTo (10 ^ (Int.log 10 decimal.value + 1 - count))
          decimal.value value := by
  by_cases zero : decimal.coefficient = 0
  · have isZero : decimal.value = 0 := by
      rw [value, zero, Nat.cast_zero, zero_mul]
    have noDigits := Significand.value?_append_zeros [] count 1
    rw [List.nil_append] at noDigits
    refine ⟨0, ?_, ?_⟩
    · rw [toDigits_of_coefficient_eq_zero zero, noDigits]
      exact congrArg some (zero_mul _)
    · rw [isZero]
      exact RoundsTo.self (power_pos _) ⟨0, by simp⟩
  · have length :
        (Numeral.decimal decimal.coefficient).length =
          Nat.log 10 decimal.coefficient + 1 :=
      Numeral.length_digits (by decide) _
    rw [log_value zero]
    rcases Nat.lt_or_ge count
        (Numeral.decimal decimal.coefficient).length with long | short
    · obtain ⟨excess, isExcess⟩ := Nat.exists_eq_add_of_lt long
      have step :
          (Nat.log 10 decimal.coefficient : ℤ) + decimal.exponent + 1 -
              count =
            decimal.exponent + (excess + 1 : Nat) := by
        omega
      have isLong :
          (Numeral.decimal decimal.coefficient).length =
            excess + 1 + count := by
        omega
      refine ⟨_, value?_toDigits_of_long positive zero isLong, ?_⟩
      rw [step]
      exact decimal.roundsTo_cut (excess + 1)
    · refine ⟨_, value?_toDigits_of_short zero short, ?_⟩
      exact
        RoundsTo.self (power_pos _) (decimal.exists_multiple (by omega))

end Decimal

end CaptureFormat
