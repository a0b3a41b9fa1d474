import CaptureFormat.Conversion.Real
import CaptureFormat.Proofs.Decimal.Layout

namespace CaptureFormat

/-!
# The digits of a number

Rounding to so many digits gives exactly so many, also where it carries into a
new first digit, and the fewest digits that read back have no zero at the end.
Either way the first digit is not a zero, unless the number is.
-/

open Numeral (AreDecimal)

/-- Rounding a quotient to the nearest integer never goes below the floor. -/
theorem div_le_roundQuotient (numerator denominator : Nat) :
    numerator / denominator ≤ roundQuotient numerator denominator := by
  unfold roundQuotient
  simp only []
  split
  · exact Nat.le_refl _
  · split <;> omega

namespace Significand

theorem dropTrailingZeros_cons (digit : Char) (rest : List Char) :
    dropTrailingZeros (digit :: rest) =
      if digit = '0' ∧ dropTrailingZeros rest = [] then
        []
      else
        digit :: dropTrailingZeros rest :=
  rfl

/-- What is dropped from the end of a digit list are zeros. -/
theorem exists_dropTrailingZeros_append (digits : List Char) :
    ∃ count,
      digits = dropTrailingZeros digits ++ List.replicate count '0' := by
  induction digits with
  | nil =>
      exact ⟨0, rfl⟩
  | cons digit rest inductionHypothesis =>
      obtain ⟨count, shape⟩ := inductionHypothesis
      rw [dropTrailingZeros_cons]
      split
      · next dropped =>
          obtain ⟨rfl, none⟩ := dropped
          rw [none, List.nil_append] at shape
          refine ⟨count + 1, ?_⟩
          rw [List.nil_append, List.replicate_succ, ← shape]
      · refine ⟨count, ?_⟩
        rw [List.cons_append, ← shape]

/-- Dropping zeros leaves digits in their order. -/
theorem dropTrailingZeros_sublist (digits : List Char) :
    (dropTrailingZeros digits).Sublist digits := by
  obtain ⟨count, shape⟩ := exists_dropTrailingZeros_append digits
  conv_rhs => rw [shape]
  exact List.sublist_append_left _ _

theorem getLast?_dropTrailingZeros_ne (digits : List Char) :
    (dropTrailingZeros digits).getLast? ≠ some '0' := by
  induction digits with
  | nil =>
      intro last
      cases last
  | cons digit rest inductionHypothesis =>
      rw [dropTrailingZeros_cons]
      split
      · intro last
        cases last
      · next kept =>
          cases shape : dropTrailingZeros rest with
          | nil =>
              have nonzero : digit ≠ '0' := fun zero => kept ⟨zero, shape⟩
              simpa using nonzero
          | cons first others =>
              rw [shape] at inductionHypothesis
              rwa [List.getLast?_cons_cons]

/-- The digits of a number that is not zero, from its first one on. -/
structure Leads (number : Significand) : Prop where
  areDecimal : AreDecimal number.digits
  nonempty : number.digits ≠ []
  nonzero : number.digits.head? ≠ some '0'

theorem Leads.normalized
    {number : Significand}
    (leads : number.Leads) :
    number.Normalized where
  areDecimal := leads.areDecimal
  nonempty := leads.nonempty
  zero firstZero := absurd firstZero leads.nonzero

theorem leads_ofDecimal
    {decimal : Decimal}
    (nonzero : decimal.coefficient ≠ 0) :
    (ofDecimal decimal).Leads where
  areDecimal := Numeral.areDecimal_decimal _
  nonempty := Numeral.digits_ne_nil _
  nonzero firstZero :=
    nonzero
      ((Numeral.head?_digits_eq_zero_iff (by decide) (by decide) _).mp
        firstZero)

theorem Leads.rightpad
    {number : Significand}
    (leads : number.Leads)
    (count : Nat) :
    Leads { number with digits := number.digits.rightpad count '0' } := by
  obtain ⟨areDecimal, nonempty, nonzero⟩ := leads
  obtain ⟨first, rest, shape⟩ := List.exists_cons_of_ne_nil nonempty
  refine ⟨areDecimal.rightpad count, ?_, ?_⟩
  · exact List.append_ne_nil_of_left_ne_nil nonempty _
  · simp only [shape] at nonzero ⊢
    exact nonzero

theorem Leads.take
    {number : Significand}
    (leads : number.Leads)
    {count : Nat}
    (positive : 0 < count) :
    Leads { number with digits := number.digits.take count } := by
  obtain ⟨areDecimal, nonempty, nonzero⟩ := leads
  obtain ⟨first, rest, shape⟩ := List.exists_cons_of_ne_nil nonempty
  obtain ⟨others, rfl⟩ := Nat.exists_eq_succ_of_ne_zero positive.ne'
  refine ⟨areDecimal.take _, ?_, ?_⟩
  · simp [shape]
  · simp only [shape] at nonzero ⊢
    exact nonzero

theorem Leads.trimmed
    {number : Significand}
    (leads : number.Leads) :
    number.trimmed.Leads := by
  obtain ⟨areDecimal, nonempty, nonzero⟩ := leads
  obtain ⟨first, rest, shape⟩ := List.exists_cons_of_ne_nil nonempty
  rw [shape] at areDecimal nonzero
  simp only [Significand.trimmed, shape]
  exact
    ⟨areDecimal.of_sublist ((dropTrailingZeros_sublist rest).cons_cons first),
      List.cons_ne_nil _ _, nonzero⟩

/-- Trimming a number leaves no more digits than it has. -/
theorem length_trimmed_le (number : Significand) :
    number.trimmed.digits.length ≤ number.digits.length := by
  unfold trimmed
  split
  · exact Nat.le_refl _
  · next first rest shape =>
      rw [shape]
      exact Nat.succ_le_succ (dropTrailingZeros_sublist rest).length_le

/-- A number without zeros at its end is trimmed. -/
theorem trimmed_trimmed (number : Significand) :
    number.trimmed.Trimmed := by
  intro lastZero
  unfold trimmed at lastZero ⊢
  split at lastZero
  · next empty =>
      rw [empty] at lastZero
      cases lastZero
  · next first rest shape =>
      simp only []
      cases kept : dropTrailingZeros rest with
      | nil =>
          rfl
      | cons second others =>
          have noZero := getLast?_dropTrailingZeros_ne rest
          rw [kept] at noZero
          rw [kept, List.getLast?_cons_cons] at lastZero
          exact absurd lastZero noZero

end Significand

namespace Decimal

/-- What rounding leaves of a number with too many digits has as many as it is to have. -/
theorem le_length_decimal_roundQuotient
    {count coefficient : Nat}
    (positive : 0 < count)
    (long : count ≤ (Numeral.decimal coefficient).length)
    (nonzero : coefficient ≠ 0) :
    let excess := (Numeral.decimal coefficient).length - count
    let rounded := roundQuotient coefficient (Nat.pow 10 excess)
    rounded ≠ 0 ∧ count ≤ (Numeral.decimal rounded).length := by
  intro excess rounded
  have length :
      ∀ number,
        (Numeral.decimal number).length = Nat.log 10 number + 1 :=
    Numeral.length_digits (by decide)
  have isExcess : excess = Nat.log 10 coefficient + 1 - count := by
    rw [← length]
  have floor : coefficient / 10 ^ excess ≤ rounded :=
    div_le_roundQuotient coefficient (Nat.pow 10 excess)
  have fits : 10 ^ excess ≤ coefficient :=
    Nat.pow_le_of_le_log nonzero (by omega)
  have quotient : 0 < coefficient / 10 ^ excess :=
    Nat.div_pos fits (Nat.pow_pos (by decide))
  have sameLog :
      Nat.log 10 (coefficient / 10 ^ excess) =
        Nat.log 10 coefficient - excess :=
    Nat.log_div_base_pow 10 coefficient excess
  have larger :
      Nat.log 10 (coefficient / 10 ^ excess) ≤ Nat.log 10 rounded :=
    Nat.log_mono_right floor
  rw [length] at long ⊢
  omega

/-- Rounding to so many digits gives so many of them, and the first is not a zero. -/
theorem leads_toDigits
    {count : Nat}
    (positive : 0 < count)
    {decimal : Decimal}
    (nonzero : decimal.coefficient ≠ 0) :
    (decimal.toDigits count).Leads ∧
      (decimal.toDigits count).digits.length = count := by
  have leads := Significand.leads_ofDecimal nonzero
  rw [toDigits, if_neg nonzero]
  simp only []
  split
  · next enough =>
      have short :
          (Significand.ofDecimal decimal).digits.length ≤ count := by
        omega
      refine ⟨leads.rightpad count, ?_⟩
      rw [List.length_rightpad]
      exact Nat.max_eq_left short
  · next long =>
      have longer :
          count ≤ (Numeral.decimal decimal.coefficient).length := by
        change ¬(Numeral.decimal decimal.coefficient).length - count = 0
          at long
        omega
      obtain ⟨stillNonzero, enough⟩ :=
        le_length_decimal_roundQuotient positive longer nonzero
      refine ⟨(Significand.leads_ofDecimal stillNonzero).take positive, ?_⟩
      rw [List.length_take]
      exact Nat.min_eq_left enough

end Decimal

namespace RoundingInterval

theorem low_le_of_contains
    {interval : RoundingInterval}
    {candidate : Nat}
    (inside : interval.contains candidate = true) :
    interval.low ≤ candidate := by
  unfold contains at inside
  split at inside <;> simp only [Bool.and_eq_true, decide_eq_true_eq] at inside
  · exact inside.1
  · exact Nat.le_of_lt inside.1

theorem contains_of_pointOn?
    {interval : RoundingInterval}
    {step point : Nat}
    (found : interval.pointOn? step = some point) :
    interval.contains (point * step) = true := by
  unfold pointOn? at found
  simp only [] at found
  split at found
  · next below above =>
      split at found <;> cases found
      · exact below
      · exact above
  · next below _ =>
      cases found
      exact below
  · next _ above =>
      cases found
      exact above
  · cases found

/-- A decimal from an interval above zero is not zero. -/
theorem coefficient_coarsest_ne_zero
    {interval : RoundingInterval}
    (positive : 0 < interval.low)
    (value : 0 < interval.value)
    (power : Nat) :
    (interval.coarsest power).coefficient ≠ 0 := by
  induction power with
  | zero =>
      exact value.ne'
  | succ power inductionHypothesis =>
      rw [coarsest]
      split
      · next point found =>
          have inside := low_le_of_contains (contains_of_pointOn? found)
          rintro rfl
          rw [Nat.zero_mul] at inside
          omega
      · exact inductionHypothesis

end RoundingInterval

namespace Decimal

theorem leads_shortest
    {number : Binary64}
    (nonzero : number.significand ≠ 0) :
    (shortest number).Leads := by
  rw [shortest, if_neg nonzero]
  apply Significand.Leads.trimmed
  apply Significand.leads_ofDecimal
  have factor :
      0 <
        if 0 ≤ number.scale - 2 then
          Nat.pow 2 (number.scale - 2).toNat
        else
          Nat.pow 5 (-(number.scale - 2)).toNat := by
    split
    · exact Nat.pow_pos (by decide)
    · exact Nat.pow_pos (by decide)
  apply RoundingInterval.coefficient_coarsest_ne_zero
  · apply Nat.mul_pos _ factor
    split <;> omega
  · apply Nat.mul_pos _ factor
    omega

/-- Only zero has the magnitude zero. -/
theorem coefficient_magnitude_eq_zero_iff (number : Binary64) :
    (magnitude number).coefficient = 0 ↔ number.significand = 0 := by
  have twos : Nat.pow 2 number.scale.toNat ≠ 0 :=
    (Nat.pow_pos (by decide)).ne'
  have fives : Nat.pow 5 (-number.scale).toNat ≠ 0 :=
    (Nat.pow_pos (by decide)).ne'
  unfold magnitude
  split <;> simp only [Nat.mul_eq_zero, twos, fives, or_false]

theorem toDigits_of_coefficient_eq_zero
    {decimal : Decimal}
    (zero : decimal.coefficient = 0)
    (count : Nat) :
    decimal.toDigits count = ⟨List.replicate count '0', 1⟩ := by
  rw [toDigits, if_pos zero]

end Decimal

namespace Significand

theorem dropTrailingZeros_zeros (count : Nat) :
    dropTrailingZeros (List.replicate count '0') = [] := by
  induction count with
  | zero =>
      rfl
  | succ count inductionHypothesis =>
      rw [List.replicate_succ, dropTrailingZeros_cons]
      exact if_pos ⟨rfl, inductionHypothesis⟩

theorem trimmed_zeros
    {count : Nat}
    (positive : 0 < count)
    (point : Int) :
    trimmed ⟨List.replicate count '0', point⟩ = ⟨['0'], point⟩ := by
  obtain ⟨others, rfl⟩ := Nat.exists_eq_succ_of_ne_zero positive.ne'
  simp only [trimmed, List.replicate_succ, dropTrailingZeros_zeros]

/-- Zero is written with zeros, the first of them in front of the point. -/
theorem normalized_zeros
    {count : Nat}
    (positive : 0 < count) :
    Normalized ⟨List.replicate count '0', 1⟩ where
  areDecimal := .zeros count
  nonempty := by
    simpa using positive.ne'
  zero _ := rfl

end Significand

namespace Decimal

/-- Rounding to so many digits gives so many of them, for zero as well. -/
theorem normalized_toDigits
    {count : Nat}
    (positive : 0 < count)
    (decimal : Decimal) :
    (decimal.toDigits count).Normalized ∧
      (decimal.toDigits count).digits.length = count := by
  by_cases zero : decimal.coefficient = 0
  · rw [toDigits_of_coefficient_eq_zero zero]
    exact
      ⟨Significand.normalized_zeros positive, List.length_replicate⟩
  · obtain ⟨leads, length⟩ := leads_toDigits positive zero
    exact ⟨leads.normalized, length⟩

end Decimal

namespace Conversion

variable
  (precision : Option Nat)
  (keepZeros : Bool)
  (number : Binary64)

/-- Without a precision, or where zeros are not kept, none is at the end. -/
theorem trimmed_generalDigits
    (shortened : precision = none ∨ keepZeros = false) :
    (generalDigits precision keepZeros number).Trimmed := by
  unfold generalDigits
  cases precision with
  | none =>
      simp only [Decimal.shortest]
      split
      · exact fun _ => rfl
      · exact Significand.trimmed_trimmed _
  | some count =>
      simp only [shortened.resolve_left (Option.some_ne_none count)]
      exact Significand.trimmed_trimmed _

/-- With a precision, and zeros kept, there are as many digits as the precision says. -/
theorem length_generalDigits (count : Nat) :
    (generalDigits (some count) true number).digits.length =
      max count 1 := by
  have positive : 0 < max count 1 := by omega
  simp only [generalDigits, if_true]
  exact
    (Decimal.normalized_toDigits positive (Decimal.magnitude number)).2

/-- A precision is never exceeded. -/
theorem length_generalDigits_le (count : Nat) :
    (generalDigits (some count) keepZeros number).digits.length ≤
      max count 1 := by
  have kept := length_generalDigits number count
  cases keepZeros with
  | true =>
      exact kept.le
  | false =>
      rw [← kept]
      exact Significand.length_trimmed_le _

/--
The digits that a general verb writes are those of zero, or they start with one
that is not a zero.
-/
theorem generalDigits_cases :
    number.significand = 0 ∧
        (∃ count,
          0 < count ∧
            generalDigits precision keepZeros number =
              ⟨List.replicate count '0', 1⟩) ∨
      number.significand ≠ 0 ∧
        (generalDigits precision keepZeros number).Leads := by
  by_cases zero : number.significand = 0
  · refine Or.inl ⟨zero, ?_⟩
    cases precision with
    | none =>
        refine ⟨1, by decide, ?_⟩
        rw [generalDigits, Decimal.shortest, if_pos zero]
        rfl
    | some count =>
        have positive : 0 < max count 1 := by omega
        have isZero :=
          (Decimal.coefficient_magnitude_eq_zero_iff number).mpr zero
        rw [generalDigits]
        simp only [Decimal.toDigits_of_coefficient_eq_zero isZero,
          Significand.trimmed_zeros positive]
        cases keepZeros with
        | true =>
            exact ⟨_, positive, rfl⟩
        | false =>
            exact ⟨1, by decide, rfl⟩
  · refine Or.inr ⟨zero, ?_⟩
    cases precision with
    | none =>
        exact Decimal.leads_shortest zero
    | some count =>
        have positive : 0 < max count 1 := by omega
        have nonzero :=
          mt (Decimal.coefficient_magnitude_eq_zero_iff number).mp zero
        have leads := (Decimal.leads_toDigits positive nonzero).1
        rw [generalDigits]
        cases keepZeros with
        | true =>
            exact leads
        | false =>
            exact leads.trimmed

theorem normalized_generalDigits :
    (generalDigits precision keepZeros number).Normalized := by
  rcases generalDigits_cases precision keepZeros number with
    ⟨_, count, positive, zeros⟩ | ⟨_, leads⟩
  · rw [zeros]
    exact Significand.normalized_zeros positive
  · exact leads.normalized

/-- The general layout writes the digits that were chosen for it. -/
theorem writesGeneral_generalDigits
    {letter : Char}
    (isLetter : DecimalText.isExponentLetter letter = true)
    (alternate : Bool) :
    (generalDigits precision alternate number).WritesGeneral letter alternate
      (Significand.generalLimit (precision.map (max · 1)))
      (general letter precision alternate number) := by
  apply
    Significand.writesGeneral_general
      (normalized_generalDigits precision alternate number) isLetter
  · exact fun bare =>
      trimmed_generalDigits precision alternate number (Or.inr bare)
  · intro wanted isWanted
    obtain ⟨count, isCount, rfl⟩ := Option.map_eq_some_iff.mp isWanted
    rw [isCount]
    exact length_generalDigits_le alternate number count

end Conversion

end CaptureFormat
