import CaptureFormat.Proofs.Decimal.Rounding

namespace CaptureFormat

/-!
# Layouts with a fixed number of decimals

Scientific and positional layout with so many decimals write the number that
rounding gives, and the text says no less: it denotes that number alone, has as
many decimals as were asked for, and no digit in front of them that could be
left out.
-/

open Numeral (AreDecimal)

/-- A text is another one, with a point put in it at most. -/
def AddsPoint (text bare : List Char) : Prop :=
  text = bare ∨
    ∃ front back, bare = front ++ back ∧ text = front ++ '.' :: back

/-- A text denotes the one multiple of a step that a number rounds to. -/
def DenotesRounded (step exact : ℚ) (text : List Char) : Prop :=
  ∃ rounded,
    DecimalText.value? text = some rounded ∧
      ∀ value, RoundsTo step exact value ↔ value = rounded

/--
A text writes a number with one digit in front of the point, so many decimals
behind it, and an exponent of a sign and at least two digits.
-/
structure WritesScientific
    (exact : ℚ)
    (letter : Char)
    (decimals : Nat)
    (text : List Char) : Prop where
  denotes : DenotesRounded (10 ^ (Int.log 10 exact - decimals)) exact text
  whole : (DecimalText.whole text).length = 1
  leading : exact ≠ 0 → DecimalText.whole text ≠ ['0']
  fraction : (DecimalText.fraction text).length = decimals
  exponent :
    ∃ sign digits,
      DecimalText.exponent text = letter :: sign :: digits ∧
        (sign = '+' ∨ sign = '-') ∧
        2 ≤ digits.length

/-- A text writes a number around a point, with so many decimals behind it. -/
structure WritesPositional
    (exact : ℚ)
    (decimals : Nat)
    (text : List Char) : Prop where
  denotes : DenotesRounded (10 ^ (-decimals : ℤ)) exact text
  whole : DecimalText.whole text ≠ []
  leading :
    (DecimalText.whole text).head? = some '0' →
    DecimalText.whole text = ['0']
  fraction : (DecimalText.fraction text).length = decimals
  exponent : DecimalText.exponent text = []

namespace DenotesRounded

variable
  {step exact rounded : ℚ}
  {text other : List Char}

theorem of_value?
    (positive : 0 < step)
    (rounds : RoundsTo step exact rounded)
    (reads : DecimalText.value? text = some rounded) :
    DenotesRounded step exact text := by
  refine ⟨rounded, reads, fun value => ⟨fun again => ?_, ?_⟩⟩
  · exact again.unique positive rounds
  · rintro rfl
    exact rounds

/-- Two such texts denote the same number. -/
theorem value?_eq
    (left : DenotesRounded step exact text)
    (right : DenotesRounded step exact other) :
    DecimalText.value? text = DecimalText.value? other := by
  obtain ⟨rounded, reads, only⟩ := left
  obtain ⟨again, readsAgain, onlyAgain⟩ := right
  rw [reads, readsAgain, (onlyAgain rounded).mp ((only rounded).mpr rfl)]

end DenotesRounded

/-- Keeping the point of a text adds one at most, and only if it is asked for. -/
theorem Significand.addsPoint_keepPoint
    (alternate : Bool)
    (text : List Char) :
    AddsPoint (keepPoint alternate text) text ∧
      (alternate = false → keepPoint alternate text = text) := by
  refine ⟨?_, fun bare => by rw [bare]; rfl⟩
  cases alternate with
  | false =>
      exact Or.inl rfl
  | true =>
      change AddsPoint (forcePoint text) text
      unfold forcePoint
      split
      · exact Or.inl rfl
      · refine Or.inr ⟨_, _, ?_, rfl⟩
        exact (List.prefix_iff_eq_append.mp (List.takeWhile_prefix _)).symm

theorem Decimal.coefficient_ne_zero
    {decimal : Decimal}
    (nonzero : decimal.value ≠ 0) :
    decimal.coefficient ≠ 0 := by
  intro zero
  apply nonzero
  rw [value, zero, Nat.cast_zero, zero_mul]

namespace Significand

variable
  (alternate : Bool)
  (decimals : Nat)
  (decimal : Decimal)

/-- Scientific layout of a number that is rounded to its first digits. -/
theorem writesScientific_scientific
    {letter : Char}
    (isLetter : DecimalText.isExponentLetter letter = true) :
    WritesScientific decimal.value letter decimals
      (keepPoint alternate
        ((decimal.toDigits (decimals + 1)).scientific letter decimals)) := by
  obtain ⟨normalized, length⟩ :=
    Decimal.normalized_toDigits (Nat.succ_pos decimals) decimal
  obtain ⟨rounded, isRounded, rounds⟩ :=
    Decimal.roundsTo_toDigits (Nat.succ_pos decimals) decimal
  have all : (decimal.toDigits (decimals + 1)).digits.length - 1 = decimals := by
    rw [length]
    rfl
  have parts := parts_of_scientific alternate normalized isLetter
  have value := value?_scientific alternate normalized isLetter
  rw [all] at parts value
  obtain ⟨whole, _, fraction, tail⟩ := parts
  obtain ⟨written, isWritten, reads⟩ := value
  obtain rfl : rounded = written := by
    rwa [isRounded, Option.some_inj] at isWritten
  have step :
      Int.log 10 decimal.value + 1 - (decimals + 1 : ℕ) =
        Int.log 10 decimal.value - decimals := by
    omega
  rw [step] at rounds
  exact {
    denotes := .of_value? (Decimal.power_pos _) rounds reads
    whole := by
      rw [whole, List.length_take, length]
      exact Nat.min_eq_left (Nat.succ_pos decimals)
    leading := by
      intro nonzero isZero
      have leads :=
        Decimal.leads_toDigits (Nat.succ_pos decimals)
          (Decimal.coefficient_ne_zero nonzero)
      apply leads.1.nonzero
      rw [whole] at isZero
      have first := congrArg List.head? isZero
      rwa [List.head?_take, if_neg (by decide)] at first
    fraction := by
      rw [fraction, List.length_drop, all]
    exponent := by
      rw [tail]
      exact (exists_exponent_eq letter _).2 }

/-- A number that is rounded to places has no more of them. -/
theorem places_ofDecimal_toPlaces_le :
    (ofDecimal (decimal.toPlaces decimals)).places ≤ decimals := by
  have exponent : -(decimals : ℤ) ≤ (decimal.toPlaces decimals).exponent := by
    obtain ⟨enough, unchanged⟩ | ⟨_, _, cut⟩ :=
      decimal.toPlaces_cases decimals
    · rwa [unchanged]
    · rw [cut]
  simp only [places, ofDecimal]
  omega

theorem integerDigits_ne_nil (number : Significand) :
    number.integerDigits ≠ [] := by
  unfold integerDigits
  split
  · next positive =>
      intro none
      have length := congrArg List.length none
      rw [List.length_rightpad, List.length_nil] at length
      omega
  · exact List.cons_ne_nil _ _

/-- Where the digits in front of the point start with a zero, there is no other. -/
theorem integerDigits_ofDecimal
    {decimal : Decimal}
    (small : decimal.exponent ≤ 0)
    (firstZero : (ofDecimal decimal).integerDigits.head? = some '0') :
    (ofDecimal decimal).integerDigits = ['0'] := by
  by_cases positive : 0 < (ofDecimal decimal).point
  · obtain ⟨others, isCount⟩ :=
      Nat.exists_eq_succ_of_ne_zero
        (by omega : (ofDecimal decimal).point.toNat ≠ 0)
    obtain ⟨first, rest, shape⟩ :
        ∃ first rest, (ofDecimal decimal).digits = first :: rest :=
      List.exists_cons_of_ne_nil (Numeral.digits_ne_nil _)
    have digits :
        (ofDecimal decimal).integerDigits =
          ((ofDecimal decimal).digits.take (others + 1)).rightpad
            (others + 1) '0' := by
      rw [integerDigits, if_pos positive, isCount]
    have isFirst : (ofDecimal decimal).digits.head? = some '0' := by
      rw [digits, shape] at firstZero
      rw [shape]
      exact firstZero
    have zero : decimal.coefficient = 0 :=
      (Numeral.head?_digits_eq_zero_iff (by decide) (by decide) _).mp
        isFirst
    have lone : (ofDecimal decimal).digits = ['0'] := by
      simp only [ofDecimal, zero]
      rfl
    have one : others = 0 := by
      have point :
          (ofDecimal decimal).point =
            (ofDecimal decimal).digits.length + decimal.exponent :=
        rfl
      rw [lone, List.length_singleton] at point
      omega
    rw [digits, lone, one]
    rfl
  · exact if_neg positive

/-- Positional layout of a number that is rounded to so many decimals. -/
theorem writesPositional_positional
    (small : decimal.exponent ≤ 0) :
    WritesPositional decimal.value decimals
      (keepPoint alternate
        ((ofDecimal (decimal.toPlaces decimals)).positional decimals)) := by
  let number := ofDecimal (decimal.toPlaces decimals)
  have areDecimal : AreDecimal number.digits :=
    Numeral.areDecimal_decimal _
  obtain ⟨whole, _, fraction, tail⟩ :=
    parts_of_positional alternate areDecimal decimals
  obtain ⟨written, isWritten, reads⟩ :=
    value?_positional alternate areDecimal
      (places_ofDecimal_toPlaces_le decimals decimal)
  obtain rfl : (decimal.toPlaces decimals).value = written := by
    rwa [value?_ofDecimal, Option.some_inj] at isWritten
  exact {
    denotes :=
      .of_value? (Decimal.power_pos _)
        (decimal.roundsTo_toPlaces decimals) reads
    whole := by
      rw [whole]
      exact integerDigits_ne_nil number
    leading := by
      rw [whole]
      apply integerDigits_ofDecimal
      obtain ⟨_, unchanged⟩ | ⟨_, _, cut⟩ :=
        decimal.toPlaces_cases decimals
      · rwa [unchanged]
      · rw [cut]
        exact Int.neg_nonpos_of_nonneg (Int.natCast_nonneg decimals)
    fraction := by
      rw [fraction, length_fractionDigits]
    exponent := tail }

end Significand

end CaptureFormat
