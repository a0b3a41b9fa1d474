import CaptureFormat.Proofs.Decimal.Reading
import Mathlib.Data.List.Basic

namespace CaptureFormat.Significand

/-!
# What the general layout writes

Both layouts write all digits of a number in a row.  Positional layout has
zeros in front of a small number's digits or behind a large one's; scientific
layout has none and puts the place of the point into an exponent.  Which of them
is taken shows in the text, because only one has an exponent.
-/

open Numeral (AreDecimal)

variable {number : Significand}

/-- Digits with the first one in place; only those of zero start with a zero. -/
structure Normalized (number : Significand) : Prop where
  areDecimal : AreDecimal number.digits
  nonempty : number.digits ≠ []
  zero : number.digits.head? = some '0' → number.point = 1

/-- No zero at the end, unless it is the only digit. -/
def Trimmed (number : Significand) : Prop :=
  number.digits.getLast? = some '0' → number.digits.length = 1

/-- A text writes a number in the general layout. -/
structure WritesGeneral
    (number : Significand)
    (letter : Char)
    (alternate : Bool)
    (limit : Int)
    (text : List Char) : Prop where
  /-- The text denotes the number. -/
  denotes :
    ∃ value,
      number.value? = some value ∧ DecimalText.value? text = some value
  /-- All digits stand in a row, and nothing but zeros beside them. -/
  row :
    ∃ before after,
      DecimalText.whole text ++ DecimalText.fraction text =
        List.replicate before '0' ++ number.digits ++
          List.replicate after '0'
  /-- Very small and very large numbers have an exponent, and no others. -/
  scientific :
    DecimalText.exponent text ≠ [] ↔
      number.point - 1 < -4 ∨ limit ≤ number.point - 1
  /-- An exponent has one digit before the point, a sign, and two digits or more. -/
  exponent :
    DecimalText.exponent text ≠ [] →
      (DecimalText.whole text).length = 1 ∧
        ∃ sign digits,
          DecimalText.exponent text = letter :: sign :: digits ∧
            (sign = '+' ∨ sign = '-') ∧
            2 ≤ digits.length
  /-- A point that is not kept has a digit behind it, and the last one is not a zero. -/
  bare :
    alternate = false →
    (DecimalText.pointed text ≠ [] → DecimalText.fraction text ≠ []) ∧
      (DecimalText.fraction text).getLast? ≠ some '0'
  /-- A point that is kept is there. -/
  kept : alternate = true → DecimalText.pointed text ≠ []

theorem keptFraction_of_bare
    {digits : List Char}
    (hasPoint : keptFraction false digits ≠ []) :
    digits ≠ [] := by
  rintro rfl
  exact hasPoint rfl

theorem keptFraction_of_kept (digits : List Char) :
    keptFraction true digits ≠ [] :=
  List.cons_ne_nil _ _

/-- An exponent has a sign and at least two digits, and reads back as the power. -/
theorem exists_exponent_eq (letter : Char) (power : Int) :
    DecimalText.power? (exponent letter power) = some power ∧
      ∃ sign digits,
        exponent letter power = letter :: sign :: digits ∧
          (sign = '+' ∨ sign = '-') ∧
          2 ≤ digits.length := by
  have reads :
      Numeral.read? 10 .lower (Numeral.padded 10 .lower 2 power.natAbs) =
        some power.natAbs :=
    Numeral.read?_padded (by decide) (by decide) 2 power.natAbs
  have long : 2 ≤ (Numeral.padded 10 .lower 2 power.natAbs).length := by
    rw [Numeral.padded, List.length_leftpad]
    exact Nat.le_max_left _ _
  unfold exponent
  split
  · next negative =>
      refine ⟨?_, '-', _, rfl, Or.inr rfl, long⟩
      rw [DecimalText.power?, reads, Option.map_some]
      exact congrArg some (by omega)
  · next nonnegative =>
      refine ⟨?_, '+', _, rfl, Or.inl rfl, long⟩
      rw [DecimalText.power?, reads, Option.map_some]
      exact congrArg some (by omega)

/-- The number of digits that stand behind the point. -/
def places (number : Significand) : Nat :=
  (number.digits.length - number.point).toNat

/-- The digits behind the point are those that the whole digits leave. -/
theorem fractionDigits_places (number : Significand) :
    number.fractionDigits number.places =
      (List.replicate (-number.point).toNat '0' ++ number.digits).drop
        number.point.toNat := by
  have length :
      ((List.replicate (-number.point).toNat '0' ++ number.digits).drop
        number.point.toNat).length = number.places := by
    rw [List.length_drop, List.length_append, List.length_replicate, places]
    omega
  rw [fractionDigits]
  simp only [List.take_of_length_le (Nat.le_of_eq length),
    List.rightpad, length, Nat.sub_self, List.replicate_zero,
    List.append_nil]

theorem length_fractionDigits (number : Significand) (places : Nat) :
    (number.fractionDigits places).length = places := by
  rw [fractionDigits, List.length_rightpad]
  exact Nat.max_eq_left (List.length_take_le _ _)

/-- More places than the digits take up are filled with zeros. -/
theorem fractionDigits_of_places_le
    {wanted : Nat}
    (enough : number.places ≤ wanted) :
    number.fractionDigits wanted =
      number.fractionDigits number.places ++
        List.replicate (wanted - number.places) '0' := by
  have length := length_fractionDigits number number.places
  rw [fractionDigits_places] at length ⊢
  rw [fractionDigits]
  simp only [List.take_of_length_le (length.le.trans enough), List.rightpad,
    length]

/-- The parts of a number in positional layout. -/
theorem positional_cases (number : Significand) :
    number.point ≤ 0 ∧
        number.integerDigits = ['0'] ∧
        number.fractionDigits number.places =
          List.replicate (-number.point).toNat '0' ++ number.digits ∨
      0 < number.point ∧
        number.point ≤ number.digits.length ∧
        number.integerDigits = number.digits.take number.point.toNat ∧
        number.fractionDigits number.places =
          number.digits.drop number.point.toNat ∨
      number.digits.length < number.point ∧
        number.integerDigits =
          number.digits ++
            List.replicate (number.point.toNat - number.digits.length) '0' ∧
        number.fractionDigits number.places = [] := by
  rw [fractionDigits_places, integerDigits]
  by_cases small : number.point ≤ 0
  · have noneWhole : number.point.toNat = 0 := by omega
    refine Or.inl ⟨small, if_neg (by omega), ?_⟩
    rw [noneWhole, List.drop_zero]
  · have noneBefore : (-number.point).toNat = 0 := by omega
    rw [noneBefore, if_pos (by omega), List.replicate_zero,
      List.nil_append]
    by_cases within : number.point ≤ number.digits.length
    · refine Or.inr (Or.inl ⟨by omega, within, ?_, rfl⟩)
      have length :
          (number.digits.take number.point.toNat).length =
            number.point.toNat := by
        rw [List.length_take]
        omega
      simp [List.rightpad, length]
    · refine Or.inr (Or.inr ⟨by omega, ?_, ?_⟩)
      · rw [List.take_of_length_le (by omega)]
        rfl
      · exact List.drop_of_length_le (by omega)

theorem areDecimal_integerDigits (areDecimal : AreDecimal number.digits) :
    AreDecimal number.integerDigits := by
  unfold integerDigits
  split
  · exact (areDecimal.take _).rightpad _
  · exact .zeros 1

theorem areDecimal_fractionDigits
    (areDecimal : AreDecimal number.digits)
    (places : Nat) :
    AreDecimal (number.fractionDigits places) :=
  ((((AreDecimal.zeros _).append areDecimal).drop _).take _).rightpad _

/-- Positional layout writes all digits in a row. -/
theorem exists_row_positional (number : Significand) :
    ∃ before after,
      number.integerDigits ++ number.fractionDigits number.places =
          List.replicate before '0' ++ number.digits ++
            List.replicate after '0' ∧
        (after : Int) - number.places =
          number.point - number.digits.length := by
  obtain ⟨small, isWhole, isFraction⟩ |
      ⟨_, within, isWhole, isFraction⟩ |
      ⟨large, isWhole, isFraction⟩ := number.positional_cases
  · refine ⟨(-number.point).toNat + 1, 0, ?_, ?_⟩
    · rw [isWhole, isFraction, List.replicate_succ, List.replicate_zero,
        List.append_nil]
      rfl
    · rw [places]
      omega
  · refine ⟨0, 0, ?_, ?_⟩
    · rw [isWhole, isFraction, List.take_append_drop]
      simp
    · rw [places]
      omega
  · refine ⟨0, number.point.toNat - number.digits.length, ?_, ?_⟩
    · rw [isWhole, isFraction]
      simp
    · rw [places]
      omega

/-- With more places, there are only more zeros at the end of the row. -/
theorem exists_row_positional_of_places_le
    {wanted : Nat}
    (enough : number.places ≤ wanted) :
    ∃ before after,
      number.integerDigits ++ number.fractionDigits wanted =
          List.replicate before '0' ++ number.digits ++
            List.replicate after '0' ∧
        (after : Int) - wanted = number.point - number.digits.length := by
  obtain ⟨before, after, row, balanced⟩ := number.exists_row_positional
  refine ⟨before, after + (wanted - number.places), ?_, ?_⟩
  · rw [fractionDigits_of_places_le enough, ← List.append_assoc, row,
      List.replicate_add, List.append_assoc _ (List.replicate after '0')]
  · omega

/-- A trimmed number has no zero at the end of its digits behind the point. -/
theorem getLast?_fractionDigits_ne
    (normalized : number.Normalized)
    (trimmed : number.Trimmed) :
    (number.fractionDigits number.places).getLast? ≠ some '0' := by
  intro lastZero
  obtain ⟨small, _, isFraction⟩ |
      ⟨positive, _, _, isFraction⟩ |
      ⟨_, _, isFraction⟩ := number.positional_cases
  · -- a lone zero has the point behind it
    rw [isFraction,
      List.getLast?_append_of_ne_nil _ normalized.nonempty] at lastZero
    obtain ⟨only, isOnly⟩ := List.length_eq_one_iff.mp (trimmed lastZero)
    have firstZero : number.digits.head? = some '0' := by
      rwa [isOnly] at lastZero ⊢
    have point := normalized.zero firstZero
    omega
  · rw [isFraction, List.getLast?_drop] at lastZero
    split at lastZero
    · cases lastZero
    · have lone := trimmed lastZero
      omega
  · rw [isFraction] at lastZero
    cases lastZero

/-- An exponent stands behind the digits of a layout. -/
theorem isTail_exponent
    {letter : Char}
    (isLetter : DecimalText.isExponentLetter letter = true)
    (power : Int) :
    IsTail (exponent letter power) where
  letter := by
    rintro first ⟨⟩
    exact isLetter
  pointless := by
    have isSign : (if power < 0 then '-' else '+') ≠ '.' := by
      split <;> decide
    have notLetter : letter ≠ '.' := by
      rintro rfl
      cases isLetter
    have digits : AreDecimal (Numeral.padded 10 .lower 2 power.natAbs) :=
      (AreDecimal.zeros _).append (Numeral.areDecimal_decimal _)
    rw [exponent, List.mem_cons, List.mem_cons, not_or, not_or]
    exact ⟨notLetter.symm, isSign.symm, digits.notMem (by decide)⟩

theorem isTail_nil : IsTail [] where
  letter := by
    rintro first ⟨⟩
  pointless := List.not_mem_nil

/-- Only zero has a first digit whose power is not that of its place. -/
theorem firstPower_of_normalized (normalized : number.Normalized) :
    number.firstPower = number.point - 1 := by
  unfold firstPower
  split
  · next firstZero =>
      have point := normalized.zero firstZero
      omega
  · rfl

/-- Scientific layout with all digits behind the first one. -/
theorem scientific_of_normalized
    (normalized : number.Normalized)
    (letter : Char) :
    number.scientific letter (number.digits.length - 1) =
      number.digits.take 1 ++ fraction (number.digits.drop 1) ++
        exponent letter (number.point - 1) := by
  obtain ⟨first, rest, shape⟩ :=
    List.exists_cons_of_ne_nil normalized.nonempty
  rw [scientific, firstPower_of_normalized normalized, shape]
  simp [List.rightpad]

section

variable (alternate : Bool)

/-- The parts of a number in scientific layout with all its digits. -/
theorem parts_of_scientific
    (normalized : number.Normalized)
    {letter : Char}
    (isLetter : DecimalText.isExponentLetter letter = true) :
    let text :=
      keepPoint alternate
        (number.scientific letter (number.digits.length - 1))
    DecimalText.whole text = number.digits.take 1 ∧
      DecimalText.pointed text =
        keptFraction alternate (number.digits.drop 1) ∧
      DecimalText.fraction text = number.digits.drop 1 ∧
      DecimalText.exponent text = exponent letter (number.point - 1) := by
  rw [scientific_of_normalized normalized]
  exact
    parts_of_layout (normalized.areDecimal.take 1)
      (normalized.areDecimal.drop 1)
      (isTail_exponent isLetter (number.point - 1)) alternate

/-- Scientific layout with all digits of a number writes nothing beside them. -/
theorem row_of_scientific
    (normalized : number.Normalized)
    {letter : Char}
    (isLetter : DecimalText.isExponentLetter letter = true) :
    let text :=
      keepPoint alternate
        (number.scientific letter (number.digits.length - 1))
    DecimalText.whole text ++ DecimalText.fraction text =
      List.replicate 0 '0' ++ number.digits ++ List.replicate 0 '0' := by
  intro text
  obtain ⟨whole, _, isFraction, _⟩ :=
    parts_of_scientific alternate normalized isLetter
  rw [whole, isFraction, List.take_append_drop]
  simp

/-- Scientific layout with all digits of a number denotes it. -/
theorem value?_scientific
    (normalized : number.Normalized)
    {letter : Char}
    (isLetter : DecimalText.isExponentLetter letter = true) :
    ∃ value,
      number.value? = some value ∧
        DecimalText.value?
            (keepPoint alternate
              (number.scientific letter (number.digits.length - 1))) =
          some value := by
  obtain ⟨_, _, isFraction, tail⟩ :=
    parts_of_scientific alternate normalized isLetter
  have positive : 0 < number.digits.length :=
    List.length_pos_iff.mpr normalized.nonempty
  apply
    value?_of_layout normalized.areDecimal
      (row_of_scientific alternate normalized isLetter)
  · rw [tail]
    exact (exists_exponent_eq letter (number.point - 1)).1
  · rw [isFraction, List.length_drop]
    omega

/-- The parts of a number in positional layout. -/
theorem parts_of_positional
    (areDecimal : AreDecimal number.digits)
    (wanted : Nat) :
    let text := keepPoint alternate (number.positional wanted)
    DecimalText.whole text = number.integerDigits ∧
      DecimalText.pointed text =
        keptFraction alternate (number.fractionDigits wanted) ∧
      DecimalText.fraction text = number.fractionDigits wanted ∧
      DecimalText.exponent text = [] := by
  have parts :=
    parts_of_layout (areDecimal_integerDigits areDecimal)
      (areDecimal_fractionDigits areDecimal wanted) isTail_nil alternate
  rwa [List.append_nil] at parts

/-- Positional layout with at least the places that a number has denotes it. -/
theorem value?_positional
    (areDecimal : AreDecimal number.digits)
    {wanted : Nat}
    (enough : number.places ≤ wanted) :
    ∃ value,
      number.value? = some value ∧
        DecimalText.value?
            (keepPoint alternate (number.positional wanted)) =
          some value := by
  obtain ⟨whole, _, isFraction, tail⟩ :=
    parts_of_positional alternate areDecimal wanted
  obtain ⟨before, after, row, balanced⟩ :=
    exists_row_positional_of_places_le enough
  rw [← whole, ← isFraction] at row
  apply value?_of_layout areDecimal row
  · rw [tail]
    rfl
  · rw [isFraction, length_fractionDigits, add_zero]
    exact balanced

end

/-- Scientific layout of a number. -/
theorem writesGeneral_scientific
    (normalized : number.Normalized)
    {letter : Char}
    (isLetter : DecimalText.isExponentLetter letter = true)
    {alternate : Bool}
    (trimmed : alternate = false → number.Trimmed)
    {limit : Int}
    (far : number.point - 1 < -4 ∨ limit ≤ number.point - 1) :
    number.WritesGeneral letter alternate limit
      (keepPoint alternate
        (number.scientific letter (number.digits.length - 1))) := by
  obtain ⟨_, sign, digits, isExponent, isSign, long⟩ :=
    exists_exponent_eq letter (number.point - 1)
  obtain ⟨whole, pointed, isFraction, tail⟩ :=
    parts_of_scientific alternate normalized isLetter
  have row := row_of_scientific alternate normalized isLetter
  have denotes := value?_scientific alternate normalized isLetter
  have positive : 0 < number.digits.length :=
    List.length_pos_iff.mpr normalized.nonempty
  generalize
    keepPoint alternate
      (number.scientific letter (number.digits.length - 1)) = text
    at whole pointed isFraction tail row denotes ⊢
  have hasExponent : DecimalText.exponent text ≠ [] := by
    rw [tail, isExponent]
    exact List.cons_ne_nil _ _
  exact {
    denotes
    row := ⟨0, 0, row⟩
    scientific := ⟨fun _ => far, fun _ => hasExponent⟩
    exponent := fun _ => by
      rw [whole, tail]
      refine ⟨?_, sign, digits, isExponent, isSign, long⟩
      rw [List.length_take]
      omega
    bare := by
      rintro rfl
      rw [pointed, isFraction]
      refine ⟨keptFraction_of_bare, fun lastZero => ?_⟩
      rw [List.getLast?_drop] at lastZero
      split at lastZero
      · cases lastZero
      · have lone := trimmed rfl lastZero
        omega
    kept := by
      rintro rfl
      rw [pointed]
      exact keptFraction_of_kept _ }

/-- Positional layout of a number. -/
theorem writesGeneral_positional
    (normalized : number.Normalized)
    (letter : Char)
    {alternate : Bool}
    (trimmed : alternate = false → number.Trimmed)
    {limit : Int}
    (near : ¬(number.point - 1 < -4 ∨ limit ≤ number.point - 1)) :
    number.WritesGeneral letter alternate limit
      (keepPoint alternate (number.positional number.places)) := by
  obtain ⟨whole, pointed, isFraction, tail⟩ :=
    parts_of_positional alternate normalized.areDecimal number.places
  have denotes :=
    value?_positional alternate normalized.areDecimal
      (Nat.le_refl number.places)
  generalize
    keepPoint alternate (number.positional number.places) = text
    at whole pointed isFraction tail denotes ⊢
  obtain ⟨before, after, row, _⟩ := number.exists_row_positional
  rw [← whole, ← isFraction] at row
  exact {
    denotes
    row := ⟨before, after, row⟩
    scientific :=
      ⟨fun hasExponent => absurd tail hasExponent,
        fun far => absurd far near⟩
    exponent := fun hasExponent => absurd tail hasExponent
    bare := by
      rintro rfl
      rw [pointed, isFraction]
      exact
        ⟨keptFraction_of_bare,
          getLast?_fractionDigits_ne normalized (trimmed rfl)⟩
    kept := by
      rintro rfl
      rw [pointed]
      exact keptFraction_of_kept _ }

/-- The exponent from which on the general layout is scientific. -/
def generalLimit : Option Nat → Int
  | none => shortestLimit
  | some precision => precision

/--
The general layout writes all digits and no zeros to fill up a precision.

The limit drops to the number of digits only where the point is among them,
and there it is out of reach either way.
-/
theorem general_eq
    (letter : Char)
    {precision : Option Nat}
    (enough : ∀ wanted, precision = some wanted → number.digits.length ≤ wanted) :
    number.general letter precision =
      if number.point - 1 < -4 ∨
          generalLimit precision ≤ number.point - 1 then
        number.scientific letter (number.digits.length - 1)
      else
        number.positional number.places := by
  cases precision with
  | none =>
      simp only [general, generalLimit, Option.getD_none, Nat.min_self]
      congr 2
      rw [places]
      split <;> omega
  | some wanted =>
      have most : number.digits.length ≤ wanted := enough wanted rfl
      have sameLimit :
          (if number.digits.length < wanted ∧
              number.point ≤ number.digits.length then
            (number.digits.length : Int)
          else
            wanted) ≤ number.point - 1 ↔
          (wanted : Int) ≤ number.point - 1 := by
        split <;> omega
      have samePlaces :
          ((if number.point < wanted then (number.digits.length : Int)
            else wanted) - number.point).toNat =
          number.places := by
        rw [places]
        split <;> omega
      simp only [general, generalLimit, Option.getD_some,
        Nat.min_eq_right most, samePlaces]
      exact if_congr (or_congr_right sameLimit) rfl rfl

/-- The general layout of a number. -/
theorem writesGeneral_general
    (normalized : number.Normalized)
    {letter : Char}
    (isLetter : DecimalText.isExponentLetter letter = true)
    {alternate : Bool}
    (trimmed : alternate = false → number.Trimmed)
    {precision : Option Nat}
    (enough : ∀ wanted, precision = some wanted → number.digits.length ≤ wanted) :
    number.WritesGeneral letter alternate (generalLimit precision)
      (keepPoint alternate (number.general letter precision)) := by
  rw [general_eq letter enough]
  split
  · next far =>
      exact writesGeneral_scientific normalized isLetter trimmed far
  · next near =>
      exact writesGeneral_positional normalized letter trimmed near

end CaptureFormat.Significand
