import CaptureFormat.Decimal.Layout
import CaptureFormat.Proofs.Numeral.Reading
import CaptureFormat.Proofs.Template.Lookahead
import Mathlib.Data.Rat.Cast.Order

namespace CaptureFormat

/-!
# Decimal texts read back

A decimal text is digits with a point among them and an exponent behind them.
It is taken apart at its exponent letter and at its point, and denotes a
rational number.  A layout of a decimal number denotes that number if its
digits stand in a row, with nothing but zeros around them, and the place of the
point and the exponent make up for each other.
-/

namespace DecimalText

/-- Whether a character stands in front of an exponent. -/
def isExponentLetter (character : Char) : Bool :=
  character == 'e' || character == 'E'

/-- Everything in front of the exponent. -/
def mantissa (text : List Char) : List Char :=
  text.takeWhile fun character => !isExponentLetter character

/-- The exponent with its letter, if there is one. -/
def exponent (text : List Char) : List Char :=
  text.dropWhile fun character => !isExponentLetter character

/-- The digits in front of the point. -/
def whole (text : List Char) : List Char :=
  (mantissa text).takeWhile (· != '.')

/-- The point and the digits behind it, if there is one. -/
def pointed (text : List Char) : List Char :=
  (mantissa text).dropWhile (· != '.')

/-- The digits behind the point. -/
def fraction (text : List Char) : List Char :=
  (pointed text).drop 1

/-- The number that an exponent stands for; a missing one stands for 0. -/
def power? : List Char → Option Int
  | [] => some 0
  | _ :: '+' :: digits =>
      (Numeral.read? 10 .lower digits).map fun (power : Nat) => (power : Int)
  | _ :: '-' :: digits =>
      (Numeral.read? 10 .lower digits).map fun (power : Nat) => -(power : Int)
  | _ => none

/-- The rational number that an unsigned decimal text denotes. -/
def value? (text : List Char) : Option ℚ :=
  match Numeral.read? 10 .lower (whole text ++ fraction text),
      power? (exponent text) with
  | some digits, some power =>
      some (digits * 10 ^ (power - (fraction text).length))
  | _, _ => none

/-- The rational number that a text denotes with a sign in front, or without one. -/
def signedValue? : List Char → Option ℚ
  | '-' :: text => (value? text).map fun value => -value
  | '+' :: text => value? text
  | text => value? text

end DecimalText

/-- Characters that are all decimal digits. -/
def Numeral.AreDecimal (digits : List Char) : Prop :=
  ∀ digit ∈ digits, (digitValue? 10 .lower digit).isSome

namespace Numeral.AreDecimal

variable {digits others : List Char}

theorem zeros (count : Nat) : AreDecimal (List.replicate count '0') := by
  intro digit member
  rw [List.eq_of_mem_replicate member]
  rfl

theorem append (front : AreDecimal digits) (back : AreDecimal others) :
    AreDecimal (digits ++ others) :=
  List.forall_mem_append.mpr ⟨front, back⟩

theorem of_sublist
    (areDecimal : AreDecimal digits)
    (part : others.Sublist digits) :
    AreDecimal others :=
  fun digit member => areDecimal digit (part.subset member)

theorem take (areDecimal : AreDecimal digits) (count : Nat) :
    AreDecimal (digits.take count) :=
  areDecimal.of_sublist (List.take_sublist count digits)

theorem drop (areDecimal : AreDecimal digits) (count : Nat) :
    AreDecimal (digits.drop count) :=
  areDecimal.of_sublist (List.drop_sublist count digits)

theorem rightpad (areDecimal : AreDecimal digits) (count : Nat) :
    AreDecimal (digits.rightpad count '0') :=
  areDecimal.append (zeros _)

theorem notMem
    (areDecimal : AreDecimal digits)
    {other : Char}
    (foreign : digitValue? 10 .lower other = none) :
    other ∉ digits := by
  intro member
  have isDigit := areDecimal other member
  rw [foreign] at isDigit
  cases isDigit

theorem not_isExponentLetter
    (areDecimal : AreDecimal digits)
    {character : Char}
    (member : character ∈ digits) :
    (!DecimalText.isExponentLetter character) = true := by
  have notLower : character ≠ 'e' := fun isE =>
    areDecimal.notMem (by decide) (isE ▸ member)
  have notUpper : character ≠ 'E' := fun isE =>
    areDecimal.notMem (by decide) (isE ▸ member)
  simp [DecimalText.isExponentLetter, notLower, notUpper]

theorem ne_point
    (areDecimal : AreDecimal digits)
    {character : Char}
    (member : character ∈ digits) :
    (character != '.') = true :=
  bne_iff_ne.mpr fun isPoint =>
    areDecimal.notMem (by decide) (isPoint ▸ member)

theorem exists_read (areDecimal : AreDecimal digits) :
    ∃ value, read? 10 .lower digits = some value :=
  Option.isSome_iff_exists.mp (isSome_readFrom?_of_forall areDecimal 0)

end Numeral.AreDecimal

theorem Numeral.areDecimal_decimal (number : Nat) :
    AreDecimal (decimal number) := by
  intro digit member
  have reads : read? 10 .lower (decimal number) = some number :=
    read?_digits (by decide) (by decide) number
  exact
    isSome_digitValue?_of_mem (Option.isSome_of_eq_some reads) member

namespace DecimalText

open Numeral (AreDecimal)

section

variable (text : List Char)

theorem whole_append_pointed_append_exponent :
    whole text ++ pointed text ++ exponent text = text := by
  rw [whole, pointed, List.takeWhile_append_dropWhile, mantissa, exponent,
    List.takeWhile_append_dropWhile]

theorem pointed_cases :
    pointed text = [] ∨ pointed text = '.' :: fraction text := by
  unfold fraction
  cases shape : pointed text with
  | nil =>
      exact Or.inl rfl
  | cons first rest =>
      have stopped := List.head?_dropWhile_not (· != '.') (mantissa text)
      rw [← pointed, shape] at stopped
      have isPoint : first = '.' := by
        simpa using stopped
      rw [isPoint]
      exact Or.inr rfl

theorem exponent_cases :
    exponent text = [] ∨
      ∃ letter rest,
        exponent text = letter :: rest ∧ isExponentLetter letter = true := by
  cases shape : exponent text with
  | nil =>
      exact Or.inl rfl
  | cons letter rest =>
      have stopped :=
        List.head?_dropWhile_not
          (fun character => !isExponentLetter character) text
      rw [← exponent, shape] at stopped
      refine Or.inr ⟨letter, rest, rfl, ?_⟩
      simpa using stopped

end

/-- Digits in front of a text go in front of what it has before its point. -/
theorem parts_append
    {digits : List Char}
    (areDecimal : AreDecimal digits)
    (text : List Char) :
    whole (digits ++ text) = digits ++ whole text ∧
      fraction (digits ++ text) = fraction text ∧
      exponent (digits ++ text) = exponent text := by
  have noLetter : ∀ digit ∈ digits, (!isExponentLetter digit) = true :=
    fun _ => areDecimal.not_isExponentLetter
  have noPoint : ∀ digit ∈ digits, (digit != '.') = true :=
    fun _ => areDecimal.ne_point
  simp only [whole, fraction, pointed, exponent, mantissa,
    List.takeWhile_append_of_pos noLetter,
    List.takeWhile_append_of_pos noPoint,
    List.dropWhile_append_of_pos noLetter,
    List.dropWhile_append_of_pos noPoint, and_self]

/-- Zeros in front of a text change nothing. -/
theorem value?_zeros_append (count : Nat) (text : List Char) :
    value? (List.replicate count '0' ++ text) = value? text := by
  obtain ⟨inWhole, inFraction, inExponent⟩ :=
    parts_append (AreDecimal.zeros count) text
  rw [value?, value?, inWhole, inFraction, inExponent, List.append_assoc,
    Numeral.read?_zeros_append (by decide)]

section

variable {text : List Char}

/-- A text that denotes a number has digits on both sides of its point. -/
theorem areDecimal_of_value?
    (readable : (value? text).isSome) :
    AreDecimal (whole text ++ fraction text) := by
  intro digit member
  cases digits : Numeral.read? 10 .lower (whole text ++ fraction text) with
  | none =>
      rw [value?, digits] at readable
      cases readable
  | some number =>
      exact
        Numeral.isSome_digitValue?_of_mem (Option.isSome_of_eq_some digits)
          member

/-- A text that denotes a number has digits behind the sign of its exponent. -/
theorem exponent_of_value?
    (readable : (value? text).isSome) :
    exponent text = [] ∨
      ∃ letter sign digits,
        exponent text = letter :: sign :: digits ∧
          isExponentLetter letter = true ∧
          (sign = '+' ∨ sign = '-') ∧
          AreDecimal digits := by
  obtain none | ⟨letter, rest, shape, isLetter⟩ := exponent_cases text
  · exact Or.inl none
  · have hasPower : (power? (letter :: rest)).isSome := by
      cases power : power? (letter :: rest) with
      | none =>
          rw [value?, shape, power] at readable
          split at readable <;> simp_all
      | some number =>
          rfl
    rw [shape]
    refine Or.inr ?_
    unfold power? at hasPower
    split at hasPower
    · next empty =>
        cases empty
    · next digits isShape =>
        cases isShape
        rw [Option.isSome_map] at hasPower
        exact
          ⟨letter, '+', digits, rfl, isLetter, Or.inl rfl,
            fun _ => Numeral.isSome_digitValue?_of_mem hasPower⟩
    · next digits isShape =>
        cases isShape
        rw [Option.isSome_map] at hasPower
        exact
          ⟨letter, '-', digits, rfl, isLetter, Or.inr rfl,
            fun _ => Numeral.isSome_digitValue?_of_mem hasPower⟩
    · cases hasPower

/-- A text that denotes a number has no space in it. -/
theorem space_notMem_of_value?
    (readable : (value? text).isSome) :
    ' ' ∉ text := by
  have digits := areDecimal_of_value? readable
  have inDigits : ' ' ∉ whole text ++ fraction text :=
    digits.notMem (by decide)
  rw [List.mem_append, not_or] at inDigits
  have inPointed : ' ' ∉ pointed text := by
    obtain none | shape := pointed_cases text
    · rw [none]
      exact List.not_mem_nil
    · rw [shape, List.mem_cons, not_or]
      exact ⟨by decide, inDigits.2⟩
  have inExponent : ' ' ∉ exponent text := by
    obtain none | ⟨letter, sign, power, shape, isLetter, isSign, areDecimal⟩ :=
      exponent_of_value? readable
    · rw [none]
      exact List.not_mem_nil
    · rw [shape, List.mem_cons, List.mem_cons, not_or, not_or]
      refine ⟨?_, ?_, areDecimal.notMem (by decide)⟩
      · rintro rfl
        cases isLetter
      · rcases isSign with rfl | rfl <;> decide
  rw [← whole_append_pointed_append_exponent text, List.mem_append,
    List.mem_append, not_or, not_or]
  exact ⟨⟨inDigits.1, inPointed⟩, inExponent⟩

/-- A text that denotes a number does not start with a sign. -/
theorem ne_sign_of_value?
    {first : Char}
    {rest : List Char}
    (readable : (value? (first :: rest)).isSome) :
    first ≠ '-' ∧ first ≠ '+' := by
  have digits := areDecimal_of_value? readable
  constructor
  all_goals
    rintro rfl
    exact
      digits.notMem (by decide)
        (List.mem_append_left _ List.mem_cons_self)

end

/-- A minus negates, a plus does nothing, and no other text has a sign. -/
theorem signedValue?_append
    {text : List Char}
    {value : ℚ}
    (reads : value? text = some value) :
    signedValue? ('-' :: text) = some (-value) ∧
      signedValue? ('+' :: text) = some value ∧
      signedValue? text = some value := by
  refine ⟨?_, reads, ?_⟩
  · rw [signedValue?, reads, Option.map_some]
  · unfold signedValue?
    split
    · next rest =>
        have notSign := ne_sign_of_value? (Option.isSome_of_eq_some reads)
        exact absurd rfl notSign.1
    · next rest =>
        have notSign := ne_sign_of_value? (Option.isSome_of_eq_some reads)
        exact absurd rfl notSign.2
    · exact reads

end DecimalText

namespace Significand

open Numeral (AreDecimal)

/-- The rational number `0.digits * 10 ^ point`. -/
def value? (number : Significand) : Option ℚ :=
  (Numeral.read? 10 .lower number.digits).map fun digits =>
    digits * 10 ^ (number.point - number.digits.length)

/-- What stands behind the digits of a layout: nothing, or an exponent. -/
structure IsTail (tail : List Char) : Prop where
  letter : ∀ first ∈ tail.head?, DecimalText.isExponentLetter first = true
  pointless : '.' ∉ tail

/-- The digits behind a point, which is there without them if it is to be kept. -/
def keptFraction (alternate : Bool) (digits : List Char) : List Char :=
  if alternate then '.' :: digits else fraction digits

section

variable {front back tail : List Char}

/-- A tail starts where the exponent does. -/
theorem takeWhile_append_tail
    {mantissa : List Char}
    (noLetter :
      ∀ character ∈ mantissa,
        (!DecimalText.isExponentLetter character) = true)
    (isTail : IsTail tail) :
    (mantissa ++ tail).takeWhile
          (fun character => !DecimalText.isExponentLetter character) =
        mantissa ∧
      (mantissa ++ tail).dropWhile
          (fun character => !DecimalText.isExponentLetter character) =
        tail := by
  apply takeWhile_append_of_stops noLetter
  intro character isFirst
  rw [isTail.letter character isFirst]
  rfl

/-- A point is put in front of the exponent exactly if no digit follows one. -/
theorem keepPoint_layout
    (frontDigits : AreDecimal front)
    (isTail : IsTail tail)
    (alternate : Bool) :
    keepPoint alternate (front ++ fraction back ++ tail) =
      front ++ keptFraction alternate back ++ tail := by
  cases alternate with
  | false =>
      rfl
  | true =>
      change forcePoint _ = front ++ '.' :: back ++ tail
      rw [forcePoint]
      cases back with
      | nil =>
          have pointless : '.' ∉ front ++ tail := by
            rw [List.mem_append, not_or]
            exact ⟨frontDigits.notMem (by decide), isTail.pointless⟩
          have noLetter :
              ∀ character ∈ front,
                (!DecimalText.isExponentLetter character) = true :=
            fun _ => frontDigits.not_isExponentLetter
          have mantissa :
              (front ++ tail).takeWhile
                  (fun character =>
                    !(character == 'e' || character == 'E')) =
                front :=
            (takeWhile_append_tail noLetter isTail).1
          simp only [fraction, if_true, List.append_nil, if_neg pointless,
            mantissa, List.drop_left, List.append_assoc,
            List.cons_append, List.nil_append]
      | cons digit rest =>
          have hasPoint :
              '.' ∈ front ++ fraction (digit :: rest) ++ tail := by
            simp [fraction]
          rw [if_pos hasPoint]
          rfl

/-- Digits, a point, and an exponent are taken apart where they were put together. -/
theorem parts_of_layout
    (frontDigits : AreDecimal front)
    (backDigits : AreDecimal back)
    (isTail : IsTail tail)
    (alternate : Bool) :
    let text := keepPoint alternate (front ++ fraction back ++ tail)
    DecimalText.whole text = front ∧
      DecimalText.pointed text = keptFraction alternate back ∧
      DecimalText.fraction text = back ∧
      DecimalText.exponent text = tail := by
  intro text
  have shape : text = front ++ keptFraction alternate back ++ tail :=
    keepPoint_layout frontDigits isTail alternate
  have fractionCases :
      keptFraction alternate back = '.' :: back ∨
        keptFraction alternate back = [] ∧ back = [] := by
    unfold keptFraction fraction
    split
    · exact Or.inl rfl
    · split
      · next empty =>
          exact Or.inr ⟨rfl, empty⟩
      · exact Or.inl rfl
  have noLetter :
      ∀ character ∈ front ++ keptFraction alternate back,
        (!DecimalText.isExponentLetter character) = true := by
    refine List.forall_mem_append.mpr
      ⟨fun _ => frontDigits.not_isExponentLetter, ?_⟩
    obtain shown | ⟨shown, _⟩ := fractionCases
    · rw [shown]
      exact
        List.forall_mem_cons.mpr
          ⟨rfl, fun _ => backDigits.not_isExponentLetter⟩
    · rw [shown]
      exact List.forall_mem_nil _
  obtain ⟨mantissa, exponent⟩ := takeWhile_append_tail noLetter isTail
  have noPoint : ∀ digit ∈ front, (digit != '.') = true :=
    fun _ => frontDigits.ne_point
  have point :
      ∀ character ∈ (keptFraction alternate back).head?,
        (character != '.') = false := by
    obtain shown | ⟨shown, _⟩ := fractionCases
    · rw [shown]
      rintro character ⟨⟩
      rfl
    · rw [shown]
      intro character isFirst
      cases isFirst
  obtain ⟨whole, pointed⟩ := takeWhile_append_of_stops noPoint point
  have behindPoint : (keptFraction alternate back).drop 1 = back := by
    obtain shown | ⟨shown, empty⟩ := fractionCases
    · rw [shown]
      rfl
    · rw [shown, empty]
      rfl
  simp only [DecimalText.whole, DecimalText.pointed,
    DecimalText.fraction, DecimalText.mantissa, DecimalText.exponent, shape,
    mantissa, exponent, whole, pointed, behindPoint, and_self]

end

/--
A layout denotes the number whose digits it writes.

The digits may have zeros in front of them and behind them.  The exponent makes
up for the digits behind the point and for the zeros among them.
-/
theorem value?_of_layout
    {number : Significand}
    (areDecimal : AreDecimal number.digits)
    {text : List Char}
    {before after : Nat}
    (row :
      DecimalText.whole text ++ DecimalText.fraction text =
        List.replicate before '0' ++ number.digits ++
          List.replicate after '0')
    {power : Int}
    (hasPower : DecimalText.power? (DecimalText.exponent text) = some power)
    (balanced :
      after + power - (DecimalText.fraction text).length =
        number.point - number.digits.length) :
    ∃ value,
      number.value? = some value ∧ DecimalText.value? text = some value := by
  obtain ⟨digits, read⟩ := areDecimal.exists_read
  have readRow :
      Numeral.read? 10 .lower
          (DecimalText.whole text ++ DecimalText.fraction text) =
        some (digits * 10 ^ after) := by
    rw [row, List.append_assoc, Numeral.read?_zeros_append (by decide),
      Numeral.read?_append_zeros (by decide), read]
    rfl
  refine ⟨_, by rw [value?, read]; rfl, ?_⟩
  rw [DecimalText.value?, readRow, hasPower]
  simp only [Option.some_inj]
  have ten : (10 : ℚ) ≠ 0 := by norm_num
  rw [← balanced, Nat.cast_mul, Nat.cast_pow, Nat.cast_ofNat,
    add_sub_assoc, zpow_add₀ ten, zpow_natCast, mul_assoc]

end Significand

end CaptureFormat
