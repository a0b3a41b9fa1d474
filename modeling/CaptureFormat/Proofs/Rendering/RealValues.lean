import CaptureFormat.Proofs.Rendering.Real

namespace CaptureFormat.Standard

/-!
# Floating-point numbers as values

The verb `v` writes a floating-point number as `g` does: in the general layout,
with the fewest digits that read back, in the same field.  It stops there.  A
precision, which tells `g` how many digits to write, says nothing to it, and
neither does the sharp.

So for a directive with neither of them the two verbs agree on all numbers, and
for every other directive there is a number on which they do not.  Twelve is one
where at most one digit is wanted or the point is to be kept.  Where more digits
are wanted it is the least number above zero: the fewest digits that read back
are far from it, so every further digit moves them.
-/

open Conversion (general generalDigits magnitude? signed)
open DecimalText (Denotes)

/-- The directive with the verb of values. -/
def asValue (directive : Directive) : Directive :=
  { directive with verb := 'v' }

/-- The directive with the verb of the general layout. -/
def asGeneral (directive : Directive) : Directive :=
  { directive with verb := 'g' }

/-- The directive without what tells the general layout how much to write. -/
def unmeasured (directive : Directive) : Directive :=
  { directive with precision := none, flags.sharp := false }

section

variable (directive : Directive) (number : Binary64)

theorem magnitude?_asValue :
    magnitude? (asValue directive) number =
      some (general 'e' none false number) :=
  rfl

theorem magnitude?_asGeneral :
    magnitude? (asGeneral directive) number =
      some
        (general 'e' directive.precision directive.flags.sharp number) :=
  rfl

/-- A value is written in the general layout with nothing said about how much. -/
theorem render_asValue :
    render (asValue directive) (.float number) =
      render (asGeneral (unmeasured directive)) (.float number) := by
  apply String.toList_injective
  rw [toList_render, toList_render,
    renderText_float (magnitude?_asValue directive number),
    renderText_float (magnitude?_asGeneral (unmeasured directive) number)]
  -- the field does not look at the verb or at what was taken away
  rfl

end

/-- The general layout denotes the number whose digits it writes. -/
theorem exists_denotes_generalDigits
    (precision : Option Nat)
    (number : Binary64) :
    ∃ value,
      (generalDigits precision false number).value? = some value ∧
        ∀ alternate,
          Denotes (general 'e' precision alternate number) value := by
  have isLetter : DecimalText.isExponentLetter 'e' = true := rfl
  obtain ⟨value, denotes⟩ :=
    Conversion.exists_denotes_general precision number isLetter
  obtain ⟨written, isWritten, reads⟩ :=
    (Conversion.writesGeneral_generalDigits precision number isLetter
      false).denotes
  have same : written = value :=
    Option.some_inj.mp (reads.symm.trans (denotes false).reads)
  exact ⟨value, same ▸ isWritten, denotes⟩

section

variable
  {directive : Directive}
  {number : Binary64}
  (finite : number.isFinite = true)
  (agree :
    render (asValue directive) (.float number) =
      render (asGeneral directive) (.float number))

include finite agree

/-- Where both verbs write the same text, they write it into the same field. -/
theorem signed_eq_of_agree :
    signed directive number.isNegative (general 'e' none false number) =
      signed directive number.isNegative
        (general 'e' directive.precision directive.flags.sharp number) := by
  have texts := congrArg String.toList agree
  rw [toList_render_finite finite (magnitude?_asValue directive number),
    toList_render_finite finite (magnitude?_asGeneral directive number)]
    at texts
  exact texts

/-- Where both verbs write the same text, the digits of both stand for one number. -/
theorem value?_eq_of_agree :
    (generalDigits directive.precision false number).value? =
      (Decimal.shortest number).value? := by
  obtain ⟨value, isValue, denotes⟩ :=
    exists_denotes_generalDigits none number
  obtain ⟨other, isOther, denotesOther⟩ :=
    exists_denotes_generalDigits directive.precision number
  have reads :=
    Conversion.signedValue?_signed directive number.isNegative
      (denotes false)
  rw [signed_eq_of_agree finite agree,
    Conversion.signedValue?_signed directive number.isNegative
      (denotesOther directive.flags.sharp), Option.some_inj] at reads
  have same : other = value := by
    split at reads
    · exact neg_injective reads
    · exact reads
  rw [isOther, same]
  exact isValue.symm

end

/-- A point in a field is a point of its body. -/
theorem point_mem_signed_iff
    (directive : Directive)
    (negative : Bool)
    (body : List Char) :
    '.' ∈ signed directive negative body ↔ '.' ∈ body := by
  obtain ⟨⟨left, zeros, right, shape, _, _⟩, _⟩ :=
    Conversion.holds_signed directive negative body
  have notSign : '.' ∉ directive.sign negative := by
    unfold Directive.sign
    split
    · decide
    · split
      · decide
      · split <;> decide
  rw [shape]
  simp [List.mem_replicate, notSign]

/-- With a precision, the digits are those of the nearest number with no more of them. -/
theorem exists_roundsTo_generalDigits
    (count : Nat)
    (number : Binary64) :
    ∃ value,
      (generalDigits (some count) false number).value? = some value ∧
        RoundsTo
          (10 ^ (Int.log 10 number.absolute + 1 - (max count 1 : ℕ)))
          number.absolute value := by
  have positive : 0 < max count 1 := by omega
  obtain ⟨value, isValue, rounds⟩ :=
    Decimal.roundsTo_toDigits positive (Decimal.magnitude number)
  rw [Decimal.value_magnitude] at rounds
  refine ⟨value, ?_, rounds⟩
  rw [← isValue]
  exact Significand.value?_trimmed _

/-- The number 12, whose digits are more than one and whose point does not show. -/
def twelve : Binary64 :=
  ⟨0x4028000000000000⟩

/-- The least number above zero. -/
def leastPositive : Binary64 :=
  ⟨1⟩

theorem shortest_least : Decimal.shortest leastPositive = ⟨['5'], -323⟩ := by
  decide +kernel

theorem absolute_least : leastPositive.absolute = 2 ^ (-1074 : ℤ) := by
  have significand : leastPositive.significand = 1 := by decide
  have scale : leastPositive.scale = -1074 := by decide
  rw [Binary64.absolute, significand, scale, Nat.cast_one, one_mul]

/-- The least number is below what its first two digits round up to. -/
theorem two_mul_absolute_least_lt :
    2 * leastPositive.absolute < 99 * 10 ^ (-325 : ℤ) := by
  have powers : 2 * 10 ^ 325 < 99 * 2 ^ 1074 := by
    decide +kernel
  have powersCast : (2 : ℚ) * 10 ^ (325 : ℤ) < 99 * 2 ^ (1074 : ℤ) := by
    exact_mod_cast powers
  rw [absolute_least, zpow_neg, zpow_neg, ← div_eq_mul_inv,
    ← div_eq_mul_inv,
    div_lt_div_iff₀ (zpow_pos (by norm_num) _) (Decimal.power_pos _)]
  exact powersCast

theorem value?_shortest_least :
    (Decimal.shortest leastPositive).value? = some (50 * 10 ^ (-325 : ℤ)) := by
  have power : (10 : ℚ) ^ (-324 : ℤ) = 10 * 10 ^ (-325 : ℤ) := by
    rw [← zpow_one_add₀ (by norm_num)]
    rfl
  have isShortest :
      (Decimal.shortest leastPositive).value? = some (5 * 10 ^ (-324 : ℤ)) := by
    rw [shortest_least]
    rfl
  rw [isShortest, power, ← mul_assoc]
  norm_num

/-- The first digit of the least number stands at the place 324 behind the point. -/
theorem log_absolute_least_lt : Int.log 10 leastPositive.absolute < -323 := by
  have below := two_mul_absolute_least_lt
  have unit : (0 : ℚ) < 10 ^ (-325 : ℤ) := Decimal.power_pos _
  have power : (10 : ℚ) ^ (-323 : ℤ) = 100 * 10 ^ (-325 : ℤ) := by
    have hundred : (100 : ℚ) = 10 ^ (2 : ℤ) := by norm_num
    rw [hundred, ← zpow_add₀ (by norm_num)]
    rfl
  have positive : 0 < leastPositive.absolute := by
    rw [absolute_least]
    exact zpow_pos (by norm_num) _
  apply (Int.lt_zpow_iff_log_lt (by decide) positive).mp
  rw [Nat.cast_ofNat, power]
  linarith

/-- With two digits or more, the least number is not rounded up to its shortest form. -/
theorem value?_least_ne
    {count : Nat}
    (several : 1 < count) :
    (generalDigits (some count) false leastPositive).value? ≠
      (Decimal.shortest leastPositive).value? := by
  obtain ⟨value, isValue, _, _, near, _⟩ :=
    exists_roundsTo_generalDigits count leastPositive
  have step :
      (10 : ℚ) ^ (Int.log 10 leastPositive.absolute + 1 - (max count 1 : ℕ)) ≤
        10 ^ (-325 : ℤ) := by
    have place := log_absolute_least_lt
    apply zpow_le_zpow_right₀ (by norm_num)
    omega
  rw [isValue, value?_shortest_least, Ne, Option.some_inj]
  intro same
  -- the two are more than half a step apart
  rw [same] at near
  have below := two_mul_absolute_least_lt
  have apart := le_abs_self (50 * 10 ^ (-325 : ℤ) - leastPositive.absolute)
  linarith

/-- For every precision there is a number that it says something about. -/
theorem exists_value?_ne (count : Nat) :
    ∃ number : Binary64,
      number.isFinite = true ∧
        (generalDigits (some count) false number).value? ≠
          (Decimal.shortest number).value? := by
  rcases Nat.lt_or_ge 1 count with several | few
  · exact ⟨leastPositive, by decide, value?_least_ne several⟩
  · have one : max count 1 = 1 := Nat.max_eq_right few
    have rounded :
        ((Decimal.magnitude twelve).toDigits 1).trimmed = ⟨['1'], 2⟩ := by
      decide +kernel
    have shortest : Decimal.shortest twelve = ⟨['1', '2'], 2⟩ := by
      decide +kernel
    have isTen :
        (⟨['1'], 2⟩ : Significand).value? = some (1 * 10 ^ (1 : ℤ)) :=
      rfl
    have isTwelve :
        (⟨['1', '2'], 2⟩ : Significand).value? = some (12 * 10 ^ (0 : ℤ)) :=
      rfl
    refine ⟨twelve, by decide, ?_⟩
    simp only [generalDigits, one, Bool.false_eq_true, ↓reduceIte, rounded,
      shortest, isTen, isTwelve]
    norm_num

/-- Without a precision, a sharp shows in the point behind twelve. -/
theorem not_agree_twelve
    {directive : Directive}
    (noPrecision : directive.precision = none)
    (sharp : directive.flags.sharp = true) :
    render (asValue directive) (.float twelve) ≠
      render (asGeneral directive) (.float twelve) := by
  intro agree
  have finite : twelve.isFinite = true := by decide
  have points := point_mem_signed_iff directive twelve.isNegative
  have noPoint : '.' ∉ general 'e' none false twelve := by
    decide +kernel
  have point : '.' ∈ general 'e' none true twelve := by
    decide +kernel
  have same := signed_eq_of_agree finite agree
  rw [noPrecision, sharp] at same
  exact noPoint ((points _).mp (same ▸ (points _).mpr point))

/--
What `v` and `g` have in common on floating-point numbers.

For every directive and every number, `v` writes what `g` writes without a
precision and without a sharp: the fewest digits that read back, in a field with
the same flags and the same width.  So the two verbs agree on all numbers for a
directive without either of them.  With a precision, or with a sharp, they do
not: then there are numbers that they write differently.
-/
theorem render_real_value (directive : Directive) :
    (∀ number,
        render (asValue directive) (.float number) =
          render (asGeneral (unmeasured directive)) (.float number)) ∧
      ((∀ number,
          render (asValue directive) (.float number) =
            render (asGeneral directive) (.float number)) ↔
        directive.precision = none ∧ directive.flags.sharp = false) := by
  refine ⟨render_asValue directive, ?_, ?_⟩
  · intro agree
    have noPrecision : directive.precision = none := by
      cases shape : directive.precision with
      | none =>
          rfl
      | some count =>
          obtain ⟨number, finite, differ⟩ := exists_value?_ne count
          have same := value?_eq_of_agree finite (agree number)
          rw [shape] at same
          exact absurd same differ
    refine ⟨noPrecision, Bool.eq_false_of_not_eq_true fun sharp => ?_⟩
    exact not_agree_twelve noPrecision sharp (agree twelve)
  · rintro ⟨noPrecision, notSharp⟩ number
    have unchanged : unmeasured directive = directive := by
      rw [unmeasured, ← noPrecision, ← notSharp]
    rw [render_asValue, unchanged]

/-- With three digits wanted, a third shows all sixteen as a value. -/
theorem render_third_differs :
    let third : Binary64 := ⟨0x3FD5555555555555⟩
    let directive : Directive := { verb := 'v', precision := some 3 }
    render directive (.float third) = "0.3333333333333333" ∧
      render { directive with verb := 'g' } (.float third) = "0.333" ∧
      render directive (.float third) ≠
        render { directive with verb := 'g' } (.float third) := by
  decide +kernel

end CaptureFormat.Standard
