import CaptureFormat.Proofs.Decimal.Digits
import CaptureFormat.Proofs.Rendering.Items

namespace CaptureFormat.Standard

/-!
# Floating-point numbers in the general layout

The general verbs write all digits that were chosen for a number, and what they
write denotes the decimal of these digits.  Which layout they take depends on
the place of the point alone.
-/

open Conversion (generalDigits)

/--
The general verbs keep every digit.

For each finite number and each directive with such a verb, the rendering is a
text in a field with a sign.  The text denotes the decimal whose digits were
chosen for the magnitude, and `WritesGeneral` says how: all digits stand in a
row with nothing but zeros beside them, an exponent is taken exactly below -4
and from the limit on, and zeros and the point at the end go unless they are to
be kept.  With a precision and the alternate form, there are as many digits as
the precision says.  The first digit is not a zero, unless the number is.
-/
theorem render_general
    (directive : Directive)
    {number : Binary64}
    (finite : number.isFinite = true)
    (general :
      directive.verb = 'g' ∨ directive.verb = 'G' ∨ directive.verb = 'v') :
    let precision :=
      if directive.verb = 'v' then none else directive.precision
    let alternate :=
      if directive.verb = 'v' then false else directive.flags.sharp
    let letter := if directive.verb = 'G' then 'E' else 'e'
    let limit : Int :=
      match precision with
      | none => 6
      | some count => (max count 1 : Nat)
    let digits := generalDigits precision alternate number
    ∃ text,
      (render directive (.float number)).toList =
          Conversion.signed directive number.isNegative text ∧
        digits.WritesGeneral letter alternate limit text ∧
        (∀ count,
          precision = some count →
          alternate = true →
          digits.digits.length = max count 1) ∧
        (number.significand ≠ 0 → digits.digits.head? ≠ some '0') ∧
        (number.significand = 0 →
          digits.point = 1 ∧ ∀ digit ∈ digits.digits, digit = '0') := by
  intro precision alternate letter limit digits
  have isMagnitude :
      Conversion.magnitude? directive number =
        some (Conversion.general letter precision alternate number) := by
    simp only [precision, alternate, letter]
    rcases general with verb | verb | verb <;>
      simp only [Conversion.magnitude?, verb] <;> rfl
  have isLetter : DecimalText.isExponentLetter letter = true := by
    simp only [letter]
    split <;> rfl
  have isLimit :
      limit = Significand.generalLimit (precision.map (max · 1)) := by
    simp only [limit]
    cases precision <;> rfl
  refine
    ⟨Conversion.general letter precision alternate number, ?_, ?_, ?_, ?_, ?_⟩
  · rw [toList_render]
    exact (renderText_float isMagnitude).trans (if_pos finite)
  · rw [isLimit]
    exact
      Conversion.writesGeneral_generalDigits precision number isLetter
        alternate
  · intro count isCount isAlternate
    simp only [digits, isCount, isAlternate]
    exact Conversion.length_generalDigits number count
  · intro nonzero
    rcases Conversion.generalDigits_cases precision alternate number with
      ⟨zero, _⟩ | ⟨_, leads⟩
    · exact absurd zero nonzero
    · exact leads.nonzero
  · intro zero
    rcases Conversion.generalDigits_cases precision alternate number with
      ⟨_, count, _, zeros⟩ | ⟨nonzero, _⟩
    · simp only [digits, zeros]
      exact ⟨trivial, fun digit => List.eq_of_mem_replicate⟩
    · exact absurd zero nonzero

/-- A number that rounds up to a new first digit, with all zeros behind it. -/
theorem render_general_carried :
    let directive : Directive :=
      { verb := 'g', flags := { sharp := true }, precision := some 6 }
    let number : Binary64 := ⟨0x412E847F00000000⟩
    number.isFinite = true ∧
      (directive.verb = 'g' ∨ directive.verb = 'G' ∨
        directive.verb = 'v') ∧
      ∃ text,
        (render directive (.float number)).toList =
            Conversion.signed directive false text ∧
          Significand.WritesGeneral ⟨"100000".toList, 7⟩ 'e' true 6 text := by
  intro directive number
  have finite : number.isFinite = true := by
    decide
  have general :
      directive.verb = 'g' ∨ directive.verb = 'G' ∨ directive.verb = 'v' :=
    Or.inl rfl
  have digits :
      generalDigits (some 6) true number = ⟨"100000".toList, 7⟩ := by
    decide +kernel
  obtain ⟨text, shown, writes, _⟩ := render_general directive finite general
  refine ⟨finite, general, text, shown, ?_⟩
  rw [← digits]
  exact writes

end CaptureFormat.Standard
