import CaptureFormat.Proofs.Conversion.CodePoint
import CaptureFormat.Proofs.Rendering.Items

namespace CaptureFormat.Standard

/-!
# Integers as characters

Three verbs take an integer as the code point of a character: one writes it in
hexadecimal, one writes the character, and one quotes it.
-/

open Conversion (StandsFor WritesUnicode)

/-- The integer that a number argument is. -/
def integerOf? : Value → Option Int
  | .int number => some number.toInt
  | .uint number => some number.toNat
  | _ => none

section

variable
  {directive : Directive}
  {value : Value}
  {number : Int}

theorem hasItems_of_integerOf?
    (isInteger : integerOf? value = some number) :
    value.hasItems = false := by
  cases value <;> cases isInteger <;> rfl

/-- Signed and unsigned integers are converted alike, except in source form. -/
theorem single?_of_integerOf?
    (isInteger : integerOf? value = some number)
    (notPlain : directive.verb ≠ 'v') :
    single? directive value = Conversion.integer? directive number := by
  cases value with
  | int signed =>
      cases isInteger
      rfl
  | uint unsigned =>
      cases isInteger
      exact if_neg fun source => notPlain source.1
  | _ =>
      cases isInteger

/-- What an integer is converted to is what is rendered of it. -/
theorem toList_render_of_integer?
    (isInteger : integerOf? value = some number)
    (notPlain : directive.verb ≠ 'v')
    {shown : List Char}
    (converted : Conversion.integer? directive number = some shown) :
    (render directive value).toList = shown := by
  rw [toList_render, renderText_of_single?]
  rw [single?_of_integerOf? isInteger notPlain, converted]

/-- An integer that is not converted is rendered as a marker. -/
theorem toList_render_of_integer?_eq_none
    (isInteger : integerOf? value = some number)
    (notPlain : directive.verb ≠ 'v')
    (notType : directive.verb ≠ typeVerb)
    (foreign : Conversion.integer? directive number = none) :
    (render directive value).toList = mismatch directive.verb value := by
  rw [toList_render, renderText,
    renderUsing_of_single?_eq_none _ notType
      (hasItems_of_integerOf? isInteger)]
  rw [single?_of_integerOf? isInteger notPlain, foreign]

end

end CaptureFormat.Standard
