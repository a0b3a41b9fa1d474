import CaptureFormat.Proofs.Conversion.Real
import CaptureFormat.Proofs.Rendering.Items

namespace CaptureFormat.Standard

/-!
# Floating-point numbers read back

What a verb writes of a finite number denotes the same in every form and in
every field, and its sign is the sign bit.  How much of the number it denotes
is left to the verb: as many decimals as were asked for, rounded to the nearest,
or as many digits as a general verb chooses.
-/

open Conversion (magnitude? signed)

section

variable
  {directive : Directive}
  {number : Binary64}
  {body : List Char}

theorem toList_render_finite
    (finite : number.isFinite = true)
    (shown : magnitude? directive number = some body) :
    (render directive (.float number)).toList =
      signed directive number.isNegative body := by
  rw [toList_render, renderText_float shown, if_pos finite]

theorem toList_render_nonfinite
    (notFinite : ¬number.isFinite = true)
    (shown : magnitude? directive number = some body) :
    (render directive (.float number)).toList =
      directive.padWith ' ' (Conversion.nonfinite directive number) := by
  rw [toList_render, renderText_float shown, if_neg notFinite]

end

/--
A floating-point number reads back.

For every verb that applies to one, the rendering of a finite number holds a
sign and a body.  The sign is a minus exactly if the sign bit is set, also for
zero.  Read back with its sign, and with the zeros that fill the width, the body
denotes the same number as in the plainest form: without a width, without zeros,
and not in the alternate form.

The scientific and the positional verbs write the nearest number with so many
decimals, and the even one of two; the alternate form adds a point at most.

A number that is not finite is one of five words in a field of spaces.
-/
theorem render_float
    (directive : Directive)
    (number : Binary64)
    (applies : directive.verb ∈ ['e', 'E', 'f', 'F', 'g', 'G', 'v']) :
    let text := (render directive (.float number)).toList
    let unpadded : Directive := { directive with width := none }
    let plainest : Directive :=
      { directive with
        width := none
        flags.zero := false
        flags.sharp := false }
    if number.isFinite = true then
      let sign :=
        if number.isNegative then ['-']
        else if directive.flags.plus then ['+']
        else if directive.flags.space then [' ']
        else []
      let decimals := directive.precision.getD 6
      ∃ body bare value,
        directive.Holds sign body text ∧
          (render unpadded (.float number)).toList = sign ++ body ∧
          (render plainest (.float number)).toList = sign ++ bare ∧
          DecimalText.Denotes body value ∧
          DecimalText.Denotes bare value ∧
          DecimalText.signedValue? (trimSpaces text) =
            some (if number.isNegative then -value else value) ∧
          DecimalText.signedValue? (trimSpaces (sign ++ bare)) =
            some (if number.isNegative then -value else value) ∧
          (directive.verb = 'e' ∨ directive.verb = 'E' →
            WritesScientific number.absolute directive.verb decimals body) ∧
          (directive.verb = 'f' ∨ directive.verb = 'F' →
            WritesPositional number.absolute decimals body) ∧
          (directive.verb ∈ ['e', 'E', 'f', 'F'] →
            AddsPoint body bare ∧
              (directive.flags.sharp = false → body = bare))
    else
      let word := Conversion.nonfiniteWord directive number
      trimSpaces text = word ∧
        word ∈ Conversion.nonfiniteWords ∧
        ∃ left right,
          text =
            List.replicate left ' ' ++ word ++ List.replicate right ' ' := by
  intro text unpadded plainest
  obtain ⟨value, denotes⟩ :=
    Conversion.exists_denotes_magnitude? directive number applies
  obtain ⟨body, shown, denotesBody⟩ := denotes directive rfl rfl
  obtain ⟨bare, shownBare, denotesBare⟩ := denotes plainest rfl rfl
  split
  · next finite =>
      intro sign decimals
      have rendered :
          text = signed directive number.isNegative body :=
        toList_render_finite finite shown
      have plain :
          signed plainest number.isNegative bare = sign ++ bare :=
        Conversion.signed_of_no_width plainest _ rfl bare
      refine
        ⟨body, bare, value, ?_, ?_, ?_, denotesBody, denotesBare, ?_, ?_, ?_,
          ?_, ?_⟩
      · rw [rendered]
        exact Conversion.holds_signed directive number.isNegative body
      · have shownUnpadded : magnitude? unpadded number = some body := shown
        rw [toList_render_finite finite shownUnpadded]
        exact Conversion.signed_of_no_width unpadded _ rfl body
      · rw [toList_render_finite finite shownBare, plain]
      · rw [rendered]
        exact
          Conversion.signedValue?_signed directive number.isNegative
            denotesBody
      · rw [← plain]
        exact
          Conversion.signedValue?_signed plainest number.isNegative
            denotesBare
      · intro isScientific
        obtain ⟨isLetter, isShown⟩ :=
          Conversion.magnitude?_scientific directive number isScientific
        rw [shown, Option.some_inj] at isShown
        rw [isShown]
        exact
          Conversion.writesScientific_scientific directive number isLetter
      · intro isPositional
        have isShown :=
          Conversion.magnitude?_positional directive number isPositional
        rw [shown, Option.some_inj] at isShown
        rw [isShown]
        exact Conversion.writesPositional_positional directive number
      · intro isFixed
        exact
          Conversion.addsPoint_magnitude? directive number isFixed shown
            plainest rfl rfl rfl shownBare
  · next notFinite =>
      intro word
      have rendered :
          text =
            directive.padWith ' ' (Conversion.nonfinite directive number) :=
        toList_render_nonfinite notFinite shown
      obtain ⟨trimmed, surrounded⟩ :=
        Conversion.padWith_nonfinite directive number
      rw [rendered]
      exact
        ⟨trimmed, Conversion.nonfiniteWord_mem directive number, surrounded⟩

/-- A number that rounds up to a new first digit, with zeros behind its sign. -/
theorem render_float_carried :
    let directive : Directive :=
      { verb := 'e'
        flags := { zero := true, sharp := true }
        width := some 10
        precision := some 0 }
    let number : Binary64 := ⟨0xC023EB851EB851EC⟩
    let text := "-0001.e+01".toList
    directive.verb ∈ ['e', 'E', 'f', 'F', 'g', 'G', 'v'] ∧
      (render directive (.float number)).toList = text ∧
      ∃ body value,
        directive.Holds ['-'] body text ∧
          DecimalText.Denotes body value ∧
          DecimalText.signedValue? (trimSpaces text) = some (-value) ∧
          WritesScientific number.absolute 'e' 0 body := by
  intro directive number text
  have applies :
      directive.verb ∈ ['e', 'E', 'f', 'F', 'g', 'G', 'v'] := by
    decide
  have shown : (render directive (.float number)).toList = text := by
    rw [toList_render]
    decide +kernel
  have reads := render_float directive number applies
  rw [if_pos (by decide), shown] at reads
  obtain
    ⟨body, _, value, holds, _, _, denotes, _, signed, _, scientific, _, _⟩ :=
    reads
  exact
    ⟨applies, shown, body, value, holds, denotes, signed,
      scientific (Or.inl rfl)⟩

end CaptureFormat.Standard
