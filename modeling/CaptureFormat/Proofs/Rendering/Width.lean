import CaptureFormat.Proofs.Conversion.CodePoint
import CaptureFormat.Proofs.Conversion.Real
import CaptureFormat.Proofs.Rendering.Integers

namespace CaptureFormat

/-!
# Width

A width adds spaces on one side of an item that is shorter, and nothing else.
With zeros in place of the spaces it reaches into the item, where they stand
behind a sign and a mark; then it still is the least length.

`Fills` compares an item with the same one without a width.  It holds of each
conversion by itself, whichever of them measures its text.
-/

namespace Directive

/-- The same directive without a width. -/
def withoutWidth (directive : Directive) : Directive :=
  { directive with width := none }

/-- A text is another one in a field of the directive's width. -/
structure FillsWidth
    (directive : Directive)
    (text plain : List Char) : Prop where
  padded :
    directive.flags.zero = false → text = directive.padWith ' ' plain
  wide : directive.width.getD 0 ≤ text.length

/-- An item is the same item without a width, in a field of that width. -/
def Fills
    (directive : Directive)
    (item? : Directive → Option (List Char)) : Prop :=
  ∃ text plain,
    item? directive = some text ∧
      item? directive.withoutWidth = some plain ∧
      directive.FillsWidth text plain

namespace FillsWidth

variable {directive : Directive}

/-- Padding fills the width, if the text inside has no zeros for it. -/
theorem of_padWith
    {text plain : List Char}
    (same : directive.flags.zero = false → text = plain) :
    directive.FillsWidth (directive.padWith ' ' text) plain where
  padded noZero := by rw [same noZero]
  wide := directive.width_le_length_padWith ' ' text

theorem padWith_space (text : List Char) :
    directive.FillsWidth
      (directive.padWith ' ' text)
      (directive.withoutWidth.padWith ' ' text) :=
  of_padWith fun _ => rfl

theorem pad (text : List Char) :
    directive.FillsWidth
      (directive.pad text)
      (directive.withoutWidth.pad text) where
  padded noZero := by
    rw [Directive.pad, noZero]
    rfl
  wide := directive.width_le_length_padWith _ text

theorem blank :
    directive.FillsWidth directive.blank directive.withoutWidth.blank where
  padded _ := by
    rw [padWith_eq]
    simp [Directive.blank, gap, withoutWidth]
  wide := by
    simp [Directive.blank]

end FillsWidth

/--
A conversion that is chosen by the verb and the flags is chosen without a
width as well.
-/
theorem Fills.of_shown
    {directive : Directive}
    {item? : Directive → Option (List Char)}
    (item : Directive → List Char)
    (shown :
      ∀ other : Directive,
        other.verb = directive.verb →
        other.flags = directive.flags →
        item? other = some (item other))
    (fills :
      directive.FillsWidth (item directive) (item directive.withoutWidth)) :
    directive.Fills item? :=
  ⟨_, _, shown directive rfl rfl, shown directive.withoutWidth rfl rfl, fills⟩

end Directive

namespace Conversion

open Directive (FillsWidth)

variable (directive : Directive)

theorem fillsWidth_inRadix (radix : Radix) (number : Int) :
    directive.FillsWidth
      (inRadix radix directive number)
      (inRadix radix directive.withoutWidth number) := by
  by_cases left : directive.precision = some 0 ∧ number = 0
  · have plainLeft :
        directive.withoutWidth.precision = some 0 ∧ number = 0 :=
      left
    rw [IntegerForm.inRadix_of_left radix left,
      IntegerForm.inRadix_of_left radix plainLeft]
    exact .blank
  · have plainWritten :
        ¬(directive.withoutWidth.precision = some 0 ∧ number = 0) :=
      left
    rw [IntegerForm.inRadix_of_written radix left,
      IntegerForm.inRadix_of_written radix plainWritten]
    apply FillsWidth.of_padWith
    intro noZero
    have sameLeast :
        ∀ form : IntegerForm,
          form.leastDigits directive.withoutWidth =
            form.leastDigits directive := by
      intro form
      simp [IntegerForm.leastDigits, Directive.withoutWidth, noZero]
    simp only [IntegerForm.writtenDigits, IntegerForm.filledDigits,
      sameLeast]
    rfl

theorem fillsWidth_markedHex (number : Nat) :
    directive.FillsWidth
      (markedHex directive number)
      (markedHex directive.withoutWidth number) := by
  obtain ⟨padded, wide⟩ :=
    fillsWidth_inRadix { directive with flags.sharp := true }
      (.hexadecimal .lower) number
  exact ⟨padded, wide⟩

theorem fillsWidth_hex (letters : Numeral.LetterCase) (bytes : List UInt8) :
    directive.FillsWidth
      (hex letters directive bytes)
      (hex letters directive.withoutWidth bytes) := by
  have sameKept :
      directive.withoutWidth.truncate bytes = directive.truncate bytes :=
    rfl
  unfold hex
  rw [sameKept]
  cases directive.truncate bytes with
  | nil =>
      exact .blank
  | cons first rest =>
      exact .pad _

theorem fillsWidth_quoted (text : List Char) :
    directive.FillsWidth
      (quoted directive text)
      (quoted directive.withoutWidth text) := by
  have plain :
      quoted directive.withoutWidth text =
        if directive.flags.sharp &&
            Quoted.fitsRaw (directive.truncate text) then
          directive.withoutWidth.pad
            (Quoted.raw (directive.truncate text))
        else
          directive.withoutWidth.pad
            (Quoted.text directive.flags.plus (directive.truncate text)) :=
    rfl
  rw [plain, quoted]
  split <;> exact .pad _

/-- Zeros and a sign in front of a magnitude fill the width as spaces do. -/
theorem fillsWidth_signed (negative : Bool) (magnitude : List Char) :
    directive.FillsWidth
      (signed directive negative magnitude)
      (signed directive.withoutWidth negative magnitude) := by
  have plain :
      signed directive.withoutWidth negative magnitude =
        directive.sign negative ++ magnitude :=
    signed_of_no_width directive.withoutWidth negative rfl magnitude
  rw [plain, signed]
  split
  · next zeros =>
      refine ⟨fun noZero => ?_, ?_⟩
      · rw [noZero] at zeros
        cases zeros.1
      · simp only [List.length_append, List.length_replicate]
        omega
  · exact .of_padWith fun _ => rfl

end Conversion

namespace Standard

open Conversion (Radix)

/-- The verbs that apply to an integer. -/
def AppliesToInteger (verb : Char) (number : Int) : Prop :=
  verb ∈ ['v', 'd', 'b', 'o', 'O', 'x', 'X'] ∨
    verb = 'c' ∨
    verb = 'U' ∨
    verb = 'q' ∧ 0 ≤ number ∧ number ≤ 0x10FFFF

/-- The verbs that apply to a value as a single item in a field. -/
def AppliesAsOne (verb : Char) : Value → Prop
  | .nil => verb = 'v'
  | .bool _ => verb = 'v' ∨ verb = 't'
  | .int number => AppliesToInteger verb number.toInt
  | .uint number => AppliesToInteger verb number.toNat
  | .float _ => verb ∈ ['v', 'e', 'E', 'f', 'F', 'g', 'G']
  | .text _ => verb ∈ ['v', 's', 'q', 'x', 'X']
  | .error _ => verb ∈ ['v', 's', 'q', 'x', 'X']
  | .bytes _ => verb ∈ ['s', 'q', 'x', 'X']
  | .pointer _ => verb ∈ ['p', 'v', 'd', 'b', 'o', 'x', 'X']
  | .list _ => False

variable {directive : Directive}

theorem exists_radix_of_mem
    {verb : Char}
    (inRadix : verb ∈ ['v', 'd', 'b', 'o', 'O', 'x', 'X']) :
    ∃ radix, Radix.ofVerb? verb = some radix := by
  simp only [List.mem_cons, List.not_mem_nil, or_false] at inRadix
  rcases inRadix with rfl | rfl | rfl | rfl | rfl | rfl | rfl <;>
    exact ⟨_, rfl⟩

theorem fills_integer
    {number : Int}
    (applies : AppliesToInteger directive.verb number) :
    directive.Fills (Conversion.integer? · number) := by
  rcases applies with inRadix | isC | isU | ⟨isQ, low, high⟩
  · obtain ⟨radix, isRadix⟩ := exists_radix_of_mem inRadix
    refine .of_shown (Conversion.inRadix radix · number)
      (fun other verb _ => ?_) (Conversion.fillsWidth_inRadix _ _ _)
    exact IntegerForm.integer?_of_ofVerb? (verb ▸ isRadix) number
  · refine .of_shown (Conversion.character · number)
      (fun other verb _ => ?_) (.pad _)
    simp only [Conversion.integer?, verb, isC]
  · refine .of_shown (Conversion.unicode · number)
      (fun other verb _ => ?_) (.padWith_space _)
    simp only [Conversion.integer?, verb, isU]
  · refine .of_shown
      (fun other => other.pad
        (Quoted.character other.flags.plus (Conversion.scalar number)))
      (fun other verb _ => ?_) (.pad _)
    simp only [Conversion.integer?, verb, isQ,
      Conversion.quotedCharacter?_eq, if_pos (And.intro low high)]

theorem fills_unsigned
    {number : UInt64}
    (applies : AppliesToInteger directive.verb number.toNat) :
    directive.Fills (Conversion.unsigned? · number) := by
  by_cases inSource :
      directive.verb = 'v' ∧ directive.flags.source = true
  · refine .of_shown (Conversion.markedHex · number.toNat)
      (fun other verb flags => ?_)
      (Conversion.fillsWidth_markedHex _ _)
    rw [Conversion.unsigned?, verb, flags, if_pos inSource]
  · obtain ⟨text, plain, shown, shownPlain, fills⟩ :=
      fills_integer applies
    exact
      ⟨text, plain, (if_neg inSource).trans shown,
        (if_neg inSource).trans shownPlain, fills⟩

theorem fills_pointer
    {address : UInt64}
    (applies :
      directive.verb ∈ ['p', 'v', 'd', 'b', 'o', 'x', 'X']) :
    directive.Fills (Conversion.pointer? · address) := by
  simp only [List.mem_cons, List.not_mem_nil, or_false] at applies
  rcases applies with isP | isV | inRadix
  · cases sharp : directive.flags.sharp with
    | true =>
        refine .of_shown
          (fun other =>
            Conversion.inRadix (.hexadecimal .lower)
              { other with flags.sharp := false } address.toNat)
          (fun other verb flags => ?_) ?_
        · simp only [Conversion.pointer?, verb, isP, flags, sharp, if_true]
        · obtain ⟨padded, wide⟩ :=
            Conversion.fillsWidth_inRadix
              { directive with flags.sharp := false }
              (.hexadecimal .lower) address.toNat
          exact ⟨padded, wide⟩
    | false =>
        refine .of_shown (Conversion.markedHex · address.toNat)
          (fun other verb flags => ?_)
          (Conversion.fillsWidth_markedHex _ _)
        simp [Conversion.pointer?, verb, isP, flags, sharp]
  · by_cases none : address = 0
    · refine .of_shown (fun other => other.pad "<nil>".toList)
        (fun other verb _ => ?_) (.pad _)
      simp only [Conversion.pointer?, verb, isV, none, if_true]
    · refine .of_shown (Conversion.markedHex · address.toNat)
        (fun other verb _ => ?_) (Conversion.fillsWidth_markedHex _ _)
      simp only [Conversion.pointer?, verb, isV, none, if_false]
  · obtain ⟨radix, isRadix⟩ :
        ∃ radix, Radix.ofVerb? directive.verb = some radix := by
      apply exists_radix_of_mem
      simp only [List.mem_cons]
      tauto
    have notValue : directive.verb ≠ 'v' := by
      rintro isV
      simp [isV] at inRadix
    have notMarked : directive.verb ≠ 'O' := by
      rintro isO
      simp [isO] at inRadix
    refine .of_shown (Conversion.inRadix radix · address.toNat)
      (fun other verb _ => ?_) (Conversion.fillsWidth_inRadix _ _ _)
    exact
      IntegerForm.pointer?_of_ofVerb? (verb ▸ isRadix) (verb ▸ notValue)
        (verb ▸ notMarked) address

theorem fills_float
    {number : Binary64}
    (applies :
      directive.verb ∈ ['v', 'e', 'E', 'f', 'F', 'g', 'G']) :
    directive.Fills (Conversion.float? · number) := by
  obtain ⟨magnitude, isMagnitude⟩ :
      ∃ magnitude,
        Conversion.magnitude? directive number = some magnitude := by
    simp only [List.mem_cons, List.not_mem_nil, or_false] at applies
    rcases applies with h | h | h | h | h | h | h <;>
      simp [Conversion.magnitude?, h]
  have isPlain :
      Conversion.magnitude? directive.withoutWidth number =
        some magnitude :=
    isMagnitude
  by_cases finite : number.isFinite = true
  · refine
      ⟨_, _, ?_, ?_,
        Conversion.fillsWidth_signed directive number.isNegative magnitude⟩
    · simp [Conversion.float?, isMagnitude, finite]
    · simp [Conversion.float?, isPlain, finite]
  · refine ⟨_, _, ?_, ?_, .padWith_space (Conversion.nonfinite directive number)⟩
    · simp [Conversion.float?, isMagnitude, finite]
    · simp only [Conversion.float?, isPlain, finite]
      rfl

theorem fills_text
    {text : List Char}
    (applies : directive.verb ∈ ['v', 's', 'q', 'x', 'X']) :
    directive.Fills (Conversion.text? · text) := by
  simp only [List.mem_cons, List.not_mem_nil, or_false] at applies
  rcases applies with isV | isS | isQ | isX | isX
  · cases source : directive.flags.source with
    | true =>
        refine .of_shown (fun other => other.pad (Quoted.text false text))
          (fun other verb flags => ?_) (.pad _)
        simp only [Conversion.text?, verb, isV, flags, source, if_true]
    | false =>
        refine .of_shown (fun other => other.pad (other.truncate text))
          (fun other verb flags => ?_) (.pad _)
        simp [Conversion.text?, verb, isV, flags, source]
  · refine .of_shown (fun other => other.pad (other.truncate text))
      (fun other verb _ => ?_) (.pad _)
    simp only [Conversion.text?, verb, isS]
  · refine .of_shown (Conversion.quoted · text)
      (fun other verb _ => ?_) (Conversion.fillsWidth_quoted _ _)
    simp only [Conversion.text?, verb, isQ]
  · refine .of_shown (Conversion.hex .lower · (Utf8.encode text))
      (fun other verb _ => ?_) (Conversion.fillsWidth_hex _ _ _)
    simp only [Conversion.text?, verb, isX]
  · refine .of_shown (Conversion.hex .upper · (Utf8.encode text))
      (fun other verb _ => ?_) (Conversion.fillsWidth_hex _ _ _)
    simp only [Conversion.text?, verb, isX]

theorem fills_bytes
    {bytes : List UInt8}
    (applies : directive.verb ∈ ['s', 'q', 'x', 'X']) :
    directive.Fills (Conversion.bytes? · bytes) := by
  simp only [List.mem_cons, List.not_mem_nil, or_false] at applies
  rcases applies with isS | isQ | isX | isX
  · refine .of_shown
      (fun other => other.pad (other.truncate (Utf8.lossy bytes)))
      (fun other verb _ => ?_) (.pad _)
    simp only [Conversion.bytes?, verb, isS]
  · refine .of_shown (Conversion.quotedBytes · bytes)
      (fun other verb _ => ?_) (.pad _)
    simp only [Conversion.bytes?, verb, isQ]
  · refine .of_shown (Conversion.hex .lower · bytes)
      (fun other verb _ => ?_) (Conversion.fillsWidth_hex _ _ _)
    simp only [Conversion.bytes?, verb, isX]
  · refine .of_shown (Conversion.hex .upper · bytes)
      (fun other verb _ => ?_) (Conversion.fillsWidth_hex _ _ _)
    simp only [Conversion.bytes?, verb, isX]

/-- Each kind of value fills the width where the verb applies to it. -/
theorem fills_single
    {value : Value}
    (applies : AppliesAsOne directive.verb value) :
    directive.Fills (single? · value) := by
  cases value with
  | nil =>
      refine .of_shown (fun other => other.pad "<nil>".toList)
        (fun other verb _ => ?_) (.pad _)
      exact if_pos (verb.trans applies)
  | bool truth =>
      refine .of_shown
        (fun other =>
          other.pad (if truth then "true" else "false").toList)
        (fun other verb _ => ?_) (.pad _)
      exact if_pos (verb ▸ applies)
  | int number =>
      exact fills_integer applies
  | uint number =>
      exact fills_unsigned applies
  | float number =>
      exact fills_float applies
  | text content =>
      exact fills_text applies
  | error message =>
      exact fills_text applies
  | bytes content =>
      exact fills_bytes applies
  | pointer address =>
      exact fills_pointer applies
  | list items =>
      exact applies.elim

/--
A width only pads.

Where the verb applies to a value as one item, or asks for its type, a
directive without the zero flag renders what it renders without its width, and
as many spaces as that is short of it: on the left, or on the right with a
minus.  With or without the zero flag, and with a minus besides it, the text
has at least as many characters as the width says.
-/
theorem render_width
    (directive : Directive)
    (value : Value)
    {width : Nat}
    (hasWidth : directive.width = some width)
    (applies :
      directive.verb = typeVerb ∨ AppliesAsOne directive.verb value) :
    let plain := (render { directive with width := none } value).toList
    let spaces := List.replicate (width - plain.length) ' '
    (directive.flags.zero = false →
        (render directive value).toList =
          if directive.flags.minus then plain ++ spaces
          else spaces ++ plain) ∧
      width ≤ (render directive value).length := by
  intro plain spaces
  have fills :
      directive.FillsWidth (renderText directive value)
        (renderText directive.withoutWidth value) := by
    rcases applies with isType | asOne
    · have plainType : directive.withoutWidth.verb = typeVerb := isType
      rw [renderText_typeVerb isType, renderText_typeVerb plainType]
      exact .pad _
    · obtain ⟨text, plainText, shown, shownPlain, fills⟩ :=
        fills_single asOne
      rwa [renderText_of_single? shown, renderText_of_single? shownPlain]
  have isPlain : plain = renderText directive.withoutWidth value :=
    toList_render _ _
  refine ⟨fun noZero => ?_, ?_⟩
  · rw [toList_render, fills.padded noZero, Directive.padWith_eq, ← isPlain,
      Directive.gap, hasWidth]
    rfl
  · have wide := fills.wide
    rwa [hasWidth, ← toList_render, String.length_toList] at wide

/-- A text with characters of several bytes, padded on the right. -/
theorem render_width_multibyte :
    let directive : Directive :=
      { verb := 'q', flags := { minus := true }, width := some 8 }
    directive.width = some 8 ∧
      AppliesAsOne directive.verb (.text "ñé") ∧
      (render directive (.text "ñé")).toList =
        (render { directive with width := none } (.text "ñé")).toList ++
          List.replicate
            (8 - (render { directive with width := none }
              (.text "ñé")).toList.length) ' ' := by
  intro directive
  have applies : AppliesAsOne directive.verb (.text "ñé") := by
    simp [AppliesAsOne, directive]
  obtain ⟨padded, _⟩ :=
    render_width directive (.text "ñé") rfl (Or.inr applies)
  exact ⟨rfl, applies, padded rfl⟩

end Standard

end CaptureFormat
