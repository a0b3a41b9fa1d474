import CaptureFormat.Proofs.Conversion.Field
import CaptureFormat.Proofs.Decimal.Fixed

namespace CaptureFormat

/-!
# Floating-point numbers in their field

A verb writes the magnitude of a finite number as a body that denotes it, up to
rounding.  The alternate form has no part in what the body denotes, and neither
has the field, with spaces around a sign and a body or zeros between them.  A
number that is not finite is a word between spaces.
-/

/-- A sign and a body in a field: spaces around them, or zeros between them. -/
structure Directive.Holds
    (directive : Directive)
    (sign body text : List Char) : Prop where
  shape :
    ∃ left zeros right,
      text =
          List.replicate left ' ' ++ sign ++ List.replicate zeros '0' ++
            body ++ List.replicate right ' ' ∧
        (0 < zeros ↔
          directive.flags.zero = true ∧
            (sign ++ body).length < directive.width.getD 0) ∧
        (0 < zeros → left = 0 ∧ right = 0)
  length :
    text.length = max (directive.width.getD 0) (sign ++ body).length

/-- A text is a body that denotes a number. -/
structure DecimalText.Denotes (text : List Char) (value : ℚ) : Prop where
  nonempty : text ≠ []
  reads : value? text = some value

theorem DecimalText.ne_nil_of_whole
    {text : List Char}
    (nonempty : whole text ≠ []) :
    text ≠ [] := by
  rintro rfl
  exact nonempty rfl

namespace DecimalText.Denotes

variable
  {body : List Char}
  {value : ℚ}

/-- Zeros in front of a body do not change what it denotes. -/
theorem zeros_append
    (denotes : Denotes body value)
    (count : Nat) :
    Denotes (List.replicate count '0' ++ body) value where
  nonempty := List.append_ne_nil_of_right_ne_nil _ denotes.nonempty
  reads := by
    rw [value?_zeros_append]
    exact denotes.reads

theorem space_notMem (denotes : Denotes body value) :
    ' ' ∉ body :=
  space_notMem_of_value? (Option.isSome_of_eq_some denotes.reads)

/-- A body reads back behind a sign, whatever spaces stand around them. -/
theorem signedValue?_padWith
    (denotes : Denotes body value)
    (directive : Directive)
    (negative : Bool) :
    signedValue?
        (trimSpaces
          (directive.padWith ' ' (directive.sign negative ++ body))) =
      some (if negative then -value else value) := by
  have trimmed :
      trimSpaces
          (directive.padWith ' ' (directive.sign negative ++ body)) =
        directive.shownSign negative ++ body := by
    apply directive.trimSpaces_padWith_sign denotes.nonempty
    · exact fun isFirst =>
        denotes.space_notMem (List.mem_of_head? isFirst)
    · exact fun isLast =>
        denotes.space_notMem (List.mem_of_getLast? isLast)
  obtain ⟨minus, plus, bare⟩ := signedValue?_append denotes.reads
  rw [trimmed, Directive.shownSign]
  cases negative with
  | true =>
      exact minus
  | false =>
      cases directive.flags.plus with
      | true =>
          exact plus
      | false =>
          exact bare

end DecimalText.Denotes

namespace Conversion

open DecimalText (Denotes)

section

variable (directive : Directive) (negative : Bool)

theorem signed_of_no_width
    (noWidth : directive.width = none)
    (body : List Char) :
    signed directive negative body = directive.sign negative ++ body := by
  simp [signed, Directive.padWith, noWidth]

/-- A number with a sign fills its field with zeros or with spaces, never with both. -/
theorem holds_signed (body : List Char) :
    directive.Holds (directive.sign negative) body
      (signed directive negative body) := by
  have length :
      (directive.sign negative ++ body).length =
        (directive.sign negative).length + body.length :=
    List.length_append
  unfold signed
  simp only []
  split
  · next zeros =>
      let missing :=
        directive.width.getD 0 -
          ((directive.sign negative).length + body.length)
      refine ⟨⟨0, missing, 0, ?_, ?_, fun _ => ⟨rfl, rfl⟩⟩, ?_⟩
      · rw [List.replicate_zero, List.nil_append, List.append_nil]
      · rw [length]
        exact ⟨fun _ => zeros, fun _ => Nat.sub_pos_of_lt zeros.2⟩
      · simp only [List.length_append, List.length_replicate]
        omega
  · next noZeros =>
      obtain ⟨left, right, padded⟩ :=
        directive.padWith_space_surrounds (directive.sign negative ++ body)
      refine ⟨⟨left, 0, right, ?_, ?_, fun zeros => ?_⟩, ?_⟩
      · rw [padded, List.replicate_zero, List.append_nil, ← List.append_assoc]
      · rw [length]
        exact
          ⟨fun zeros => absurd zeros (Nat.lt_irrefl 0),
            fun zeros => absurd zeros noZeros⟩
      · exact absurd zeros (Nat.lt_irrefl 0)
      · rw [Directive.padWith_eq, Directive.gap]
        split <;>
          simp only [List.length_append, List.length_replicate] <;>
          omega

/-- The field of a number has no part in its value. -/
theorem signedValue?_signed
    {body : List Char}
    {value : ℚ}
    (denotes : Denotes body value) :
    DecimalText.signedValue? (trimSpaces (signed directive negative body)) =
      some (if negative then -value else value) := by
  unfold signed
  simp only []
  split
  · next zeros =>
      -- zeros take the place of the spaces, so there is no padding around them
      let unpadded : Directive := { directive with width := none }
      rw [List.append_assoc]
      exact
        (denotes.zeros_append _).signedValue?_padWith unpadded negative
  · exact denotes.signedValue?_padWith directive negative

end

section

variable
  (precision : Option Nat)
  (number : Binary64)

theorem value?_generalDigits (keepZeros : Bool) :
    (generalDigits precision keepZeros number).value? =
      (generalDigits precision false number).value? := by
  cases precision with
  | none =>
      rfl
  | some count =>
      cases keepZeros with
      | false =>
          rfl
      | true =>
          exact (Significand.value?_trimmed _).symm

/-- The general layout denotes a number, with zeros kept at its end or without them. -/
theorem exists_denotes_general
    {letter : Char}
    (isLetter : DecimalText.isExponentLetter letter = true) :
    ∃ value,
      ∀ alternate,
        Denotes (general letter precision alternate number) value := by
  have writes (alternate : Bool) :=
    writesGeneral_generalDigits precision number isLetter alternate
  obtain ⟨value, isValue, _⟩ := (writes false).denotes
  refine ⟨value, fun alternate => ⟨fun empty => ?_, ?_⟩⟩
  · have digits :=
      (normalized_generalDigits precision alternate number).nonempty
    obtain ⟨before, after, row⟩ := (writes alternate).row
    rw [empty] at row
    have none := List.append_eq_nil_iff.mp row.symm
    exact digits (List.append_eq_nil_iff.mp none.1).2
  · obtain ⟨written, isWritten, reads⟩ := (writes alternate).denotes
    rw [value?_generalDigits, isValue, Option.some_inj] at isWritten
    rwa [isWritten]

end

section

variable
  (directive : Directive)
  (number : Binary64)

/-- The scientific verbs round to so many decimals behind the first digit. -/
theorem writesScientific_scientific
    {letter : Char}
    (isLetter : DecimalText.isExponentLetter letter = true) :
    WritesScientific number.absolute letter (directive.precision.getD 6)
      (scientific letter directive number) := by
  rw [← Decimal.value_magnitude]
  exact
    Significand.writesScientific_scientific directive.flags.sharp
      (directive.precision.getD 6) (Decimal.magnitude number) isLetter

/-- The positional verbs round to so many decimals. -/
theorem writesPositional_positional :
    WritesPositional number.absolute (directive.precision.getD 6)
      (positional directive number) := by
  have small : (Decimal.magnitude number).exponent ≤ 0 := by
    unfold Decimal.magnitude
    split
    · exact Int.le_refl 0
    · next fractional =>
        exact (Int.not_le.mp fractional).le
  rw [← Decimal.value_magnitude]
  exact
    Significand.writesPositional_positional directive.flags.sharp
      (directive.precision.getD 6) (Decimal.magnitude number) small

/-- Scientific layout denotes the same number in every form. -/
theorem exists_denotes_scientific
    {letter : Char}
    (isLetter : DecimalText.isExponentLetter letter = true) :
    ∃ value,
      ∀ other : Directive,
        other.precision = directive.precision →
        Denotes (scientific letter other number) value := by
  have writes := writesScientific_scientific directive number isLetter
  obtain ⟨value, reads, _⟩ := writes.denotes
  refine ⟨value, fun other samePrecision => ?_⟩
  have again := writesScientific_scientific other number isLetter
  rw [samePrecision] at again
  refine ⟨DecimalText.ne_nil_of_whole fun none => ?_, ?_⟩
  · have length := again.whole
    rw [none] at length
    cases length
  · rw [again.denotes.value?_eq writes.denotes, reads]

/-- Positional layout denotes the same number in every form. -/
theorem exists_denotes_positional :
    ∃ value,
      ∀ other : Directive,
        other.precision = directive.precision →
        Denotes (positional other number) value := by
  have writes := writesPositional_positional directive number
  obtain ⟨value, reads, _⟩ := writes.denotes
  refine ⟨value, fun other samePrecision => ?_⟩
  have again := writesPositional_positional other number
  rw [samePrecision] at again
  refine ⟨DecimalText.ne_nil_of_whole again.whole, ?_⟩
  rw [again.denotes.value?_eq writes.denotes, reads]

theorem magnitude?_scientific
    (isScientific : directive.verb = 'e' ∨ directive.verb = 'E') :
    DecimalText.isExponentLetter directive.verb = true ∧
      magnitude? directive number =
        some (scientific directive.verb directive number) := by
  rcases isScientific with verb | verb <;> simp only [magnitude?, verb]
  · exact ⟨rfl, trivial⟩
  · exact ⟨rfl, trivial⟩

theorem magnitude?_positional
    (isPositional : directive.verb = 'f' ∨ directive.verb = 'F') :
    magnitude? directive number = some (positional directive number) := by
  rcases isPositional with verb | verb <;> simp only [magnitude?, verb]

/-- A general verb decides on the letter of an exponent and whether precision counts. -/
theorem exists_magnitude?_general
    (isGeneral :
      directive.verb = 'g' ∨ directive.verb = 'G' ∨ directive.verb = 'v') :
    ∃ letter precision,
      DecimalText.isExponentLetter letter = true ∧
        ∀ other : Directive,
          other.verb = directive.verb →
          other.precision = directive.precision →
          ∃ alternate,
            magnitude? other number =
              some (general letter precision alternate number) := by
  rcases isGeneral with verb | verb | verb
  · refine ⟨'e', directive.precision, rfl, fun other sameVerb same => ?_⟩
    refine ⟨other.flags.sharp, ?_⟩
    simp only [magnitude?, sameVerb, verb, same]
  · refine ⟨'E', directive.precision, rfl, fun other sameVerb same => ?_⟩
    refine ⟨other.flags.sharp, ?_⟩
    simp only [magnitude?, sameVerb, verb, same]
  · refine ⟨'e', none, rfl, fun other sameVerb _ => ⟨false, ?_⟩⟩
    simp only [magnitude?, sameVerb, verb]

/-- What a verb writes denotes the same number in every form. -/
theorem exists_denotes_magnitude?
    (applies : directive.verb ∈ ['e', 'E', 'f', 'F', 'g', 'G', 'v']) :
    ∃ value,
      ∀ other : Directive,
        other.verb = directive.verb →
        other.precision = directive.precision →
        ∃ body,
          magnitude? other number = some body ∧ Denotes body value := by
  have kinds :
      (directive.verb = 'e' ∨ directive.verb = 'E') ∨
        (directive.verb = 'f' ∨ directive.verb = 'F') ∨
        directive.verb = 'g' ∨ directive.verb = 'G' ∨
          directive.verb = 'v' := by
    simpa [or_assoc] using applies
  rcases kinds with isScientific | isPositional | isGeneral
  · have isLetter := (magnitude?_scientific directive number isScientific).1
    obtain ⟨value, denotes⟩ :=
      exists_denotes_scientific directive number isLetter
    refine ⟨value, fun other sameVerb same => ⟨_, ?_, denotes other same⟩⟩
    rw [← sameVerb] at isScientific ⊢
    exact (magnitude?_scientific other number isScientific).2
  · obtain ⟨value, denotes⟩ := exists_denotes_positional directive number
    refine ⟨value, fun other sameVerb same => ⟨_, ?_, denotes other same⟩⟩
    rw [← sameVerb] at isPositional
    exact magnitude?_positional other number isPositional
  · obtain ⟨letter, precision, isLetter, isGeneral⟩ :=
      exists_magnitude?_general directive number isGeneral
    obtain ⟨value, denotes⟩ :=
      exists_denotes_general precision number isLetter
    refine ⟨value, fun other sameVerb same => ?_⟩
    obtain ⟨alternate, shown⟩ := isGeneral other sameVerb same
    exact ⟨_, shown, denotes alternate⟩

/-- The alternate form of the verbs that write so many decimals adds a point at most. -/
theorem addsPoint_magnitude?
    (isFixed : directive.verb ∈ ['e', 'E', 'f', 'F'])
    {body bare : List Char}
    (shown : magnitude? directive number = some body)
    (other : Directive)
    (sameVerb : other.verb = directive.verb)
    (samePrecision : other.precision = directive.precision)
    (notSharp : other.flags.sharp = false)
    (shownBare : magnitude? other number = some bare) :
    AddsPoint body bare ∧ (directive.flags.sharp = false → body = bare) := by
  have kinds :
      (directive.verb = 'e' ∨ directive.verb = 'E') ∨
        directive.verb = 'f' ∨ directive.verb = 'F' := by
    simpa [or_assoc] using isFixed
  rcases kinds with isScientific | isPositional
  · rw [(magnitude?_scientific directive number isScientific).2] at shown
    rw [← sameVerb] at isScientific
    rw [(magnitude?_scientific other number isScientific).2] at shownBare
    cases shown
    cases shownBare
    rw [scientific, scientific, samePrecision, notSharp, sameVerb]
    exact Significand.addsPoint_keepPoint _ _
  · rw [magnitude?_positional directive number isPositional] at shown
    rw [← sameVerb] at isPositional
    rw [magnitude?_positional other number isPositional] at shownBare
    cases shown
    cases shownBare
    rw [positional, positional, samePrecision, notSharp]
    exact Significand.addsPoint_keepPoint _ _

/-- The word for a number that is not finite, without a space in place of a sign. -/
def nonfiniteWord : List Char :=
  if number.isNaN then
    if directive.flags.plus then ['+', 'N', 'a', 'N'] else ['N', 'a', 'N']
  else if number.isNegative then
    ['-', 'I', 'n', 'f']
  else if directive.flags.space && !directive.flags.plus then
    ['I', 'n', 'f']
  else
    ['+', 'I', 'n', 'f']

theorem exists_nonfinite_eq :
    ∃ spaces,
      nonfinite directive number =
        List.replicate spaces ' ' ++ nonfiniteWord directive number := by
  unfold nonfinite nonfiniteWord
  split
  · unfold Directive.sign
    cases directive.flags.plus with
    | true =>
        exact ⟨0, rfl⟩
    | false =>
        cases directive.flags.space with
        | true =>
            exact ⟨1, rfl⟩
        | false =>
            exact ⟨0, rfl⟩
  · split
    · exact ⟨0, rfl⟩
    · split
      · exact ⟨1, rfl⟩
      · exact ⟨0, rfl⟩

/-- The words for numbers that are not finite. -/
def nonfiniteWords : List (List Char) :=
  ["NaN".toList, "+NaN".toList, "+Inf".toList, "-Inf".toList, "Inf".toList]

theorem nonfiniteWord_mem :
    nonfiniteWord directive number ∈ nonfiniteWords := by
  unfold nonfiniteWord
  split
  · split <;> decide
  · split
    · decide
    · split <;> decide

/-- The word for a number that is not finite stands between spaces. -/
theorem padWith_nonfinite :
    trimSpaces (directive.padWith ' ' (nonfinite directive number)) =
        nonfiniteWord directive number ∧
      ∃ left right,
        directive.padWith ' ' (nonfinite directive number) =
          List.replicate left ' ' ++ nonfiniteWord directive number ++
            List.replicate right ' ' := by
  obtain ⟨spaces, isWord⟩ := exists_nonfinite_eq directive number
  obtain ⟨left, right, padded⟩ :=
    directive.padWith_space_surrounds (nonfinite directive number)
  have shape :
      directive.padWith ' ' (nonfinite directive number) =
        List.replicate (left + spaces) ' ' ++
          nonfiniteWord directive number ++ List.replicate right ' ' := by
    rw [padded, isWord, List.replicate_add]
    simp only [List.append_assoc]
  have plain :
      ∀ word ∈ nonfiniteWords,
        word ≠ [] ∧ word.head? ≠ some ' ' ∧ word.getLast? ≠ some ' ' := by
    decide
  obtain ⟨nonempty, first, last⟩ :=
    plain _ (nonfiniteWord_mem directive number)
  refine ⟨?_, left + spaces, right, shape⟩
  rw [shape]
  exact trimSpaces_surrounded nonempty first last (left + spaces) right

end

end Conversion

end CaptureFormat
