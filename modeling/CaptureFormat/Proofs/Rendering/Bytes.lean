import CaptureFormat.Proofs.Rendering.Precision

namespace CaptureFormat

/-!
# Bytes and what they stand for

Where a verb applies to bytes as a whole, the bytes of a text are rendered as
the text.  Where it does not, bytes are rendered as the list of their numbers,
with the markers that its items have.
-/

namespace Conversion

variable {directive : Directive}

/-- The bytes of a text are cut where the text is. -/
theorem quotedBytes_encode (text : List Char) :
    quotedBytes directive (Utf8.encode text) =
      directive.pad
        (Quoted.text directive.flags.plus (directive.truncate text)) := by
  rw [← Quoted.bytes_encode, quotedBytes, Directive.truncate]
  cases directive.precision with
  | none =>
      rfl
  | some count =>
      simp only [Utf8.front_encode]

/-- The bytes of a text are converted as the text, except that raw quotes are for text only. -/
theorem bytes?_encode
    (asText :
      directive.verb = 's' ∨ directive.verb = 'x' ∨ directive.verb = 'X' ∨
        directive.verb = 'q' ∧ directive.flags.sharp = false)
    (text : List Char) :
    bytes? directive (Utf8.encode text) = text? directive text := by
  rcases asText with verb | verb | verb | ⟨verb, notRaw⟩
  · simp only [bytes?, text?, verb, Utf8.lossy_encode]
  · simp only [bytes?, text?, verb]
  · simp only [bytes?, text?, verb]
  · simp only [bytes?, text?, verb, quotedBytes_encode, quoted, notRaw,
      Bool.false_and]
    rfl

/-- Any other verb does not apply to bytes as a whole. -/
theorem bytes?_eq_none
    (notWhole : directive.verb ∉ ['s', 'q', 'x', 'X'])
    (notSource : ¬(directive.verb = 'v' ∧ directive.flags.source = true))
    (bytes : List UInt8) :
    bytes? directive bytes = none := by
  simp only [List.mem_cons, List.not_mem_nil, or_false, not_or] at notWhole
  obtain ⟨notS, notQ, notLower, notUpper⟩ := notWhole
  unfold bytes?
  split
  · next isS => exact absurd isS notS
  · next isQ => exact absurd isQ notQ
  · next isX => exact absurd isX notLower
  · next isX => exact absurd isX notUpper
  · next isV => exact if_neg fun source => notSource ⟨isV, source⟩
  · rfl

end Conversion

namespace Standard

/-- The numbers that bytes are. -/
def numbers (bytes : List UInt8) : List Value :=
  bytes.map fun byte => .uint byte.toUInt64

theorem renderEach_numbers
    (mark : Value → List Char)
    (directive : Directive)
    (bytes : List UInt8) :
    renderEach mark directive (numbers bytes) =
      bytes.map fun byte => item mark directive (.uint byte.toUInt64) := by
  induction bytes with
  | nil =>
      rw [numbers, List.map_nil, renderEach]
      rfl
  | cons byte rest inductionHypothesis =>
      change
        renderEach mark directive
          (.uint byte.toUInt64 :: numbers rest) = _
      rw [renderEach, inductionHypothesis, renderUsing]
      · rfl
      all_goals simp

/--
Bytes agree with what they stand for.

The bytes of a text are rendered as the text, under every verb that applies to
both and with every flag, width, and precision; only the raw quotes of the
alternate form are for text alone.  Under a verb that does not apply to bytes
as a whole they are rendered as the list of their numbers, in every form of it:
the numbers, or markers in their places.
-/
theorem render_bytes (directive : Directive) :
    (directive.verb = 's' ∨ directive.verb = 'x' ∨ directive.verb = 'X' ∨
        directive.verb = 'q' ∧ directive.flags.sharp = false →
      ∀ content : String,
        render directive (.bytes (Utf8.encode content.toList)) =
          render directive (.text content)) ∧
    (directive.verb ∉ ['s', 'q', 'x', 'X', 'T'] →
      ¬(directive.verb = 'v' ∧ directive.flags.source = true) →
      ∀ bytes,
        render directive (.bytes bytes) =
          render directive
            (.list (bytes.map fun byte => .uint byte.toUInt64))) := by
  refine ⟨fun asText content => ?_, fun notWhole notSource bytes => ?_⟩
  · have applies : directive.verb ∈ ['v', 's', 'q', 'x', 'X'] := by
      rcases asText with verb | verb | verb | ⟨verb, _⟩ <;> simp [verb]
    obtain ⟨shown, isShown⟩ := exists_text? applies content.toList
    have textShown : single? directive (.text content) = some shown :=
      isShown
    apply render_congr _ textShown
    rw [single?, Conversion.bytes?_encode asText, isShown]
  · have notType : directive.verb ≠ typeVerb := by
      rintro isType
      simp [isType, typeVerb] at notWhole
    have notOne : directive.verb ∉ ['s', 'q', 'x', 'X'] := by
      rintro isOne
      exact notWhole (List.mem_append_left ['T'] isOne)
    have notSingle : single? directive (.bytes bytes) = none :=
      Conversion.bytes?_eq_none notOne notSource bytes
    rw [render, render, renderText, renderText, renderUsing, renderUsing,
      if_neg notType, if_neg notType, notSingle, Option.getD_none]
    exact congrArg _ (congrArg _ (renderEach_numbers _ _ _).symm)

/-- The bytes of a quoted text, and bytes under a verb that applies to no number. -/
theorem render_bytes_quotes :
    let quote : Directive := { verb := 'q', width := some 4 }
    let truth : Directive := { verb := 't', width := some 4 }
    (quote.verb = 's' ∨ quote.verb = 'x' ∨ quote.verb = 'X' ∨
        quote.verb = 'q' ∧ quote.flags.sharp = false) ∧
      truth.verb ∉ ['s', 'q', 'x', 'X', 'T'] ∧
      ¬(truth.verb = 'v' ∧ truth.flags.source = true) ∧
      render quote (.bytes (Utf8.encode ['é'])) =
        render quote (.text "é") ∧
      render truth (.bytes [0xC3, 0]) =
        render truth (.list [.uint 0xC3, .uint 0]) := by
  intro quote truth
  have asText :
      quote.verb = 's' ∨ quote.verb = 'x' ∨ quote.verb = 'X' ∨
        quote.verb = 'q' ∧ quote.flags.sharp = false := by
    decide
  have notWhole : truth.verb ∉ ['s', 'q', 'x', 'X', 'T'] := by
    decide
  have notSource : ¬(truth.verb = 'v' ∧ truth.flags.source = true) := by
    decide
  exact
    ⟨asText, notWhole, notSource, (render_bytes quote).1 asText "é",
      (render_bytes truth).2 notWhole notSource [0xC3, 0]⟩

end Standard

end CaptureFormat
