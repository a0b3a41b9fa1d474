import CaptureFormat.Proofs.Rendering.Items
import CaptureFormat.Proofs.Text.Quoted

namespace CaptureFormat

/-!
# Precision of text

A precision of text cuts first: what is rendered is the shorter text, as if
there were no precision.  Text is cut to characters and a dump to bytes.  Quoted
bytes are cut to their pieces, of which a character is one, so no character is
ever cut in two.
-/

namespace Directive

/-- The same directive without a precision. -/
def withoutPrecision (directive : Directive) : Directive :=
  { directive with precision := none }

theorem truncate_of_precision
    {directive : Directive}
    {count : Nat}
    (hasPrecision : directive.precision = some count)
    (items : List α) :
    directive.truncate items = items.take count := by
  rw [truncate, hasPrecision]

end Directive

namespace Conversion

variable {directive : Directive}

theorem text?_withoutPrecision
    (cuts :
      directive.verb = 's' ∨ directive.verb = 'q' ∨
        directive.verb = 'v' ∧ directive.flags.source = false)
    (text : List Char) :
    text? directive text =
      text? directive.withoutPrecision (directive.truncate text) := by
  have sameVerb : directive.withoutPrecision.verb = directive.verb := rfl
  have sameSource :
      directive.withoutPrecision.flags.source = directive.flags.source :=
    rfl
  rcases cuts with verb | verb | ⟨verb, plain⟩
  · simp only [text?, sameVerb, verb]
    rfl
  · simp only [text?, sameVerb, verb]
    rfl
  · simp only [text?, sameVerb, sameSource, verb, plain]
    rfl

/-- Text and bytes are dumped alike, with the letters that the verb chooses. -/
theorem exists_hex
    {verb : Char}
    (dumps : verb = 'x' ∨ verb = 'X') :
    ∃ letters,
      ∀ directive : Directive,
        directive.verb = verb →
        (∀ text,
          text? directive text =
            some (hex letters directive (Utf8.encode text))) ∧
        ∀ bytes,
          bytes? directive bytes = some (hex letters directive bytes) := by
  rcases dumps with rfl | rfl
  · refine ⟨.lower, fun directive isX => ⟨fun text => ?_, fun bytes => ?_⟩⟩
    · simp only [text?, isX]
    · simp only [bytes?, isX]
  · refine ⟨.upper, fun directive isX => ⟨fun text => ?_, fun bytes => ?_⟩⟩
    · simp only [text?, isX]
    · simp only [bytes?, isX]

theorem quotedBytes_withoutPrecision
    {count : Nat}
    (hasPrecision : directive.precision = some count)
    (bytes : List UInt8) :
    quotedBytes directive bytes =
      quotedBytes directive.withoutPrecision (Utf8.front count bytes) := by
  simp only [quotedBytes, hasPrecision]
  rfl

end Conversion

namespace Standard

variable {directive other : Directive} {value otherValue : Value}

/-- Values that are rendered as equal items are rendered equally. -/
theorem render_congr
    {text : List Char}
    (shown : single? directive value = some text)
    (otherShown : single? other otherValue = some text) :
    render directive value = render other otherValue := by
  rw [render, render, renderText_of_single? shown,
    renderText_of_single? otherShown]

theorem exists_text?
    (applies : directive.verb ∈ ['v', 's', 'q', 'x', 'X'])
    (text : List Char) :
    ∃ shown, Conversion.text? directive text = some shown := by
  simp only [List.mem_cons, List.not_mem_nil, or_false] at applies
  rcases applies with verb | verb | verb | verb | verb
  · simp only [Conversion.text?, verb]
    split <;> exact ⟨_, rfl⟩
  all_goals
    simp only [Conversion.text?, verb]
    exact ⟨_, rfl⟩

/-- A text of which a precision keeps the front is rendered as that front. -/
theorem render_text_withoutPrecision
    (cuts :
      directive.verb = 's' ∨ directive.verb = 'q' ∨
        directive.verb = 'v' ∧ directive.flags.source = false)
    (content : String) :
    let kept := String.ofList (directive.truncate content.toList)
    render directive (.text content) =
        render directive.withoutPrecision (.text kept) ∧
      render directive (.error content) =
        render directive.withoutPrecision (.error kept) := by
  intro kept
  have applies : directive.verb ∈ ['v', 's', 'q', 'x', 'X'] := by
    rcases cuts with verb | verb | ⟨verb, _⟩ <;> simp [verb]
  obtain ⟨shown, isShown⟩ := exists_text? applies content.toList
  have keptShown :
      Conversion.text? directive.withoutPrecision kept.toList =
        some shown := by
    rw [← isShown, Conversion.text?_withoutPrecision cuts,
      String.toList_ofList]
  exact
    ⟨render_congr isShown keptShown, render_congr isShown keptShown⟩

/-- A dump of which a precision keeps the front is the dump of that front. -/
theorem render_hex_withoutPrecision
    (dumps : directive.verb = 'x' ∨ directive.verb = 'X') :
    (∀ content : String,
      let kept := directive.truncate (Utf8.encode content.toList)
      render directive (.text content) =
          render directive.withoutPrecision (.bytes kept) ∧
        render directive (.error content) =
          render directive.withoutPrecision (.bytes kept)) ∧
    ∀ bytes,
      render directive (.bytes bytes) =
        render directive.withoutPrecision
          (.bytes (directive.truncate bytes)) := by
  obtain ⟨letters, dump⟩ := Conversion.exists_hex dumps
  obtain ⟨ofText, ofBytes⟩ := dump directive rfl
  have ofKept :
      ∀ bytes,
        single? directive.withoutPrecision
            (.bytes (directive.truncate bytes)) =
          some (Conversion.hex letters directive bytes) :=
    fun _ => (dump directive.withoutPrecision rfl).2 _
  refine ⟨fun content => ?_, fun bytes => ?_⟩
  · have shown := ofText content.toList
    exact
      ⟨render_congr shown (ofKept _), render_congr shown (ofKept _)⟩
  · exact render_congr (ofBytes bytes) (ofKept bytes)

/-- Bytes are written as the text that can be read of them, cut to the precision. -/
theorem render_lossy_withoutPrecision
    (isS : directive.verb = 's')
    (bytes : List UInt8) :
    render directive (.bytes bytes) =
      render directive.withoutPrecision
        (.text (String.ofList
          (directive.truncate (Utf8.lossy bytes)))) := by
  have sameVerb : directive.withoutPrecision.verb = directive.verb := rfl
  apply render_congr
  · simp only [single?, Conversion.bytes?, isS]
    rfl
  · simp only [single?, Conversion.text?, sameVerb, isS,
      String.toList_ofList]
    rfl

/-- Quoted bytes of which a precision keeps the front are that front in quotes. -/
theorem render_quotedBytes_withoutPrecision
    (isQ : directive.verb = 'q')
    {count : Nat}
    (hasPrecision : directive.precision = some count)
    (bytes : List UInt8) :
    render directive (.bytes bytes) =
      render directive.withoutPrecision
        (.bytes (Utf8.front count bytes)) := by
  have sameVerb : directive.withoutPrecision.verb = directive.verb := rfl
  have shown :
      single? directive (.bytes bytes) =
        some (Conversion.quotedBytes directive bytes) := by
    simp only [single?, Conversion.bytes?, isQ]
  apply render_congr shown
  simp only [single?, Conversion.bytes?, sameVerb, isQ,
    Conversion.quotedBytes_withoutPrecision hasPrecision]

/--
A precision of text is a cut that comes first.

A directive with a precision renders text as the same directive without one
renders the first characters of it.  A dump is that of the first bytes, of a
text as well as of bytes, and bytes that are written as text are the first
characters that can be read of them.

Quoted bytes are cut to pieces: characters, and single bytes that belong to no
character.  Bytes split into pieces in one way only, what is kept are the first
ones whole, and what stands between the quotes is the beginning of what would
stand there for all bytes.
-/
theorem render_precision
    (directive : Directive)
    {count : Nat}
    (hasPrecision : directive.precision = some count) :
    let free := { directive with precision := none }
    (directive.verb = 's' ∨ directive.verb = 'q' ∨
        directive.verb = 'v' ∧ directive.flags.source = false →
      ∀ content : String,
        let kept := String.ofList (content.toList.take count)
        render directive (.text content) = render free (.text kept) ∧
          render directive (.error content) = render free (.error kept)) ∧
    (directive.verb = 'x' ∨ directive.verb = 'X' →
      (∀ content : String,
        let kept := (Utf8.encode content.toList).take count
        render directive (.text content) = render free (.bytes kept) ∧
          render directive (.error content) = render free (.bytes kept)) ∧
      ∀ bytes,
        render directive (.bytes bytes) =
          render free (.bytes (bytes.take count))) ∧
    (directive.verb = 's' →
      ∀ bytes,
        render directive (.bytes bytes) =
          render free
            (.text (String.ofList ((Utf8.lossy bytes).take count)))) ∧
    (directive.verb = 'q' →
      ∀ bytes,
        ∃ units,
          (Utf8.Splits bytes units ∧
            ∀ others, Utf8.Splits bytes others → others = units) ∧
          ∃ kept,
            render directive (.bytes bytes) = render free (.bytes kept) ∧
              Utf8.Splits kept (units.take count) ∧
              (units.take count).length = min count units.length ∧
              kept <+: bytes ∧
              ∀ asciiOnly,
                Quoted.interior (Quoted.bytes asciiOnly kept) <+:
                  Quoted.interior (Quoted.bytes asciiOnly bytes)) := by
  intro free
  have cut :
      ∀ {α : Type} (items : List α),
        directive.truncate items = items.take count :=
    fun items => Directive.truncate_of_precision hasPrecision items
  refine
    ⟨fun cuts content => ?_, fun dumps => ?_, fun isS bytes => ?_,
      fun isQ bytes => ?_⟩
  · rw [← cut]
    exact render_text_withoutPrecision cuts content
  · simp only [← cut]
    exact render_hex_withoutPrecision dumps
  · rw [← cut]
    exact render_lossy_withoutPrecision isS bytes
  · have kept :
        Utf8.Splits (Utf8.front count bytes)
          ((Utf8.pieces bytes).take count) := by
      rw [← Utf8.pieces_front]
      exact Utf8.splits_pieces _
    exact
      ⟨Utf8.pieces bytes,
        ⟨Utf8.splits_pieces bytes, fun _ splits => splits.eq_pieces⟩,
        Utf8.front count bytes,
        render_quotedBytes_withoutPrecision isQ hasPrecision bytes, kept,
        List.length_take, Utf8.front_prefix count bytes,
        fun asciiOnly =>
          Quoted.interior_front_prefix asciiOnly count bytes⟩

/-- Quoted bytes that are cut inside a faulty run. -/
theorem render_precision_faulty :
    let directive : Directive := { verb := 'q', precision := some 2 }
    let bytes : List UInt8 := [0xF0, 0x9F, 0x98, 0x61]
    directive.precision = some 2 ∧
      ∃ units kept,
        Utf8.Splits bytes units ∧
          render directive (.bytes bytes) =
            render { directive with precision := none } (.bytes kept) ∧
          Utf8.Splits kept (units.take 2) := by
  intro directive bytes
  have hasPrecision : directive.precision = some 2 := rfl
  obtain ⟨_, _, _, quoted⟩ := render_precision directive hasPrecision
  obtain ⟨units, ⟨splits, _⟩, kept, shown, splitsKept, _⟩ :=
    quoted rfl bytes
  exact ⟨hasPrecision, units, kept, splits, shown, splitsKept⟩

end Standard

end CaptureFormat
