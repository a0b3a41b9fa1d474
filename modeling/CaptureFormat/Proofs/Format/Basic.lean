import CaptureFormat.Format
import CaptureFormat.Proofs.Formatter.Chunks

namespace CaptureFormat

/-!
# Formatting as writing chunks

Both ways of formatting write the chunks of the template, one for each event.
A text in memory takes them all.  What a byte writer makes of them is its own
affair, and it has no part in the arguments that are handed back and in what
an observer is told.
-/

/-- A text in memory takes any texts one after the other. -/
theorem accepts_text
    (start : String)
    (texts : List String) :
    Accepts start (texts.map Write.text) (start ++ String.join texts) := by
  induction texts generalizing start with
  | nil =>
      simpa using Accepts.nil start
  | cons text rest inductionHypothesis =>
      have later := inductionHypothesis (start ++ text)
      rw [String.append_assoc] at later
      rw [String.join_cons]
      exact .cons rfl later

section

variable
  (observer : Observer κ Value)
  (observed : κ)
  (template : String)
  (values : List Value)

/-- Working a template off into a text never fails and leaves its chunks. -/
theorem output_run_text :
    ((Formatter.standard observer).run template values observed
        (Output.ofDestination "")).output =
      ⟨String.join ((Formatter.standard observer).chunks template values),
        (bytesOf ((Formatter.standard observer).chunks template values)).length,
        none⟩ := by
  have accepts :=
    accepts_text ""
      ((Formatter.standard observer).chunks template values)
  rw [String.empty_append] at accepts
  rw [Formatter.output_run_eq_writeEach, Output.ofDestination,
    Output.writeEach_of_accepts accepts, flatMap_payload_text, Nat.zero_add]

/-- Formatted text holds the chunks of the template and nothing else. -/
theorem format_eq :
    format observer observed template values =
      { text :=
          String.join ((Formatter.standard observer).chunks template values)
        rest :=
          values.drop ((Formatter.standard observer).taken template values)
        observed :=
          ((Formatter.standard observer).trace template values).foldl
            observer.observe observed } := by
  have text := output_run_text observer observed template values
  have reached :=
    (Formatter.standard observer).run_reached template values observed
      (Output.ofDestination "")
  simp only [format, reached.arguments, reached.observed, text]
  rfl

/-- Formatting to a byte writer differs from formatting into a text in the writer only. -/
theorem formatTo_eq [ByteWriter ω] (writer : ω) :
    let after :=
      (Output.ofDestination (WriterDestination.mk writer)).writeEach
        (((Formatter.standard observer).chunks template values).map
          Write.text)
    let formatted := format observer observed template values
    formatTo writer observer observed template values =
      { writer := after.destination.writer
        result :=
          match after.failure with
          | none => .ok formatted.rest
          | some error => .error { rest := formatted.rest, error }
        observed := formatted.observed } := by
  intro after formatted
  have output :=
    (Formatter.standard observer).output_run_eq_writeEach template values
      observed (Output.ofDestination (WriterDestination.mk writer))
  have result :=
    (Formatter.standard observer).result_run template values observed
      (Output.ofDestination (WriterDestination.mk writer))
  rw [output] at result
  have told :
      ((Formatter.standard observer).run template values observed
          (Output.ofDestination (WriterDestination.mk writer))).observed =
        formatted.observed := by
    rw [((Formatter.standard observer).run_reached template values observed
      (Output.ofDestination (WriterDestination.mk writer))).observed]
    simp only [formatted, format_eq]
    rfl
  simp only [formatTo, result, output, told, formatted, format_eq]
  rfl

end

end CaptureFormat
