import CaptureFormat.Destination.Writer
import CaptureFormat.Formatter

namespace CaptureFormat

/-!
# Formatting values

The two usual ways of formatting: into a new text, and to a byte writer.  Both
use the standard rendering, report every directive, and require field names.
-/

/-- The formatter of the standard rendering for an observer. -/
def Formatter.standard (observer : Observer κ Value) : Formatter κ Value :=
  { rendering := .standard, observer }

/-- Formatted text. -/
structure Formatted (κ : Type) where
  text : String
  /-- The arguments that no directive took. -/
  rest : List Value
  /-- The state of the observer. -/
  observed : κ
  deriving Repr, DecidableEq

/-- Format values into a new text. -/
def format
    (observer : Observer κ Value)
    (observed : κ)
    (template : String)
    (values : List Value) :
    Formatted κ :=
  let done :=
    (Formatter.standard observer).run template values observed (Output.ofDestination "")
  { text := done.output.destination, rest := done.arguments.rest, observed := done.observed }

/-- What came of formatting to a writer. -/
structure Written (ω κ : Type) where
  writer : ω
  /-- The arguments that no directive took, or the failure along with them. -/
  result : Except (Interruption Value) (List Value)
  /-- The state of the observer. -/
  observed : κ

/-- Format values to a byte writer. -/
def formatTo [ByteWriter ω]
    (writer : ω)
    (observer : Observer κ Value)
    (observed : κ)
    (template : String)
    (values : List Value) :
    Written ω κ :=
  let done :=
    (Formatter.standard observer).run template values observed
      (Output.ofDestination (WriterDestination.mk writer))
  { writer := done.output.destination.writer, result := done.result, observed := done.observed }

end CaptureFormat
