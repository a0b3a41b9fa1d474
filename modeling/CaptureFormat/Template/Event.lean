import CaptureFormat.Directive
import CaptureFormat.Fault
import CaptureFormat.VerbMask

namespace CaptureFormat

/-!
# Events of a template

A template is a sequence of events: literal text, directives, and faulty
directives.  A directive starts at a percent sign and is either bare, as in
`%-8.3f`, or a block with a field name, as in `%{name:-8.3f}`.  A percent sign
in front of another one is literal.
-/

/-- What a template may contain. -/
structure Grammar where
  /-- The verbs that end a directive. -/
  verbs : VerbMask := .standard
  /-- Whether a block without a field name is a fault. -/
  requireName : Bool := true
  deriving Repr, DecidableEq

/-- One unit of a template. -/
inductive Event where
  /-- Text that stands for itself. -/
  | text : String → Event
  /-- A directive that can be carried out. -/
  | directive : Directive → Event
  /-- A faulty directive, as far as it was read. -/
  | fault : Directive → Fault → Event
  deriving Repr, DecidableEq

end CaptureFormat
