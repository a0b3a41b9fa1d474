import CaptureFormat.Observation

namespace CaptureFormat

/-!
# Captures

The captures of a call are the arguments that were used, each with its field
and its position, and the faults of the template.  Those with a field name are
what the template names.
-/

/-- An argument that was used; without a field name, the field is empty. -/
structure Capture (V : Type) where
  field : String
  index : Nat
  value : V
  deriving Repr, DecidableEq

/-- All arguments that were used and all faults, each in order. -/
structure Captures (V : Type) where
  entries : List (Capture V) := []
  faults : List Fault := []
  deriving Repr, DecidableEq

namespace Captures

/-- Add one observation. -/
def add (captures : Captures V) : Observation V → Captures V
  | .value field index argument =>
      { captures with entries := captures.entries ++ [⟨field, index, argument⟩] }
  | .fault _ fault => { captures with faults := captures.faults ++ [fault] }

/-- The observer whose state is the captures so far. -/
def observer : Observer (Captures V) V where
  observe := add

/-- The names and arguments of the captures that have a name. -/
def named (captures : Captures V) : List (String × V) :=
  (captures.entries.filter (·.field != "")).map fun entry => (entry.field, entry.value)

end Captures

end CaptureFormat
