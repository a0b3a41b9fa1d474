namespace CaptureFormat

/-!
# Faults of a directive

A fault never ends a call.  It shows as a marker in the text at the place of
the directive, and reading goes on behind it.
-/

/-- Why a directive could not be carried out. -/
inductive Fault where
  /-- The template or the block ended before a verb. -/
  | noVerb
  /-- The verb is not one that a template may use. -/
  | invalidVerb
  /-- A block was never closed. -/
  | unclosed
  /-- A block has no field name where one is required. -/
  | unnamed
  /-- No argument is left for the directive. -/
  | missingArgument
  deriving Repr, DecidableEq

namespace Fault

/-- A fault in words. -/
def description : Fault → String
  | .noVerb => "no verb"
  | .invalidVerb => "invalid verb"
  | .unclosed => "missing '\x7d'"
  | .unnamed => "field name missing"
  | .missingArgument => "missing arg"

/-- The marker of a fault; the verb is part of it only where there is one. -/
def marker (fault : Fault) (verb : Char) : String :=
  match fault with
  | .noVerb => "%!(NOVERB)"
  | .invalidVerb => "%!" ++ String.singleton verb ++ "(INVALID)"
  | .unclosed => "%!(NOCLOSE)"
  | .unnamed => "%!(NONAME)"
  | .missingArgument => "%!" ++ String.singleton verb ++ "(MISSING)"

end Fault

end CaptureFormat
