import CaptureFormat.Destination.Writer

namespace CaptureFormat

/-!
# Metered destinations

A metered destination notes every call that reaches it and takes no more calls
than its budget allows.  It shows which of the ways of writing it was asked
for, and what happens when a destination fails half way.
-/

/-- A way of writing. -/
inductive Call where
  | bytes
  | text
  | char
  deriving Repr, DecidableEq

/-- The calls that a destination has seen, and those that it will still take. -/
structure Meter where
  calls : List Call := []
  /-- The number of calls that may still succeed; nothing means any number. -/
  budget : Option Nat := none
  deriving Repr, DecidableEq

namespace Meter

/-- Note a call and spend a part of the budget; say whether there was any left. -/
def charge (meter : Meter) (call : Call) : Bool × Meter :=
  let calls := meter.calls ++ [call]
  match meter.budget with
  | none => (true, { meter with calls })
  | some 0 => (false, { meter with calls })
  | some (left + 1) => (true, { calls, budget := some left })

end Meter

/-- A text writer with a budget of calls. -/
structure MeteredWriter where
  meter : Meter := {}
  content : String := ""
  deriving Repr, DecidableEq

/-- Charge a call and keep its text if there was a budget for it. -/
def MeteredWriter.take
    (writer : MeteredWriter)
    (call : Call)
    (text : String) :
    Bool × MeteredWriter :=
  match writer.meter.charge call with
  | (true, meter) => (true, { meter, content := writer.content ++ text })
  | (false, meter) => (false, { writer with meter })

instance : TextWriter MeteredWriter where
  writeText text writer := writer.take .text text
  writeChar character writer := writer.take .char (String.singleton character)

/-- A destination for bytes and text with a budget of calls. -/
structure MeteredDestination where
  meter : Meter := {}
  content : List UInt8 := []
  deriving Repr, DecidableEq

namespace MeteredDestination

/-- The failure of a destination whose budget is spent. -/
def closed : WriteError :=
  ⟨.brokenPipe, "pipe closed"⟩

/-- Charge a call and keep its bytes if there was a budget for it. -/
def take
    (destination : MeteredDestination)
    (call : Call)
    (bytes : List UInt8) :
    Reply MeteredDestination :=
  match destination.meter.charge call with
  | (true, meter) => { state := { meter, content := destination.content ++ bytes } }
  | (false, meter) => { state := { destination with meter }, refusal := some closed }

end MeteredDestination

instance : Destination MeteredDestination where
  writeBytes bytes destination := destination.take .bytes bytes
  writeText text destination := destination.take .text (Utf8.encode text.toList)

end CaptureFormat
