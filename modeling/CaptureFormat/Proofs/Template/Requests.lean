import CaptureFormat.Template.Event

namespace CaptureFormat

/-!
# Requests of a template

All events but text ask for an argument.  Which one they get depends on the
number of requests in front of them.
-/

/-- What an event asks an argument for: a directive, with its fault if it has one. -/
structure Request where
  directive : Directive
  fault : Option Fault := none
  deriving Repr, DecidableEq

/--
The name that a request gives its argument.  A block that is not closed, or
that has no name where one is required, gives none.
-/
def Request.name? (request : Request) : Option String :=
  match request.fault with
  | some .unclosed => none
  | some .unnamed => none
  | _ => request.directive.name

namespace Event

/-- The request of an event; text asks for nothing. -/
def request? : Event → Option Request
  | .text _ => none
  | .directive asked => some { directive := asked }
  | .fault asked reason => some { directive := asked, fault := some reason }

/-- Whether an event asks for an argument. -/
def asks (event : Event) : Bool :=
  event.request?.isSome

/-- Events along with the number of requests in front of each. -/
def number : Nat → List Event → List (Event × Nat)
  | _, [] => []
  | index, event :: rest =>
      (event, index) :: number (if event.asks then index + 1 else index) rest

end Event

end CaptureFormat
