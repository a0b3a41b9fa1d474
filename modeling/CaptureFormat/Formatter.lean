import CaptureFormat.Arguments
import CaptureFormat.Observation
import CaptureFormat.Output
import CaptureFormat.Rendering.Basic
import CaptureFormat.Template.Events

namespace CaptureFormat

/-!
# Working off a template

The events of a template are worked off in order.  Text is printed.  A
directive takes the next argument, prints it, and reports it.  A faulty
directive is reported, takes the next argument as well, and prints a marker
with a description of that argument.  In the end, errors among the arguments
that are left are reported, too.

Printing may fail.  Nothing more is printed then, but arguments are taken and
reported as before.

What a directive prints is put together in a draft that all directives of a
call share.  Each of them empties it first.
-/

/-- What a call may be told apart from its rendering. -/
structure Settings where
  /-- Whether a block without a field name is a fault. -/
  requireName : Bool := true
  /-- Whether the arguments of directives without a name are reported. -/
  reportPositional : Bool := true
  deriving Repr, DecidableEq

/-- All that changes while a template is worked off. -/
structure Progress (σ κ V : Type) where
  arguments : Arguments V
  observed : κ
  output : Output σ
  /-- What was put together last. -/
  draft : String := ""

namespace Progress

/-- Print text. -/
def print [Destination σ] (progress : Progress σ κ V) (text : String) : Progress σ κ V :=
  { progress with output := progress.output.writeText text }

/-- Empty the draft. -/
def clearDraft (progress : Progress σ κ V) : Progress σ κ V :=
  { progress with draft := "" }

/-- Put pieces behind each other in the draft and print it, unless printing has failed. -/
def printDraft [Destination σ]
    (progress : Progress σ κ V)
    (pieces : List String) :
    Progress σ κ V :=
  if progress.output.isFailed then
    progress
  else
    let draft := pieces.foldl (· ++ ·) progress.draft
    { progress with draft }.print draft

/-- Tell the observer. -/
def tell
    (progress : Progress σ κ V)
    (observer : Observer κ V)
    (observations : List (Observation V)) :
    Progress σ κ V :=
  { progress with observed := observer.observeAll progress.observed observations }

end Progress

/-- Everything that stays the same while a template is worked off. -/
structure Formatter (κ V : Type) where
  rendering : Rendering V
  observer : Observer κ V
  settings : Settings := {}

namespace Formatter

/-- The grammar of the templates: the rendering's verbs and the settings' rule for names. -/
def grammar (formatter : Formatter κ V) : Grammar :=
  { verbs := formatter.rendering.verbs, requireName := formatter.settings.requireName }

/--
The name under which the argument of a faulty directive is reported.  What
was read of a block that is not closed, or that has no name, is no name.
-/
def reportedName? (directive : Directive) : Fault → Option String
  | .unclosed => none
  | .unnamed => none
  | _ => directive.name

/-- The observations of an argument that was taken under a name or under none. -/
def reports
    (formatter : Formatter κ V)
    (name : Option String)
    (index : Nat)
    (value : V) :
    List (Observation V) :=
  match name with
  | some field => [.value field index value]
  | none => if formatter.settings.reportPositional then [.value "" index value] else []

/-- Work off a directive. -/
def runDirective [Destination σ]
    (formatter : Formatter κ V)
    (directive : Directive)
    (progress : Progress σ κ V) :
    Progress σ κ V :=
  match progress.arguments.next? with
  | none => progress.printDraft [formatter.rendering.markFault directive .missingArgument]
  | some ((index, value), arguments) =>
      { progress with arguments }
        |>.printDraft [formatter.rendering.render directive value]
        |>.tell formatter.observer (formatter.reports directive.name index value)

/-- Work off a faulty directive. -/
def runFault [Destination σ]
    (formatter : Formatter κ V)
    (directive : Directive)
    (fault : Fault)
    (progress : Progress σ κ V) :
    Progress σ κ V :=
  let marker := formatter.rendering.markFault directive fault
  let progress := progress.tell formatter.observer [.fault directive fault]
  match progress.arguments.next? with
  | none => progress.printDraft [marker]
  | some ((index, value), arguments) =>
      let name := reportedName? directive fault
      { progress with arguments }
        |>.printDraft [marker, "(", formatter.rendering.describe value, ")"]
        |>.tell formatter.observer (formatter.reports name index value)

/-- Work off one event. -/
def step [Destination σ]
    (formatter : Formatter κ V)
    (progress : Progress σ κ V) :
    Event → Progress σ κ V
  | .text text => progress.print text
  | .directive directive => formatter.runDirective directive progress.clearDraft
  | .fault directive fault => formatter.runFault directive fault progress.clearDraft

/-- The observations of the errors among the arguments that are left. -/
def leftovers [MayBeError V] (arguments : Arguments V) : List (Observation V) :=
  (arguments.indexed.filter fun entry => MayBeError.isError entry.1).map fun entry =>
    .value "" entry.2 entry.1

/-- Work off a template. -/
def run [Destination σ] [MayBeError V]
    (formatter : Formatter κ V)
    (template : String)
    (values : List V)
    (observed : κ)
    (output : Output σ) :
    Progress σ κ V :=
  let events := formatter.grammar.events template
  let start : Progress σ κ V := { arguments := .ofList values, observed, output }
  let done := events.foldl formatter.step start
  done.tell formatter.observer (leftovers done.arguments)

end Formatter

/-- A failure to print, with the arguments that no directive took. -/
structure Interruption (V : Type) where
  rest : List V
  error : WriteError
  deriving Repr, DecidableEq

/-- An interruption in words. -/
def Interruption.description (interruption : Interruption V) : String :=
  interruption.error.description

/-- The arguments that no directive took, or the failure to print along with them. -/
def Progress.result (progress : Progress σ κ V) : Except (Interruption V) (List V) :=
  match progress.output.failure with
  | none => .ok progress.arguments.rest
  | some error => .error { rest := progress.arguments.rest, error }

end CaptureFormat
