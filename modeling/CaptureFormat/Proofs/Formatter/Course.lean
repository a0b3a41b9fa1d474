import CaptureFormat.Formatter
import CaptureFormat.Proofs.Template.Requests

namespace CaptureFormat

/-!
# The course of a run

A formatter threads arguments, an observer, an output, and a draft through the
events of a template.  Here the first three are separated from each other, and
from the draft: what an event does is fixed by the event, by the number of
requests in front of it, and by the list of all arguments.

The invariant is `Progress.Reached`: the arguments left after so many requests
are the given ones without that many at the front, and the draft may hold
anything.  `foldl_step_reached` carries it through all events, whether or not
arguments run out on the way.
-/

namespace Arguments

/-- The arguments of a call after so many requests. -/
def after (values : List V) (count : Nat) : Arguments V :=
  ⟨min count values.length, values.drop count⟩

/-- Before the first request, all arguments are left. -/
theorem after_zero (values : List V) :
    after values 0 = ofList values := by
  simp [after, ofList]

/-- A request gets the argument at its own index, if the call has so many. -/
theorem next?_after (values : List V) (count : Nat) :
    (after values count).next? =
      values[count]?.map fun value =>
        ((count, value), after values (count + 1)) := by
  by_cases present : count < values.length
  · rw [List.getElem?_eq_getElem present]
    simp only [next?, after, List.drop_eq_getElem_cons present,
      Nat.min_eq_left (Nat.le_of_lt present),
      Nat.min_eq_left (Nat.succ_le_of_lt present), Option.map_some]
  · have exhausted : values.length ≤ count :=
      Nat.le_of_not_lt present
    simp [next?, after, List.drop_of_length_le exhausted,
      List.getElem?_eq_none exhausted]

/-- Once arguments have run out, a further request changes nothing. -/
theorem after_succ_of_length_le
    {values : List V}
    {count : Nat}
    (exhausted : values.length ≤ count) :
    after values (count + 1) = after values count := by
  have exhaustedNext : values.length ≤ count + 1 :=
    Nat.le_succ_of_le exhausted
  simp [after, Nat.min_eq_right exhausted,
    Nat.min_eq_right exhaustedNext,
    List.drop_of_length_le exhausted,
    List.drop_of_length_le exhaustedNext]

end Arguments

/--
The text of an event whose request is number `index`.

It depends on the arguments of the call as they were given, not on what is
left of them.
-/
def Rendering.chunk
    (rendering : Rendering V)
    (values : List V)
    (index : Nat) :
    Event → String
  | .text text => text
  | .directive directive =>
      match values[index]? with
      | some value => rendering.render directive value
      | none => rendering.markFault directive .missingArgument
  | .fault directive fault =>
      match values[index]? with
      | some value =>
          rendering.markFault directive fault ++
            "(" ++ rendering.describe value ++ ")"
      | none => rendering.markFault directive fault

namespace Formatter

/-- The events of a template, with the rendering's verbs and the settings' rule for names. -/
def events
    (formatter : Formatter κ V)
    (template : String) :
    List Event :=
  Grammar.events
    { verbs := formatter.rendering.verbs
      requireName := formatter.settings.requireName }
    template

/-- These are the events that a run works off. -/
theorem events_eq
    (formatter : Formatter κ V)
    (template : String) :
    formatter.events template = formatter.grammar.events template :=
  rfl

/-- The requests of a template in order. -/
def requests
    (formatter : Formatter κ V)
    (template : String) :
    List Request :=
  (formatter.events template).filterMap Event.request?

/-- The texts of all events of a template, in order. -/
def chunks
    (formatter : Formatter κ V)
    (template : String)
    (values : List V) :
    List String :=
  (Event.number 0 (formatter.events template)).map
    fun (event, index) => formatter.rendering.chunk values index event

/-- All that is told of request number `index`: first its fault, then its argument. -/
def told
    (formatter : Formatter κ V)
    (values : List V)
    (index : Nat)
    (request : Request) :
    List (Observation V) :=
  (request.fault.map (.fault request.directive)).toList ++
    match values[index]? with
    | none => []
    | some value =>
        if request.name?.isSome || formatter.settings.reportPositional then
          [.value (request.name?.getD "") index value]
        else
          []

private theorem reports_eq
    (formatter : Formatter κ V)
    (name : Option String)
    (index : Nat)
    (value : V) :
    formatter.reports name index value =
      if name.isSome || formatter.settings.reportPositional then
        [.value (name.getD "") index value]
      else
        [] := by
  cases name <;> simp [reports]

end Formatter

namespace Progress

/--
A run with `count` requests behind it.  Nothing is said of the draft, so what
was put together for one directive has no part in the next.
-/
structure Reached
    (values : List V)
    (count : Nat)
    (observed : κ)
    (output : Output σ)
    (progress : Progress σ κ V) : Prop where
  arguments : progress.arguments = .after values count
  observed : progress.observed = observed
  output : progress.output = output

/-- The observer is told one thing after the other, and nothing else changes. -/
theorem tell_eq
    (progress : Progress σ κ V)
    (observer : Observer κ V)
    (observations : List (Observation V)) :
    progress.tell observer observations =
      { progress with
        observed := observations.foldl observer.observe progress.observed } :=
  rfl

variable [Destination σ]

@[simp] theorem arguments_printDraft
    (progress : Progress σ κ V)
    (pieces : List String) :
    (progress.printDraft pieces).arguments = progress.arguments := by
  unfold printDraft
  split <;> rfl

@[simp] theorem observed_printDraft
    (progress : Progress σ κ V)
    (pieces : List String) :
    (progress.printDraft pieces).observed = progress.observed := by
  unfold printDraft
  split <;> rfl

/-- An empty draft is printed with the pieces and nothing else. -/
theorem output_printDraft
    {progress : Progress σ κ V}
    (empty : progress.draft = "")
    (pieces : List String) :
    (progress.printDraft pieces).output =
      progress.output.writeText (String.join pieces) := by
  unfold printDraft
  split
  · next failed =>
      obtain ⟨error, failure⟩ := Option.isSome_iff_exists.mp failed
      simp [Output.writeText, Output.write, failure]
  · rw [empty]
    rfl

end Progress

namespace Formatter

variable [Destination σ]

private theorem runDirective_reached
    (formatter : Formatter κ V)
    {values : List V}
    {count : Nat}
    {observed : κ}
    {output : Output σ}
    {progress : Progress σ κ V}
    (reached : progress.Reached values count observed output)
    (empty : progress.draft = "")
    (directive : Directive) :
    (formatter.runDirective directive progress).Reached values (count + 1)
      ((formatter.told values count { directive }).foldl
        formatter.observer.observe observed)
      (output.writeText
        (formatter.rendering.chunk values count (.directive directive))) := by
  obtain ⟨left, rfl, rfl⟩ := reached
  unfold runDirective
  rw [left, Arguments.next?_after]
  cases found : values[count]? with
  | none =>
      have exhausted := List.getElem?_eq_none_iff.mp found
      refine ⟨?_, ?_, ?_⟩
      · simpa [Arguments.after_succ_of_length_le exhausted] using left
      · simp [told, found]
      · simp [Progress.output_printDraft, empty, Rendering.chunk, found,
          String.join]
  | some value =>
      refine ⟨?_, ?_, ?_⟩
      · simp [Progress.tell_eq]
      · simp [Progress.tell_eq, told, found, Request.name?, reports_eq]
      · simp [Progress.tell_eq, Progress.output_printDraft, empty,
          Rendering.chunk, found, String.join]

private theorem runFault_reached
    (formatter : Formatter κ V)
    {values : List V}
    {count : Nat}
    {observed : κ}
    {output : Output σ}
    {progress : Progress σ κ V}
    (reached : progress.Reached values count observed output)
    (empty : progress.draft = "")
    (directive : Directive)
    (fault : Fault) :
    (formatter.runFault directive fault progress).Reached values (count + 1)
      ((formatter.told values count { directive, fault := some fault }).foldl
        formatter.observer.observe observed)
      (output.writeText
        (formatter.rendering.chunk values count (.fault directive fault))) := by
  have sameName :
      reportedName? directive fault =
        Request.name? { directive, fault := some fault } := by
    cases fault <;> rfl
  obtain ⟨left, rfl, rfl⟩ := reached
  unfold runFault
  simp only [Progress.tell_eq, left, Arguments.next?_after]
  cases found : values[count]? with
  | none =>
      have exhausted := List.getElem?_eq_none_iff.mp found
      refine ⟨?_, ?_, ?_⟩
      · simp [Arguments.after_succ_of_length_le exhausted]
      · simp [told, found]
      · simp [Progress.output_printDraft, empty, Rendering.chunk, found,
          String.join]
  | some value =>
      refine ⟨?_, ?_, ?_⟩
      · simp
      · simp [told, found, sameName, reports_eq]
      · simp [Progress.output_printDraft, empty, Rendering.chunk, found,
          String.join]

/--
One event, with `count` requests in front of it: the arguments, the observer,
and the output each change by themselves, whatever the draft holds.
-/
theorem step_reached
    (formatter : Formatter κ V)
    {values : List V}
    {count : Nat}
    {observed : κ}
    {output : Output σ}
    {progress : Progress σ κ V}
    (reached : progress.Reached values count observed output)
    (event : Event) :
    (formatter.step progress event).Reached values
      (if event.asks then count + 1 else count)
      ((event.request?.toList.flatMap (formatter.told values count)).foldl
        formatter.observer.observe observed)
      (output.writeText (formatter.rendering.chunk values count event)) := by
  have cleared :
      progress.clearDraft.Reached values count observed output :=
    ⟨reached.arguments, reached.observed, reached.output⟩
  cases event with
  | text text =>
      obtain ⟨left, rfl, rfl⟩ := reached
      exact ⟨left, rfl, rfl⟩
  | directive directive =>
      simpa [step, Event.asks, Event.request?] using
        formatter.runDirective_reached cleared rfl directive
  | fault directive fault =>
      simpa [step, Event.asks, Event.request?] using
        formatter.runFault_reached cleared rfl directive fault

/--
All events, with `count` requests in front of them.

The arguments taken depend on the number of requests only, the observations on
the requests only, and the output is written chunk by chunk.
-/
theorem foldl_step_reached
    (formatter : Formatter κ V)
    {values : List V}
    {count : Nat}
    {observed : κ}
    {output : Output σ}
    {progress : Progress σ κ V}
    (reached : progress.Reached values count observed output)
    (events : List Event) :
    (events.foldl formatter.step progress).Reached values
      (count + (events.filterMap Event.request?).length)
      ((((events.filterMap Event.request?).zipIdx count).flatMap
          fun (request, index) => formatter.told values index request).foldl
        formatter.observer.observe observed)
      (((Event.number count events).map
          fun (event, index) =>
            formatter.rendering.chunk values index event).foldl
        Output.writeText output) := by
  induction events generalizing count observed output progress with
  | nil =>
      exact reached
  | cons event rest inductionHypothesis =>
      have later := inductionHypothesis (formatter.step_reached reached event)
      rw [List.foldl_cons]
      cases asked : event.request? with
      | none =>
          simpa [Event.number, Event.asks, asked] using later
      | some request =>
          simpa [Event.number, Event.asks, asked, Nat.add_comm,
            Nat.add_left_comm] using later

end Formatter

end CaptureFormat
