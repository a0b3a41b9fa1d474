import CaptureFormat.Captures
import CaptureFormat.Proofs.Formatter.Observations
import CaptureFormat.Proofs.Template.Names

namespace CaptureFormat

/-!
# Captures with a name

Which captures of a run have a name can be told from the template as it is
spelled: every closed block with a name captures the argument of its own
position, whatever else is wrong with the block, and nothing else captures
anything under a name.  Neither the rendering nor the destination has a part in
it, and neither does the choice to report arguments without a name.
-/

/-- The argument of a request, under the name that the segment of the request spells. -/
def spelledCapture?
    (values : List V)
    (segment : String)
    (index : Nat) :
    Option (String × V) :=
  (spelledName? segment.toList).bind fun name =>
    values[index]?.map fun value => (name, value)

/--
The arguments under the names that segments spell.  Of the events, only the
number of requests in front of each segment counts; `start` are in front of the
first one.
-/
def spelledCaptures
    (values : List V)
    (start : Nat)
    (segments : List String)
    (events : List Event) :
    List (String × V) :=
  (segments.zip (Event.number start events)).filterMap
    fun (segment, _, index) => spelledCapture? values segment index

theorem spelledCaptures_cons
    (values : List V)
    (start : Nat)
    (segment : String)
    (segments : List String)
    (event : Event)
    (events : List Event) :
    spelledCaptures values start (segment :: segments) (event :: events) =
      (spelledCapture? values segment start).toList ++
        spelledCaptures values (if event.asks then start + 1 else start)
          segments events := by
  unfold spelledCaptures
  cases found : spelledCapture? values segment start <;>
    simp [Event.number, found]

/-- The name and the argument of an observation that has a name. -/
def Observation.named? : Observation V → Option (String × V)
  | .value field _ argument =>
      if field != "" then some (field, argument) else none
  | .fault _ _ => none

/-- The captures with a name are the observations with a name. -/
theorem Captures.named_foldl_observe
    (captures : Captures V)
    (observations : List (Observation V)) :
    (observations.foldl observer.observe captures).named =
      captures.named ++ observations.filterMap Observation.named? := by
  induction observations generalizing captures with
  | nil =>
      exact (List.append_nil _).symm
  | cons observation rest inductionHypothesis =>
      have first :
          (captures.add observation).named =
            captures.named ++ observation.named?.toList := by
        cases observation with
        | value field index argument =>
            by_cases unnamed : field = "" <;>
              simp [add, named, Observation.named?, unnamed]
        | fault directive reason =>
            exact (List.append_nil _).symm
      have later := inductionHypothesis (captures.add observation)
      rw [first, List.append_assoc] at later
      refine later.trans ?_
      congr 1
      cases named : observation.named? <;> simp [named]

/-- Errors that no request took are observed without a name. -/
theorem named?_leftoverErrors [MayBeError V]
    (values : List V)
    (taken : Nat) :
    (leftoverErrors values taken).filterMap Observation.named? = [] := by
  rw [List.filterMap_eq_nil_iff]
  intro observation member
  obtain ⟨entry, _, found⟩ := List.mem_filterMap.mp member
  simp only at found
  split at found
  · cases found
    rfl
  · cases found

namespace Formatter

/-- A request is observed under its name, if it has one and there is an argument. -/
theorem named?_told
    (formatter : Formatter κ V)
    (values : List V)
    (index : Nat)
    (request : Request) :
    (formatter.told values index request).filterMap Observation.named? =
      ((request.name?.filter (· != "")).bind fun name =>
        values[index]?.map fun value => (name, value)).toList := by
  have faultless :
      (request.fault.map
          (Observation.fault (V := V) request.directive)).toList.filterMap
            Observation.named? = [] := by
    cases request.fault <;> rfl
  rw [told, List.filterMap_append, faultless, List.nil_append]
  cases values[index]? with
  | none =>
      cases request.name?.filter (· != "") <;> rfl
  | some value =>
      cases request.name? with
      | none =>
          cases formatter.settings.reportPositional <;>
            simp [Observation.named?]
      | some name =>
          by_cases unnamed : name = "" <;>
            simp [Option.filter, Observation.named?, unnamed]

/-- Requests are observed under the names that the segments of their events spell. -/
theorem named?_flatMap_told
    (formatter : Formatter κ V)
    {grammar : Grammar}
    (values : List V)
    (start : Nat)
    {segments : List String}
    {events : List Event}
    (alone :
      List.Forall₂ (fun segment event => grammar.events segment = [event])
        segments events) :
    (((events.filterMap Event.request?).zipIdx start).flatMap
        fun (request, index) =>
          formatter.told values index request).filterMap
            Observation.named? =
      spelledCaptures values start segments events := by
  induction alone generalizing start with
  | nil =>
      rfl
  | @cons segment event segments events read _ inductionHypothesis =>
      have spelled :
          spelledName? segment.toList = event.name?.filter (· != "") := by
        have reads := grammar.reads_eventsFrom segment.toList
        change grammar.Reads segment.toList (grammar.events segment) at reads
        rw [read] at reads
        exact reads.spelledName?_eq
      rw [spelledCaptures_cons, ← inductionHypothesis, spelledCapture?,
        spelled]
      cases asked : event.request? with
      | none =>
          simp [Event.asks, asked, Event.name?]
      | some request =>
          rw [List.filterMap_cons_some asked, List.zipIdx_cons,
            List.flatMap_cons, List.filterMap_append]
          refine congrArg₂ (· ++ ·) ?_ ?_
          · simpa [Event.name?, asked] using
              formatter.named?_told values start request
          · simp [Event.asks, asked]

/--
The captures of a run that have a name.

Every template is cut into segments, each of which has its event alone, and for
every such cut the captures with a name are those that the segments spell.
-/
theorem named_run [Destination σ] [MayBeError V]
    (rendering : Rendering V)
    (settings : Settings)
    (template : String)
    (values : List V)
    (output : Output σ) :
    let formatter : Formatter (Captures V) V :=
      { rendering, observer := Captures.observer, settings }
    (∃ segments, formatter.grammar.Segmented template segments) ∧
      ∀ segments,
        formatter.grammar.Segmented template segments →
        (formatter.run template values {} output).observed.named =
          spelledCaptures values 0 segments
            (formatter.grammar.events template) := by
  intro formatter
  refine ⟨formatter.grammar.exists_segmented template, ?_⟩
  intro segments segmented
  have told :=
    (formatter.run_reached template values {} output).observed
  rw [told]
  refine (Captures.named_foldl_observe _ _).trans ?_
  rw [trace, List.filterMap_append, named?_leftoverErrors, List.append_nil]
  exact
    formatter.named?_flatMap_told values 0 segmented.alone

/--
With a faulty block, a bare directive, a block without a name, a value, and a
block without an end, printed to an output that has failed before.
-/
theorem named_run_faulty :
    let formatter : Formatter (Captures Value) Value :=
      { rendering := .standard, observer := Captures.observer, settings := {} }
    let template := "%\x7ba:x!\x7d%d%\x7b\x7d %\x7b+b\x7d%\x7bc"
    let segments :=
      ["%\x7ba:x!\x7d", "%d", "%\x7b\x7d", " ", "%\x7b+b\x7d", "%\x7bc"]
    let values : List Value :=
      [.uint 1, .uint 2, .uint 3, .uint 4, .uint 5, .error "late"]
    let output : Output String := ⟨"", 0, some ⟨.brokenPipe, "pipe closed"⟩⟩
    formatter.grammar.Segmented template segments ∧
      (formatter.run template values {} output).observed.named =
        [("a", .uint 1), ("b", .uint 4)] := by
  intro formatter template segments values output
  have segmented : formatter.grammar.Segmented template segments :=
    ⟨by decide, by decide +kernel⟩
  refine ⟨segmented, ?_⟩
  rw [(named_run .standard {} template values output).2 segments segmented]
  decide +kernel

end Formatter

end CaptureFormat
