import CaptureFormat.Proofs.Formatter.Observations
import CaptureFormat.Proofs.Template.Concatenation

namespace CaptureFormat

/-!
# Runs behind each other

Two templates behind each other are worked off like the first one with the
arguments that it takes, and then the second one with the others.  What is
written and told depends on the argument of each request and on nothing else,
so both sides are compared request by request: `agree` says that they find the
same arguments.

Arguments may run out within either template.  The second one then starts with
none, and no position is reported at which the two sides could differ.
-/

/-- The same observation of an argument that is counted `offset` positions later. -/
def Observation.shift (offset : Nat) : Observation V → Observation V
  | .value field index argument => .value field (index + offset) argument
  | .fault directive reason => .fault directive reason

@[simp] theorem Observation.shift_zero :
    (shift 0 : Observation V → Observation V) = id := by
  funext observation
  cases observation <;> rfl

namespace Rendering

/-- The text of events, the first of whose requests has number `start`. -/
def text
    (rendering : Rendering V)
    (values : List V)
    (start : Nat)
    (events : List Event) :
    String :=
  String.join
    ((Event.number start events).map
      fun (event, index) => rendering.chunk values index event)

variable (rendering : Rendering V)

theorem text_cons
    (values : List V)
    (start : Nat)
    (event : Event)
    (rest : List Event) :
    rendering.text values start (event :: rest) =
      rendering.chunk values start event ++
        rendering.text values (if event.asks then start + 1 else start)
          rest := by
  simp only [text, Event.number, List.map_cons, String.join_cons]

theorem text_append
    (values : List V)
    (start : Nat)
    (first second : List Event) :
    rendering.text values start (first ++ second) =
      rendering.text values start first ++
        rendering.text values
          (start + (first.filterMap Event.request?).length) second := by
  simp only [text, Event.number_append, List.map_append, String.join_append]

theorem chunk_congr
    {values others : List V}
    {index otherIndex : Nat}
    (same : values[index]? = others[otherIndex]?)
    (event : Event) :
    rendering.chunk values index event =
      rendering.chunk others otherIndex event := by
  cases event <;> simp only [chunk, same]

/-- Only the arguments of requests have a part in the text. -/
theorem text_congr
    {values others : List V}
    {start otherStart : Nat}
    {events : List Event}
    (agree :
      ∀ count < (events.filterMap Event.request?).length,
        values[start + count]? = others[otherStart + count]?) :
    rendering.text values start events =
      rendering.text others otherStart events := by
  induction events generalizing start otherStart with
  | nil =>
      rfl
  | cons event rest inductionHypothesis =>
      rw [text_cons, text_cons]
      cases asked : event.request? with
      | none =>
          have literal :
              rendering.chunk values start event =
                rendering.chunk others otherStart event := by
            cases event <;> first | rfl | cases asked
          simp only [List.filterMap_cons, asked] at agree
          simp only [Event.asks, asked, literal]
          exact congrArg _ (inductionHypothesis agree)
      | some request =>
          simp only [List.filterMap_cons, asked, List.length_cons] at agree
          have later :
              rendering.text values (start + 1) rest =
                rendering.text others (otherStart + 1) rest := by
            apply inductionHypothesis
            intro count bound
            have next := agree (count + 1) (Nat.succ_lt_succ bound)
            simpa only [Nat.add_assoc, Nat.add_comm 1] using next
          have now : values[start]? = others[otherStart]? :=
            agree 0 (Nat.succ_pos _)
          simp only [Event.asks, asked, Option.isSome_some, if_true,
            rendering.chunk_congr now event, later]

theorem text_characters
    (values : List V)
    (start : Nat)
    (characters : List Char) :
    rendering.text values start
        (characters.map fun character => .text (String.singleton character)) =
      String.ofList characters := by
  induction characters with
  | nil =>
      rfl
  | cons first rest inductionHypothesis =>
      rw [List.map_cons, text_cons]
      refine (congrArg (String.singleton first ++ ·) inductionHypothesis).trans ?_
      rw [← String.toList_inj]
      simp

theorem text_letters
    (values : List V)
    (start : Nat)
    (events : List Event) :
    rendering.text values start (Event.letters events) =
      rendering.text values start events := by
  have alone :
      ∀ start event,
        rendering.text values start (Event.letters [event]) =
          rendering.text values start [event] := by
    rintro start (content | asked | ⟨asked, reason⟩)
    · have literal := rendering.text_characters values start content.toList
      rw [String.ofList_toList] at literal
      simpa [Event.letters, text_cons, chunk, text, Event.number] using literal
    · rfl
    · rfl
  induction events generalizing start with
  | nil =>
      rfl
  | cons event rest inductionHypothesis =>
      rw [Event.letters_cons, text_append, alone, Event.requests_letters,
        inductionHypothesis]
      exact (rendering.text_append values start [event] rest).symm

end Rendering

namespace Formatter

variable (formatter : Formatter κ V)

/-- What is told of a request depends on its argument, and its position on that. -/
theorem told_congr
    {values others : List V}
    {index otherIndex offset : Nat}
    (same : values[index]? = others[otherIndex]?)
    (aligned : others[otherIndex]? = none ∨ index = otherIndex + offset)
    (request : Request) :
    formatter.told values index request =
      (formatter.told others otherIndex request).map (.shift offset) := by
  unfold told
  rw [same, List.map_append]
  congr 1
  · cases request.fault <;> rfl
  · cases found : others[otherIndex]? with
    | none =>
        rfl
    | some value =>
        rw [found] at aligned
        obtain rfl := aligned.resolve_left (by simp)
        simp only []
        split <;> rfl

/-- What is told of requests depends on their arguments, and the positions on those. -/
theorem flatMap_told_congr
    {values others : List V}
    {start otherStart offset : Nat}
    {requests : List Request}
    (agree :
      ∀ count < requests.length,
        values[start + count]? = others[otherStart + count]? ∧
          (others[otherStart + count]? = none ∨
            start + count = otherStart + count + offset)) :
    ((requests.zipIdx start).flatMap
        fun (request, index) => formatter.told values index request) =
      ((requests.zipIdx otherStart).flatMap
        fun (request, index) => formatter.told others index request).map
          (.shift offset) := by
  induction requests generalizing start otherStart with
  | nil =>
      rfl
  | cons request rest inductionHypothesis =>
      obtain ⟨same, aligned⟩ := agree 0 (Nat.succ_pos _)
      have now := formatter.told_congr same aligned request
      have later :
          ((rest.zipIdx (start + 1)).flatMap
              fun (request, index) => formatter.told values index request) =
            ((rest.zipIdx (otherStart + 1)).flatMap
              fun (request, index) =>
                formatter.told others index request).map
                  (.shift offset) := by
        apply inductionHypothesis
        intro count bound
        have next := agree (count + 1) (Nat.succ_lt_succ bound)
        simpa only [Nat.add_assoc, Nat.add_comm 1] using next
      simp only [List.zipIdx_cons, List.flatMap_cons, List.map_append, later]
      exact congrArg (· ++ _) now

end Formatter

/-- Errors behind the first arguments are counted as many positions later. -/
theorem leftoverErrors_add [MayBeError V]
    (values : List V)
    (count offset : Nat) :
    leftoverErrors values (count + offset) =
      (leftoverErrors (values.drop offset) count).map (.shift offset) := by
  have later :
      (values.drop (count + offset)).zipIdx (count + offset) =
        (((values.drop offset).drop count).zipIdx count).map
          (Prod.map id (· + offset)) := by
    rw [List.drop_drop, Nat.add_comm count,
      ← List.map_snd_add_zipIdx_eq_zipIdx]
  unfold leftoverErrors
  rw [later, List.filterMap_map, List.map_filterMap]
  congr 1
  funext entry
  by_cases isError : MayBeError.isError entry.1 = true <;>
    simp [Observation.shift, isError]

theorem getElem?_take_min
    (values : List V)
    {count index : Nat}
    (taken : index < count) :
    values[index]? = (values.take (min count values.length))[index]? := by
  rw [List.getElem?_take]
  split
  · rfl
  · exact List.getElem?_eq_none (by omega)

/-- The arguments that are left are found as many positions earlier. -/
theorem getElem?_drop_min
    (values : List V)
    (count index : Nat) :
    values[count + index]? =
        (values.drop (min count values.length))[index]? ∧
      ((values.drop (min count values.length))[index]? = none ∨
        count + index = index + min count values.length) := by
  rw [List.getElem?_drop]
  by_cases enough : count ≤ values.length
  · rw [Nat.min_eq_left enough]
    exact ⟨rfl, Or.inr (Nat.add_comm count index)⟩
  · have exhausted : min count values.length = values.length := by omega
    rw [exhausted, List.getElem?_eq_none (by omega),
      List.getElem?_eq_none (by omega)]
    exact ⟨rfl, Or.inl rfl⟩

namespace Formatter

variable
  (formatter : Formatter κ V)
  (first second : String)
  (whole : Event.EndWhole (formatter.grammar.events first))
  (values : List V)

include whole

theorem requests_append :
    formatter.requests (first ++ second) =
      formatter.requests first ++ formatter.requests second := by
  have requests :=
    congrArg (List.filterMap Event.request?)
      (formatter.grammar.letters_events_append first second whole)
  rwa [List.filterMap_append, Event.requests_letters, Event.requests_letters,
    Event.requests_letters] at requests

theorem taken_append :
    formatter.taken (first ++ second) values =
      formatter.taken second (values.drop (formatter.taken first values)) +
        formatter.taken first values := by
  simp only [taken, formatter.requests_append first second whole,
    List.length_append, List.length_drop]
  omega

/-- The text of two templates is that of the first and then that of the second. -/
theorem join_chunks_append :
    String.join (formatter.chunks (first ++ second) values) =
      String.join
          (formatter.chunks first
            (values.take (formatter.taken first values))) ++
        String.join
          (formatter.chunks second
            (values.drop (formatter.taken first values))) := by
  have events :
      formatter.rendering.text values 0
          (formatter.grammar.events (first ++ second)) =
        formatter.rendering.text values 0
          (formatter.grammar.events first ++
            formatter.grammar.events second) := by
    rw [← Rendering.text_letters, ← Rendering.text_letters _ _ _ (_ ++ _),
      formatter.grammar.letters_events_append first second whole,
      Event.letters_append]
  refine events.trans ?_
  rw [Rendering.text_append]
  -- either part finds its arguments among those that are handed to it
  refine congrArg₂ (· ++ ·) ?_ ?_
  · apply Rendering.text_congr
    intro count bound
    rw [Nat.zero_add]
    exact getElem?_take_min values bound
  · apply Rendering.text_congr
    intro count _
    rw [Nat.zero_add, Nat.zero_add]
    exact (getElem?_drop_min values _ count).1

/--
The observations of two templates are those of the first, and then those of the
second with every argument counted behind the ones that the first one took.
-/
theorem trace_append [MayBeError V] :
    formatter.trace (first ++ second) values =
      formatter.trace first
          (values.take (formatter.taken first values)) ++
        (formatter.trace second
          (values.drop (formatter.taken first values))).map
            (.shift (formatter.taken first values)) := by
  -- the first call gets no argument that it does not take
  have nothingLeft :
      leftoverErrors (values.take (formatter.taken first values))
          (formatter.taken first
            (values.take (formatter.taken first values))) = [] := by
    rw [leftoverErrors, List.drop_of_length_le]
    · rfl
    · simp only [taken, List.length_take]
      omega
  have front :
      ((formatter.requests first).zipIdx.flatMap
          fun (request, index) => formatter.told values index request) =
        ((formatter.requests first).zipIdx.flatMap
          fun (request, index) =>
            formatter.told (values.take (formatter.taken first values))
              index request).map (.shift 0) := by
    apply formatter.flatMap_told_congr
    intro count bound
    rw [Nat.zero_add]
    exact ⟨getElem?_take_min values bound, Or.inr rfl⟩
  have back :
      (((formatter.requests second).zipIdx
            (formatter.requests first).length).flatMap
          fun (request, index) => formatter.told values index request) =
        ((formatter.requests second).zipIdx.flatMap
          fun (request, index) =>
            formatter.told (values.drop (formatter.taken first values))
              index request).map (.shift (formatter.taken first values)) := by
    apply formatter.flatMap_told_congr
    intro count _
    rw [Nat.zero_add]
    exact getElem?_drop_min values _ count
  rw [trace, trace, trace, nothingLeft, List.append_nil,
    formatter.requests_append first second whole,
    formatter.taken_append first second whole, leftoverErrors_add,
    List.zipIdx_append, List.flatMap_append, List.map_append, Nat.zero_add,
    front, back, Observation.shift_zero, List.map_id, List.append_assoc]

end Formatter

end CaptureFormat
