import CaptureFormat.Proofs.Template.Delimitation
import CaptureFormat.Proofs.Template.Reading

namespace CaptureFormat

/-!
# Templates behind each other

A template that was not cut short has its events in front of any other.  Only
literal text at its end may run into literal text behind it, and then the two
are one event.  `Event.letters` takes text apart into characters, so that
nothing tells any longer where one text ends and the next one starts.
-/

namespace Event

/-- Events with all text taken apart into its characters. -/
def letters (events : List Event) : List Event :=
  events.flatMap fun
    | .text content =>
        content.toList.map fun character =>
          .text (String.singleton character)
    | event => [event]

theorem letters_append (first second : List Event) :
    letters (first ++ second) = letters first ++ letters second :=
  List.flatMap_append

theorem letters_cons (event : Event) (rest : List Event) :
    letters (event :: rest) = letters [event] ++ letters rest :=
  letters_append [event] rest

theorem letters_append_cons
    (front : List Event)
    (event : Event)
    (rest : List Event) :
    letters (front ++ event :: rest) =
      letters (front ++ [event]) ++ letters rest := by
  rw [← letters_append, List.append_assoc, List.singleton_append]

theorem letters_cons_text (run : List Char) (rest : List Event) :
    letters (.text (String.ofList run) :: rest) =
      (run.map fun character => .text (String.singleton character)) ++
        letters rest := by
  simp [letters]

theorem letters_ofLiteral (run : List Char) :
    letters (ofLiteral run) =
      run.map fun character => .text (String.singleton character) := by
  by_cases empty : run = []
  · subst run
    rfl
  · rw [ofLiteral_of_ne_nil empty, letters_cons_text]
    exact List.append_nil _

/-- No event at the end says that the template ended too early. -/
def EndWhole (events : List Event) : Prop :=
  ∀ event ∈ events.getLast?, event.isCutShort = false

theorem EndWhole.of_append
    {front events : List Event}
    (whole : EndWhole (front ++ events)) :
    EndWhole events := by
  intro event isLast
  apply whole
  rw [List.getLast?_append, Option.mem_def.mp isLast]
  rfl

theorem EndWhole.of_cons
    {event : Event}
    {events : List Event}
    (whole : EndWhole (event :: events)) :
    EndWhole events :=
  of_append (show EndWhole ([event] ++ events) from whole)

theorem endWhole_of_getLast?_ne
    {events : List Event}
    (whole :
      ∀ asked,
        events.getLast? ≠ some (.fault asked .noVerb) ∧
          events.getLast? ≠ some (.fault asked .unclosed)) :
    EndWhole events := by
  intro event isLast
  rw [Option.mem_def] at isLast
  cases event with
  | text content =>
      rfl
  | directive asked =>
      rfl
  | fault asked reason =>
      cases reason with
      | noVerb =>
          exact absurd isLast (whole asked).1
      | unclosed =>
          exact absurd isLast (whole asked).2
      | invalidVerb =>
          rfl
      | unnamed =>
          rfl
      | missingArgument =>
          rfl

theorem requests_letters (events : List Event) :
    (letters events).filterMap request? = events.filterMap request? := by
  induction events with
  | nil =>
      rfl
  | cons event rest inductionHypothesis =>
      rw [letters_cons, List.filterMap_append, inductionHypothesis]
      cases event with
      | text content =>
          have silent :
              (letters [.text content]).filterMap request? = [] := by
            rw [List.filterMap_eq_nil_iff]
            simp [letters, request?]
          rw [silent]
          rfl
      | directive asked =>
          rfl
      | fault asked reason =>
          rfl

/-- Events behind others are numbered from the number of requests in front of them. -/
theorem number_append
    (index : Nat)
    (first second : List Event) :
    number index (first ++ second) =
      number index first ++
        number (index + (first.filterMap request?).length) second := by
  induction first generalizing index with
  | nil =>
      rfl
  | cons event rest inductionHypothesis =>
      cases asked : event.request? with
      | none =>
          simp [number, asks, asked, inductionHypothesis]
      | some request =>
          simp [number, asks, asked, inductionHypothesis, Nat.add_comm,
            Nat.add_left_comm]

end Event

namespace Grammar

variable {grammar : Grammar}

/-- Literal text in front of a template may become one event with text of it. -/
theorem letters_eventsFrom_literal_append
    (grammar : Grammar)
    {run : List Char}
    (literal : '%' ∉ run)
    (more : List Char) :
    Event.letters (grammar.eventsFrom { rest := run ++ more }) =
      Event.letters (Event.ofLiteral run) ++
        Event.letters (grammar.eventsFrom { rest := more }) := by
  have reads := grammar.reads_eventsFrom more
  have longer :
      ∀ {later}, '%' ∉ later → '%' ∉ run ++ later := by
    intro later laterLiteral member
    rcases List.mem_append.mp member with inRun | inLater
    · exact literal inRun
    · exact laterLiteral inLater
  generalize grammar.eventsFrom { rest := more } = events at reads ⊢
  -- whatever `more` starts with, the run joins the literal text in front of it
  cases reads with
  | literal laterLiteral =>
      rw [eventsFrom_literal (longer laterLiteral)]
      simp only [Event.letters_ofLiteral, List.map_append]
  | @escaped later rest events laterLiteral reads =>
      rw [← List.append_assoc, eventsFrom_escaped (longer laterLiteral),
        reads.eventsFrom_eq]
      simp only [Event.letters_ofLiteral, Event.letters_cons_text,
        List.map_append, List.append_assoc]
  | @directive later afterPercent events laterLiteral single reads =>
      rw [← List.append_assoc,
        eventsFrom_directive (longer laterLiteral) single,
        reads.eventsFrom_eq]
      simp only [Event.letters_append, Event.letters_ofLiteral,
        List.map_append, List.append_assoc]

/-- A directive that was not cut short is read in the same way whatever follows it. -/
theorem readDirective_append
    (grammar : Grammar)
    {text : List Char}
    (whole : (grammar.readDirective text).1.isCutShort = false)
    (more : List Char) :
    grammar.readDirective (text ++ more) =
      ((grammar.readDirective text).1,
        (grammar.readDirective text).2 ++ more) := by
  obtain ⟨taken, delimits⟩ := grammar.delimitsItself_readDirective text
  have shape :
      text ++ more = taken ++ ((grammar.readDirective text).2 ++ more) := by
    rw [← List.append_assoc, ← delimits.split]
  rw [shape, delimits.again (Or.inr whole)]

/-- A directive that was cut short is the last event, so it stands at the end. -/
theorem isCutShort_of_endWhole
    {text : List Char}
    {events : List Event}
    (reads : grammar.Reads (grammar.readDirective text).2 events)
    (whole : Event.EndWhole ((grammar.readDirective text).1 :: events)) :
    (grammar.readDirective text).1.isCutShort = false := by
  by_contra cut
  obtain ⟨taken, delimits⟩ := grammar.delimitsItself_readDirective text
  rw [delimits.final (eq_true_of_ne_false cut)] at reads
  obtain rfl : events = [] :=
    reads.eventsFrom_eq.symm.trans (eventsFrom_nil grammar)
  exact cut (whole _ rfl)

/-- The percent sign of a directive that was not cut short does not meet another one. -/
theorem single_append
    {text : List Char}
    (single : ∀ rest, text ≠ '%' :: rest)
    (whole : (grammar.readDirective text).1.isCutShort = false)
    (more rest : List Char) :
    text ++ more ≠ '%' :: rest := by
  obtain ⟨taken, delimits⟩ := grammar.delimitsItself_readDirective text
  intro shape
  cases text with
  | nil =>
      rw [delimits.starved rfl] at whole
      cases whole
  | cons first others =>
      obtain rfl := (List.cons.inj shape).1
      exact single others rfl

/-- A template that was not cut short is read in the same way whatever follows it. -/
theorem letters_eventsFrom_append
    {first : List Char}
    {events : List Event}
    (reads : grammar.Reads first events)
    (whole : Event.EndWhole events)
    (second : List Char) :
    Event.letters (grammar.eventsFrom { rest := first ++ second }) =
      Event.letters events ++
        Event.letters (grammar.eventsFrom { rest := second }) := by
  -- on the first template: only its last event can meet the second one
  induction reads with
  | literal literal =>
      exact grammar.letters_eventsFrom_literal_append literal second
  | @escaped run rest events literal _ inductionHypothesis =>
      have later := inductionHypothesis whole.of_cons
      rw [List.append_assoc, List.cons_append, List.cons_append,
        eventsFrom_escaped literal]
      simp only [Event.letters_cons_text, later, List.append_assoc]
  | @directive run afterPercent events literal single reads
      inductionHypothesis =>
      have behindWhole : Event.EndWhole (_ :: events) := whole.of_append
      have later := inductionHypothesis behindWhole.of_cons
      have readWhole := isCutShort_of_endWhole reads behindWhole
      have stillSingle := single_append single readWhole second
      rw [List.append_assoc, List.cons_append,
        eventsFrom_directive literal stillSingle,
        grammar.readDirective_append readWhole, Event.letters_append_cons,
        later, Event.letters_append_cons _ _ events, List.append_assoc]

/--
The events of a template that was not cut short stand in front of those of the
template behind it.
-/
theorem letters_events_append
    (grammar : Grammar)
    (first second : String)
    (whole : Event.EndWhole (grammar.events first)) :
    Event.letters (grammar.events (first ++ second)) =
      Event.letters (grammar.events first) ++
        Event.letters (grammar.events second) := by
  rw [events, String.toList_append]
  exact letters_eventsFrom_append (grammar.reads_eventsFrom first.toList)
    whole second.toList

end Grammar

end CaptureFormat
