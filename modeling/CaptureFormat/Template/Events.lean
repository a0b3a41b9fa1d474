import CaptureFormat.Template.Segment

namespace CaptureFormat

/-!
# All events of a template

A reader goes through a template and gives out its events.  It reads a
directive along with the text in front of it and holds it back until the text
was given out.  This comes to an end, because every event that is not held
takes at least one character.
-/

/-- A place in a template, with the event that is held there. -/
structure Reader where
  rest : List Char
  held : Option Event := none
  deriving Repr, DecidableEq

/-- The number of characters and of held events before a reader. -/
def Reader.size (reader : Reader) : Nat :=
  reader.rest.length + reader.held.toList.length

namespace Grammar

/--
The next event of a template.  Literal text reaches up to the next directive,
or through the first of two percent signs.
-/
def next? (grammar : Grammar) (reader : Reader) : Option (Event × Reader) :=
  match reader.held with
  | some event => some (event, { rest := reader.rest })
  | none =>
      let literal := reader.rest.takeWhile (· != '%')
      match reader.rest.dropWhile (· != '%') with
      | [] =>
          if literal.isEmpty then
            none
          else
            some (.text (String.ofList literal), { rest := [] })
      | _ :: '%' :: rest => some (.text (String.ofList (literal ++ ['%'])), { rest })
      | _ :: afterPercent =>
          let (event, rest) := grammar.readDirective afterPercent
          if literal.isEmpty then
            some (event, { rest })
          else
            some (.text (String.ofList literal), { rest, held := some event })

/-- Every step takes a character or the event that is held. -/
theorem size_lt_of_next?
    {grammar : Grammar}
    {reader after : Reader}
    {event : Event}
    (read : grammar.next? reader = some (event, after)) :
    after.size < reader.size := by
  rcases reader with ⟨text, held⟩
  cases held with
  | some held =>
      cases read
      simp [Reader.size]
  | none =>
      have lengths :
          (text.takeWhile (· != '%')).length +
            (text.dropWhile (· != '%')).length = text.length := by
        rw [← List.length_append, List.takeWhile_append_dropWhile]
      simp only [next?] at read
      split at read
      · next noPercent =>
          rw [noPercent, List.length_nil] at lengths
          split at read
          · cases read
          · next literal =>
              cases read
              have nonempty := List.length_pos_iff.mpr (mt List.isEmpty_iff.mpr literal)
              simp only [Reader.size, Option.toList_none, List.length_nil]
              omega
      · next percents =>
          cases read
          rw [percents, List.length_cons, List.length_cons] at lengths
          simp only [Reader.size]
          omega
      · next percent afterPercent _ behind =>
          have suffix := (readDirective_suffix grammar afterPercent).length_le
          rw [behind, List.length_cons] at lengths
          split at read
          · cases read
            simp only [Reader.size]
            omega
          · next literal =>
              cases read
              have nonempty := List.length_pos_iff.mpr (mt List.isEmpty_iff.mpr literal)
              simp only [Reader.size, Option.toList_some, Option.toList_none,
                List.length_cons, List.length_nil]
              omega

/-- The events that a reader gives out, in order. -/
def eventsFrom (grammar : Grammar) (reader : Reader) : List Event :=
  match _read : grammar.next? reader with
  | none => []
  | some (event, after) => event :: grammar.eventsFrom after
  termination_by reader.size
  decreasing_by exact size_lt_of_next? _read

/-- All events of a template, in order. -/
def events (grammar : Grammar) (template : String) : List Event :=
  grammar.eventsFrom { rest := template.toList }

/-- Without a character or an event that is held, there is nothing to give out. -/
@[simp]
theorem eventsFrom_nil (grammar : Grammar) : grammar.eventsFrom { rest := [] } = [] := by
  rw [eventsFrom]
  rfl

/-- An event is followed by those that its reader gives out behind it. -/
theorem eventsFrom_of_next?
    {grammar : Grammar}
    {reader after : Reader}
    {event : Event}
    (read : grammar.next? reader = some (event, after)) :
    grammar.eventsFrom reader = event :: grammar.eventsFrom after := by
  rw [eventsFrom]
  split
  · next noEvent =>
      rw [noEvent] at read
      cases read
  · next first behind firstRead =>
      rw [firstRead] at read
      cases read
      rfl

end Grammar

end CaptureFormat
