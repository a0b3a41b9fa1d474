import CaptureFormat.Proofs.Format.Basic
import CaptureFormat.Proofs.Formatter.Concatenation

namespace CaptureFormat

/-!
# Escaped text

A text stands for itself in a template once its percent signs are doubled.
The signs are paired from the left, so a doubled one never pairs with a sign
behind it: whatever the rest of the template starts with is read as if nothing
stood in front of it.
-/

/-- Characters with every percent sign doubled. -/
def escapePercents (characters : List Char) : List Char :=
  characters.flatMap fun character =>
    if character = '%' then ['%', '%'] else [character]

/-- A text with every percent sign doubled, as a template that stands for it. -/
def escapedTemplate (text : String) : String :=
  String.ofList (escapePercents text.toList)

theorem escapePercents_cons_percent (rest : List Char) :
    escapePercents ('%' :: rest) = '%' :: '%' :: escapePercents rest :=
  rfl

theorem escapePercents_cons_of_ne
    {first : Char}
    (literal : first ≠ '%')
    (rest : List Char) :
    escapePercents (first :: rest) = first :: escapePercents rest := by
  rw [escapePercents, List.flatMap_cons, if_neg literal]
  rfl

theorem Event.requests_characters (characters : List Char) :
    (characters.map fun character =>
        text (String.singleton character)).filterMap request? = [] := by
  simp [List.filterMap_eq_nil_iff, request?]

namespace Grammar

/-- Escaped text is read back character by character, in front of any template. -/
theorem letters_eventsFrom_escapePercents
    (grammar : Grammar)
    (characters more : List Char) :
    Event.letters
        (grammar.eventsFrom
          { rest := escapePercents characters ++ more }) =
      (characters.map fun character =>
          .text (String.singleton character)) ++
        Event.letters (grammar.eventsFrom { rest := more }) := by
  induction characters with
  | nil =>
      rfl
  | cons first rest inductionHypothesis =>
      rw [List.map_cons, List.cons_append, ← inductionHypothesis]
      by_cases percent : first = '%'
      · -- the pair is an event of its own, and reading goes on behind it
        subst percent
        rw [escapePercents_cons_percent]
        have paired :
            grammar.eventsFrom
                { rest := '%' :: '%' :: (escapePercents rest ++ more) } =
              .text (String.ofList ['%']) ::
                grammar.eventsFrom
                  { rest := escapePercents rest ++ more } :=
          eventsFrom_escaped (List.not_mem_nil (a := '%')) _
        exact (congrArg Event.letters paired).trans (Event.letters_cons_text _ _)
      · have literal : '%' ∉ [first] := by
          simpa using Ne.symm percent
        have joined :=
          grammar.letters_eventsFrom_literal_append literal
            (escapePercents rest ++ more)
        rwa [Event.letters_ofLiteral, List.singleton_append,
          ← List.cons_append, ← escapePercents_cons_of_ne percent] at joined

/-- Escaped text is literal text in front of the events of the template behind it. -/
theorem letters_events_escapedTemplate_append
    (grammar : Grammar)
    (text template : String) :
    Event.letters (grammar.events (escapedTemplate text ++ template)) =
      (text.toList.map fun character =>
          .text (String.singleton character)) ++
        Event.letters (grammar.events template) := by
  rw [events, String.toList_append, escapedTemplate, String.toList_ofList]
  exact
    grammar.letters_eventsFrom_escapePercents text.toList template.toList

end Grammar

namespace Formatter

variable
  (formatter : Formatter κ V)
  (text template : String)
  (values : List V)

/-- Escaped text requests nothing. -/
theorem requests_escapedTemplate_append :
    formatter.requests (escapedTemplate text ++ template) =
      formatter.requests template := by
  rw [requests, events_eq, ← Event.requests_letters,
    formatter.grammar.letters_events_escapedTemplate_append,
    List.filterMap_append, Event.requests_characters, List.nil_append,
    Event.requests_letters]
  rfl

theorem taken_escapedTemplate_append :
    formatter.taken (escapedTemplate text ++ template) values =
      formatter.taken template values := by
  rw [taken, requests_escapedTemplate_append]
  rfl

theorem trace_escapedTemplate_append [MayBeError V] :
    formatter.trace (escapedTemplate text ++ template) values =
      formatter.trace template values := by
  rw [trace, requests_escapedTemplate_append, taken_escapedTemplate_append]
  rfl

/-- The chunks of a template with escaped text in front have that text in front. -/
theorem join_chunks_escapedTemplate_append :
    String.join
        (formatter.chunks (escapedTemplate text ++ template) values) =
      text ++ String.join (formatter.chunks template values) := by
  have joined :
      formatter.rendering.text values 0
          (formatter.grammar.events (escapedTemplate text ++ template)) =
        text ++
          formatter.rendering.text values 0
            (formatter.grammar.events template) := by
    rw [← Rendering.text_letters,
      formatter.grammar.letters_events_escapedTemplate_append,
      Rendering.text_append, Rendering.text_characters,
      Event.requests_characters, String.ofList_toList,
      Rendering.text_letters]
    rfl
  exact joined

end Formatter

/--
Escaped text in front of a template.

The text comes out as it was before its percent signs were doubled, and
nothing else changes: the template behind it gets the same arguments, tells any
observer the same, and leaves the same arguments.  With nothing behind it, no
argument is taken, and only the errors among them are reported.
-/
theorem format_escapedTemplate_append
    (observer : Observer κ Value)
    (observed : κ)
    (text template : String)
    (values : List Value) :
    format observer observed (escapedTemplate text ++ template) values =
        { format observer observed template values with
          text :=
            text ++ (format observer observed template values).text } ∧
      format observer observed (escapedTemplate text) values =
        { text
          rest := values
          observed :=
            (leftoverErrors values 0).foldl observer.observe observed } := by
  have front :
      ∀ template,
        format observer observed (escapedTemplate text ++ template) values =
          { format observer observed template values with
            text :=
              text ++
                (format observer observed template values).text } := by
    intro template
    simp only [format_eq, Formatter.join_chunks_escapedTemplate_append,
      Formatter.taken_escapedTemplate_append,
      Formatter.trace_escapedTemplate_append]
  refine ⟨front template, ?_⟩
  have alone := front ""
  have nothing :
      format observer observed "" values =
        { text := ""
          rest := values
          observed :=
            (leftoverErrors values 0).foldl observer.observe observed } := by
    have noEvents :
        (Formatter.standard observer).grammar.events "" = [] :=
      Grammar.eventsFrom_nil _
    simp [format_eq, Formatter.chunks, Formatter.taken, Formatter.trace,
      Formatter.requests, Formatter.events_eq, noEvents, Event.number,
      String.join]
  rw [nothing] at alone
  simpa only [String.append_empty] using alone

end CaptureFormat
