import CaptureFormat.Proofs.Template.Delimitation
import CaptureFormat.Proofs.Template.Reading
import Mathlib.Data.List.Forall2

namespace CaptureFormat

/-!
# Segments of a template

A template is cut into segments, one for each event, so that no character is
lost, none is read twice, and every event can be read from its own segment
alone.
-/

/--
What the segment of an event looks like.  Text stands for itself, but for two
percent signs at its end that stand for one; all else starts at a percent
sign.
-/
def Event.SpelledBy (segment : List Char) : Event → Prop
  | .text content =>
      content ≠ "" ∧
        (content.toList = segment ∧ '%' ∉ segment ∨
          ∃ run,
            '%' ∉ run ∧
              segment = run ++ ['%', '%'] ∧
              content.toList = run ++ ['%'])
  | _ => segment.head? = some '%'

namespace Grammar

variable {grammar : Grammar}

/-- An event is the only one of its segment, read alone. -/
structure Segment
    (grammar : Grammar)
    (segment : List Char)
    (event : Event) : Prop where
  nonempty : segment ≠ []
  alone : grammar.Reads segment [event]
  spelled : event.SpelledBy segment

/-- Literal text up to the next percent sign is a segment. -/
theorem segment_literal
    {run : List Char}
    (literal : '%' ∉ run)
    (nonempty : run ≠ []) :
    grammar.Segment run (.text (String.ofList run)) where
  nonempty := nonempty
  alone := by
    rw [← Event.ofLiteral_of_ne_nil nonempty]
    exact .literal literal
  spelled := by
    simp [Event.SpelledBy, literal, nonempty]

/-- Literal text with two percent signs behind it is a segment. -/
theorem segment_escaped
    {run : List Char}
    (literal : '%' ∉ run) :
    grammar.Segment (run ++ ['%', '%'])
      (.text (String.ofList (run ++ ['%']))) where
  nonempty := by simp
  alone := .escaped literal (.literal List.not_mem_nil)
  spelled := by
    simp [Event.SpelledBy, literal]

/-- A percent sign and what its directive takes are a segment. -/
theorem segment_directive
    {afterPercent taken : List Char}
    (single : ∀ rest, afterPercent ≠ '%' :: rest)
    (delimits : Delimits grammar.readDirective afterPercent taken) :
    grammar.Segment ('%' :: taken)
      (grammar.readDirective afterPercent).1 where
  nonempty := by simp
  alone := by
    have takenSingle : ∀ rest, taken ≠ '%' :: rest := by
      rintro rest rfl
      exact single _ delimits.split
    have again :
        grammar.readDirective taken =
          ((grammar.readDirective afterPercent).1, []) := by
      rw [← delimits.again (Or.inl rfl), List.append_nil]
    have nothingLeft :
        grammar.Reads (grammar.readDirective taken).2 [] := by
      rw [again]
      exact .literal List.not_mem_nil
    have reads :=
      Reads.directive List.not_mem_nil takenSingle nothingLeft
    rwa [again] at reads
  spelled := by
    have asks := delimits.asks
    generalize (grammar.readDirective afterPercent).1 = event at asks ⊢
    cases event with
    | text content =>
        cases asks
    | directive asked =>
        rfl
    | fault asked reason =>
        rfl

private theorem exists_segments_ofLiteral
    (grammar : Grammar)
    {run : List Char}
    (literal : '%' ∉ run) :
    ∃ segments : List (List Char),
      segments.flatten = run ∧
        List.Forall₂ grammar.Segment segments
          (Event.ofLiteral run) := by
  by_cases empty : run = []
  · subst run
    exact ⟨[], rfl, .nil⟩
  · rw [Event.ofLiteral_of_ne_nil empty]
    exact ⟨[run], by simp, .cons (segment_literal literal empty) .nil⟩

/-- A text is cut into segments, one for each event. -/
theorem exists_segments_of_reads
    {text : List Char}
    {events : List Event}
    (reads : grammar.Reads text events) :
    ∃ segments : List (List Char),
      segments.flatten = text ∧
        List.Forall₂ grammar.Segment segments events := by
  induction reads with
  | literal literal =>
      exact grammar.exists_segments_ofLiteral literal
  | @escaped run rest events literal _ inductionHypothesis =>
      obtain ⟨segments, split, areSegments⟩ := inductionHypothesis
      refine
        ⟨(run ++ ['%', '%']) :: segments, ?_,
          .cons (segment_escaped literal) areSegments⟩
      rw [List.flatten_cons, split, List.append_assoc]
      rfl
  | @directive run afterPercent events literal single _ inductionHypothesis =>
      obtain ⟨front, frontSplit, frontSegments⟩ :=
        grammar.exists_segments_ofLiteral literal
      obtain ⟨segments, split, areSegments⟩ := inductionHypothesis
      obtain ⟨taken, delimits⟩ :=
        grammar.delimitsItself_readDirective afterPercent
      refine
        ⟨front ++ ('%' :: taken) :: segments, ?_,
          List.rel_append frontSegments
            (.cons (segment_directive single delimits) areSegments)⟩
      rw [List.flatten_append, frontSplit, List.flatten_cons, split,
        List.cons_append, ← delimits.split]

private theorem length_le_flatten
    {segments : List (List Char)}
    {events : List Event}
    (areSegments : List.Forall₂ grammar.Segment segments events) :
    events.length ≤ segments.flatten.length := by
  induction areSegments with
  | nil =>
      exact Nat.le_refl 0
  | cons isSegment _ inductionHypothesis =>
      have progress := List.length_pos_of_ne_nil isSegment.nonempty
      rw [List.flatten_cons, List.length_append, List.length_cons]
      omega

/--
A template is cut into segments that are not empty, one for each event.  Each
event is the only event of its segment, read alone, and is spelled by it.
-/
theorem exists_segments
    (grammar : Grammar)
    (template : String) :
    (∃ segments : List String,
      String.join segments = template ∧
        List.Forall₂
          (fun segment event =>
            segment ≠ "" ∧
              grammar.events segment = [event] ∧
              event.SpelledBy segment.toList)
          segments
          (grammar.events template)) ∧
      (grammar.events template).length ≤ template.length := by
  obtain ⟨segments, split, areSegments⟩ :=
    exists_segments_of_reads (grammar.reads_eventsFrom template.toList)
  refine ⟨⟨segments.map String.ofList, ?_, ?_⟩, ?_⟩
  · rw [← String.toList_inj, String.toList_join, List.flatMap_map]
    simp only [String.toList_ofList, List.flatMap_id', split]
  · rw [List.forall₂_map_left_iff]
    refine areSegments.imp fun segment event isSegment => ?_
    refine ⟨?_, ?_, ?_⟩
    · intro empty
      apply isSegment.nonempty
      rw [← String.toList_ofList (l := segment), empty]
      rfl
    · rw [events, String.toList_ofList]
      exact isSegment.alone.eventsFrom_eq
    · rw [String.toList_ofList]
      exact isSegment.spelled
  · rw [← String.length_toList, ← split]
    exact length_le_flatten areSegments

end Grammar

end CaptureFormat
