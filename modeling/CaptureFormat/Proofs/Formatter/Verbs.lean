import CaptureFormat.Captures
import CaptureFormat.Proofs.Formatter.Chunks
import CaptureFormat.Proofs.Template.Verbs

namespace CaptureFormat.Formatter

/-!
# Verbs that a rendering is asked for

A run renders arguments for the directives of its template only.  So it makes
no difference to a run how arguments are rendered for anything that the grammar
does not grant.  What the grammar grants is a supported verb, or the verb of
values in a block without a body.
-/

/-- The same formatter with another way to turn arguments into text. -/
def withRender
    (formatter : Formatter κ V)
    (render : Directive → V → String) :
    Formatter κ V :=
  { formatter with rendering := { formatter.rendering with render } }

/-- An event is worked off in the same way if its directive is rendered in the same way. -/
theorem step_withRender [Destination σ]
    (formatter : Formatter κ V)
    {render : Directive → V → String}
    {event : Event}
    (agree :
      ∀ asked,
        event = .directive asked →
        ∀ value, render asked value = formatter.rendering.render asked value)
    (progress : Progress σ κ V) :
    (formatter.withRender render).step progress event =
      formatter.step progress event := by
  cases event with
  | text content =>
      rfl
  | directive asked =>
      simp only [step, runDirective]
      split
      · rfl
      · simp only [withRender, agree asked rfl]
        rfl
  | fault asked reason =>
      rfl

/-- Only the rendering of granted directives has a part in a run. -/
theorem run_withRender [Destination σ] [MayBeError V]
    (formatter : Formatter κ V)
    {render : Directive → V → String}
    (agree :
      ∀ asked,
        formatter.grammar.Grants asked →
        ∀ value, render asked value = formatter.rendering.render asked value)
    (template : String)
    (values : List V)
    (observed : κ)
    (output : Output σ) :
    (formatter.withRender render).run template values observed output =
      formatter.run template values observed output := by
  have sameStep :
      ∀ progress : Progress σ κ V,
        ∀ event ∈ formatter.grammar.events template,
          (formatter.withRender render).step progress event =
            formatter.step progress event := by
    intro progress event member
    apply formatter.step_withRender
    rintro asked rfl
    exact agree asked (formatter.grammar.grants_of_mem_events member)
  have sameEvents :=
    List.foldl_ext (formatter.withRender render).step formatter.step
      { arguments := .ofList values, observed, output } sameStep
  unfold run
  exact
    congrArg
      (fun done : Progress σ κ V =>
        done.tell formatter.observer (leftovers done.arguments))
      sameEvents

/-- A field name alone has its argument rendered for the verb `v`. -/
theorem destination_run_name [MayBeError V]
    (formatter : Formatter κ V)
    (value : V)
    (observed : κ) :
    (formatter.run "%\x7ba\x7d" [value] observed
        (Output.ofDestination "")).output.destination =
      formatter.rendering.render (.named "a" 'v') value := by
  have chunks :
      formatter.chunks "%\x7ba\x7d" [value] =
        [formatter.rendering.render (.named "a" 'v') value] := by
    rw [Formatter.chunks, events_eq, Grammar.events_name]
    rfl
  rw [output_run_eq_writeEach, chunks]
  exact String.empty_append

/--
The verbs that arguments are rendered for.

All directives of a template are granted, and no others are rendered: however
the rendering behaves elsewhere, a run is the same.  Granted are the supported
verbs and, in a block without a body, the verb `v`.  So all verbs of all
templates are supported if `v` is, and only then; otherwise a field name alone
has its argument rendered for a verb that the rendering does not take.
-/
theorem rendered_verbs [MayBeError V]
    (formatter : Formatter κ V) :
    (∀ template asked,
        .directive asked ∈ formatter.grammar.events template →
        formatter.grammar.Grants asked) ∧
      (∀ render : Directive → V → String,
        (∀ asked,
          formatter.grammar.Grants asked →
          ∀ value,
            render asked value = formatter.rendering.render asked value) →
        ∀ (σ : Type) [Destination σ] (template : String) (values : List V)
          (observed : κ) (output : Output σ),
          (formatter.withRender render).run template values observed
              output =
            formatter.run template values observed output) ∧
      ((∀ template asked,
          .directive asked ∈ formatter.grammar.events template →
          asked.verb ∈ formatter.rendering.verbs) ↔
        'v' ∈ formatter.rendering.verbs) ∧
      ∀ value observed,
        (formatter.run "%\x7ba\x7d" [value] observed
            (Output.ofDestination "")).output.destination =
          formatter.rendering.render (.named "a" 'v') value := by
  refine ⟨?_, ?_, formatter.grammar.forall_verb_mem_iff, ?_⟩
  · intro template asked member
    exact formatter.grammar.grants_of_mem_events member
  · intro render agree σ _ template values observed output
    exact formatter.run_withRender agree template values observed output
  · exact formatter.destination_run_name

/-- Where `d` alone is supported, nothing but `d` and `v` is rendered, and `v` is. -/
theorem rendered_verbs_decimal :
    let formatter : Formatter (Captures Value) Value := {
      rendering := Rendering.standard.withVerbs (.ofString "d")
      observer := Captures.observer }
    let render : Directive → Value → String := fun asked value =>
      if asked.verb ∈ VerbMask.ofString "d" ∨ asked.verb = 'v' then
        Standard.render asked value
      else
        ""
    (∀ asked,
        formatter.grammar.Grants asked →
        ∀ value,
          render asked value = formatter.rendering.render asked value) ∧
      (formatter.withRender render).run "%d %\x7ba\x7d %x"
          [.int 1, .bool true, .int 3] {} (Output.ofDestination "") =
        formatter.run "%d %\x7ba\x7d %x"
          [.int 1, .bool true, .int 3] {} (Output.ofDestination "") ∧
      (formatter.run "%\x7ba\x7d" [.bool true] {}
          (Output.ofDestination "")).output.destination = "true" := by
  intro formatter render
  have agree :
      ∀ asked,
        formatter.grammar.Grants asked →
        ∀ value,
          render asked value = formatter.rendering.render asked value := by
    rintro asked (supported | ⟨block, _, rfl⟩) value
    · exact if_pos (Or.inl supported)
    · exact if_pos (Or.inr rfl)
  obtain ⟨_, unaware, _, named⟩ := rendered_verbs formatter
  refine ⟨agree, unaware render agree _ _ _ _ _, ?_⟩
  exact (named (.bool true) {}).trans (by decide)

end CaptureFormat.Formatter
