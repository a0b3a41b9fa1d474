import CaptureFormat.Proofs.Formatter.Observations
import CaptureFormat.Proofs.Output.Delivery

namespace CaptureFormat

/-!
# What a run writes

A run tries one write for each event of its template, in order, and each is
the text of that event alone.  What the destination makes of them is a
delivery: the first refusal is the last call that reaches it, and an output
that has failed before reaches it with none.
-/

namespace Formatter

/-- The output of a run is the given one after all chunks were tried on it. -/
theorem output_run_eq_writeEach [Destination σ] [MayBeError V]
    (formatter : Formatter κ V)
    (template : String)
    (values : List V)
    (observed : κ)
    (output : Output σ) :
    (formatter.run template values observed output).output =
      output.writeEach
        ((formatter.chunks template values).map Write.text) := by
  rw [(formatter.run_reached template values observed output).output,
    Output.writeEach, List.foldl_map]
  rfl

/--
The writes of a run.

One text for each event is tried on the output, and `Delivers` says what
becomes of them: an output that has failed is left as it is, and any other
hands them to its destination up to the first that is refused.  A watched
destination notes exactly these calls.  If the run ends without a failure,
they hold the chunks and nothing else; if the output had failed before, the
run ends with that same failure.
-/
theorem delivers_run [Destination σ] [MayBeError V]
    (formatter : Formatter κ V)
    (template : String)
    (values : List V)
    (observed : κ)
    (output : Output σ) :
    ∃ calls,
      Delivers
          ((formatter.chunks template values).map Write.text)
          output calls
          (formatter.run template values observed output).output ∧
        (∀ earlier,
          (formatter.run template values observed
              (output.watch earlier)).output =
            (formatter.run template values observed output).output.watch
              (earlier ++ calls)) ∧
        ((formatter.run template values observed output).output.failure =
            none →
          calls.flatMap Write.payload =
            bytesOf (formatter.chunks template values)) ∧
        ∀ error,
          output.failure = some error →
          calls = [] ∧
            (formatter.run template values observed output).result =
              .error {
                rest := values.drop (formatter.taken template values)
                error
              } := by
  obtain ⟨calls, delivers⟩ :=
    exists_delivers output
      ((formatter.chunks template values).map Write.text)
  rw [← output_run_eq_writeEach formatter template values observed]
    at delivers
  refine ⟨calls, delivers, ?_, ?_, ?_⟩
  · intro earlier
    rw [output_run_eq_writeEach]
    exact (delivers.watched earlier).writeEach_eq
  · intro succeeded
    rw [delivers.calls_eq_of_failure_none succeeded,
      flatMap_payload_text]
  · intro error failed
    obtain ⟨silent, unchanged⟩ := delivers.eq_of_failure failed
    refine ⟨silent, ?_⟩
    rw [result_run, unchanged, failed]

end Formatter

end CaptureFormat
