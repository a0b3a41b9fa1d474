import CaptureFormat.Proofs.Formatter.Course

namespace CaptureFormat

/-!
# What an observer is told

The observations of a run form a list that is known before the run starts:
those of each request in order, and then the errors among the arguments that
no request took.  Neither the destination nor a failure to print has any part
in it.
-/

/-- The errors among the arguments from position `taken` on, each with its position. -/
def leftoverErrors [MayBeError V]
    (values : List V)
    (taken : Nat) :
    List (Observation V) :=
  ((values.drop taken).zipIdx taken).filterMap fun (value, index) =>
    if MayBeError.isError value then
      some (.value "" index value)
    else
      none

/-- Counting no further than there are arguments leaves the same arguments. -/
theorem Arguments.after_min
    (values : List V)
    (count : Nat) :
    after values (min count values.length) = after values count := by
  rcases Nat.le_total count values.length with enough | exhausted
  · rw [Nat.min_eq_left enough]
  · simp only [after, Nat.min_eq_right exhausted, Nat.min_self,
      List.drop_length, List.drop_of_length_le exhausted]

namespace Formatter

/-- The number of arguments that the requests of a template take. -/
def taken
    (formatter : Formatter κ V)
    (template : String)
    (values : List V) :
    Nat :=
  min (formatter.requests template).length values.length

/-- All observations of a run, in order. -/
def trace [MayBeError V]
    (formatter : Formatter κ V)
    (template : String)
    (values : List V) :
    List (Observation V) :=
  ((formatter.requests template).zipIdx.flatMap
      fun (request, index) => formatter.told values index request) ++
    leftoverErrors values (formatter.taken template values)

private theorem leftovers_after [MayBeError V]
    {values : List V}
    {count : Nat}
    (enough : count ≤ values.length) :
    leftovers (.after values count) = leftoverErrors values count := by
  simp only [leftovers, Arguments.indexed, Arguments.after,
    Nat.min_eq_left enough, leftoverErrors,
    ← List.filterMap_eq_filter, List.map_filterMap]
  congr 1
  funext entry
  by_cases isError : MayBeError.isError entry.1 = true <;>
    simp [Option.guard, isError]

/-- The whole of a run: what was taken, what was told, and what was written. -/
theorem run_reached [Destination σ] [MayBeError V]
    (formatter : Formatter κ V)
    (template : String)
    (values : List V)
    (observed : κ)
    (output : Output σ) :
    (formatter.run template values observed output).Reached values
      (formatter.taken template values)
      ((formatter.trace template values).foldl
        formatter.observer.observe observed)
      ((formatter.chunks template values).foldl
        Output.writeText output) := by
  have enough : formatter.taken template values ≤ values.length :=
    Nat.min_le_right _ _
  have start :
      Progress.Reached values 0 observed output
        { arguments := .ofList values, observed, output } :=
    ⟨(Arguments.after_zero values).symm, rfl, rfl⟩
  obtain ⟨left, told, written⟩ :=
    formatter.foldl_step_reached start
      (formatter.grammar.events template)
  -- counting stops where the arguments end
  rw [Nat.zero_add, ← Arguments.after_min] at left
  change _ = Arguments.after values (formatter.taken template values)
    at left
  refine ⟨left, ?_, written⟩
  unfold run
  simp only [Progress.tell_eq, left, leftovers_after enough, told, trace,
    requests, events_eq, List.foldl_append]

/-- A run hands back the arguments that were not taken, also along with a failure. -/
theorem result_run [Destination σ] [MayBeError V]
    (formatter : Formatter κ V)
    (template : String)
    (values : List V)
    (observed : κ)
    (output : Output σ) :
    (formatter.run template values observed output).result =
      match (formatter.run template values observed output).output.failure with
      | none => .ok (values.drop (formatter.taken template values))
      | some error =>
          .error {
            rest := values.drop (formatter.taken template values)
            error
          } := by
  have left :=
    (formatter.run_reached template values observed output).arguments
  unfold Progress.result
  rw [left]
  rfl

/--
What an observer is told in a run and which arguments the run leaves.

It is told those of `trace` one after the other, for every state in which the
output starts: each request in order, its fault in front of its argument, and
then the errors that are left.  The arguments that no request took are handed
back along with a failure to print just as without one.
-/
theorem observed_run [Destination σ] [MayBeError V]
    (formatter : Formatter κ V)
    (template : String)
    (values : List V)
    (observed : κ)
    (output : Output σ) :
    (formatter.run template values observed output).observed =
        (formatter.trace template values).foldl
          formatter.observer.observe observed ∧
      (formatter.run template values observed output).result =
        match (formatter.run template values observed output).output.failure with
        | none => .ok (values.drop (formatter.taken template values))
        | some error =>
            .error {
              rest := values.drop (formatter.taken template values)
              error
            } := by
  exact
    ⟨(formatter.run_reached template values observed output).observed,
      formatter.result_run template values observed output⟩

end Formatter

end CaptureFormat
