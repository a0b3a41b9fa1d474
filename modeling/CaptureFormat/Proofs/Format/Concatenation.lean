import CaptureFormat.Captures
import CaptureFormat.Proofs.Format.Basic
import CaptureFormat.Proofs.Formatter.Concatenation
import CaptureFormat.Proofs.Template.Bare

namespace CaptureFormat

/-!
# Formatting templates behind each other

Formatting a template in two parts, the second with the arguments that the
first one leaves, gives the same text and the same captures as formatting it in
one call.  Positions in the second part count from its own first argument.

The first part must not end in a directive that was cut short, because the
second part could complete it.
-/

namespace Captures

/-- Captures, and behind them those of a call that counts its arguments from `offset` on. -/
def followedBy
    (first : Captures V)
    (offset : Nat)
    (second : Captures V) :
    Captures V where
  entries :=
    first.entries ++
      second.entries.map fun entry =>
        { entry with index := entry.index + offset }
  faults := first.faults ++ second.faults

theorem add_followedBy
    (first second : Captures V)
    (offset : Nat)
    (observation : Observation V) :
    (first.followedBy offset second).add (observation.shift offset) =
      first.followedBy offset (second.add observation) := by
  cases observation with
  | value field index argument =>
      simp [followedBy, add, Observation.shift]
  | fault directive reason =>
      simp [followedBy, add, Observation.shift]

/-- Observations of a later call are captured behind those of an earlier one. -/
theorem foldl_observe_shift
    (first : Captures V)
    (offset : Nat)
    (observations : List (Observation V)) :
    (observations.map (.shift offset)).foldl observer.observe first =
      first.followedBy offset (observations.foldl observer.observe {}) := by
  have behind :
      ∀ second,
        (observations.map (.shift offset)).foldl observer.observe
            (first.followedBy offset second) =
          first.followedBy offset
            (observations.foldl observer.observe second) := by
    induction observations with
    | nil =>
        exact fun _ => rfl
    | cons observation rest inductionHypothesis =>
        intro second
        have later := inductionHypothesis (second.add observation)
        rwa [← add_followedBy] at later
  have nothing : first.followedBy offset {} = first := by
    simp [followedBy]
  simpa only [nothing] using behind {}

end Captures

/--
Formatting two templates behind each other.

The first one is formatted with as many arguments as it takes, and the second
one with the others.  The text is the one text behind the other, the arguments
that are handed back are those of the second call, and the captures are those
of the first call and then those of the second, whose positions count on from
the arguments that the first one took.
-/
theorem format_append
    (first second : String)
    (values : List Value)
    (whole :
      ∀ asked,
        (Grammar.events {} first).getLast? ≠
            some (.fault asked .noVerb) ∧
          (Grammar.events {} first).getLast? ≠
            some (.fault asked .unclosed)) :
    let requests := (Grammar.events {} first).filterMap Event.request?
    let taken := min requests.length values.length
    let front := format Captures.observer {} first (values.take taken)
    let back := format Captures.observer {} second (values.drop taken)
    format Captures.observer {} (first ++ second) values =
      { text := front.text ++ back.text
        rest := back.rest
        observed := {
          entries :=
            front.observed.entries ++
              back.observed.entries.map fun entry =>
                { entry with index := entry.index + taken }
          faults := front.observed.faults ++ back.observed.faults } } := by
  intro requests taken front back
  let formatter := Formatter.standard (Captures.observer (V := Value))
  have endWhole : Event.EndWhole (formatter.grammar.events first) :=
    Event.endWhole_of_getLast?_ne whole
  have frontCall : front = _ := format_eq Captures.observer {} first _
  have backCall : back = _ := format_eq Captures.observer {} second _
  rw [format_eq, frontCall, backCall, Formatted.mk.injEq]
  refine
    ⟨formatter.join_chunks_append first second endWhole values, ?_, ?_⟩
  · have left := formatter.taken_append first second endWhole values
    refine (congrArg values.drop left).trans ?_
    rw [List.drop_drop, Nat.add_comm]
    rfl
  · have told := formatter.trace_append first second endWhole values
    refine (congrArg (List.foldl Captures.observer.observe {}) told).trans ?_
    rw [List.foldl_append]
    exact Captures.foldl_observe_shift _ _ _

/-- A name in front of a second template, with an error for an argument of it. -/
theorem format_append_named :
    (∀ asked,
        (Grammar.events {} "%\x7ba\x7d, ").getLast? ≠
            some (.fault asked .noVerb) ∧
          (Grammar.events {} "%\x7ba\x7d, ").getLast? ≠
            some (.fault asked .unclosed)) ∧
      let front :=
        format Captures.observer {} "%\x7ba\x7d, " [.uint 7]
      let back :=
        format Captures.observer {} "%d" [.error "lost", .error "late"]
      format Captures.observer {} ("%\x7ba\x7d, " ++ "%d")
          [.uint 7, .error "lost", .error "late"] =
        { text := front.text ++ back.text
          rest := back.rest
          observed := {
            entries :=
              front.observed.entries ++
                back.observed.entries.map fun entry =>
                  { entry with index := entry.index + 1 }
            faults := front.observed.faults ++ back.observed.faults } } := by
  have events :
      Grammar.events {} "%\x7ba\x7d, " =
        [.directive (.named "a" 'v'), .text ", "] := by
    have start :
        "%\x7ba\x7d, ".toList = '%' :: ['{', 'a', '}', ',', ' '] := by
      decide
    rw [Grammar.events, start, Grammar.eventsFrom_percent (by simp)]
    exact congrArg (_ :: ·) (Grammar.eventsFrom_literal (by decide))
  have whole :
      ∀ asked,
        (Grammar.events {} "%\x7ba\x7d, ").getLast? ≠
            some (.fault asked .noVerb) ∧
          (Grammar.events {} "%\x7ba\x7d, ").getLast? ≠
            some (.fault asked .unclosed) := by
    simp [events]
  refine ⟨whole, ?_⟩
  have joined :=
    format_append "%\x7ba\x7d, " "%d"
      [.uint 7, .error "lost", .error "late"] whole
  have requests :
      ((Grammar.events {} "%\x7ba\x7d, ").filterMap
        Event.request?).length = 1 := by
    rw [events]
    rfl
  simp only [requests] at joined
  exact joined

end CaptureFormat
