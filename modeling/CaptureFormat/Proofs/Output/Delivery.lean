import CaptureFormat.Output
import Mathlib.Data.List.Basic

namespace CaptureFormat

/-!
# Delivery of writes

`Delivers` says what becomes of an output on which writes are tried one after
the other: which of them reach its destination, and what the output is in the
end.  It speaks of the destination's own answers only.

To see which calls reach a destination, it is watched.  A watched destination
answers like the one inside it and notes every call.
-/

/-- The bytes of several texts in one sequence. -/
def bytesOf (texts : List String) : List UInt8 :=
  Utf8.encode (String.join texts).toList

@[simp] theorem bytesOf_append (first second : List String) :
    bytesOf (first ++ second) = bytesOf first ++ bytesOf second := by
  simp [bytesOf, String.join_append]

/-- Texts with one more behind them are a beginning of all texts. -/
theorem bytesOf_append_cons (run rest : List String) (text : String) :
    bytesOf (run ++ text :: rest) =
      bytesOf (run ++ [text]) ++ bytesOf rest := by
  rw [← bytesOf_append, List.append_assoc, List.singleton_append]

/-- Texts written one after the other put all of their bytes into one sequence. -/
theorem flatMap_payload_text (texts : List String) :
    (texts.map Write.text).flatMap Write.payload = bytesOf texts := by
  induction texts with
  | nil =>
      rfl
  | cons text rest inductionHypothesis =>
      rw [List.map_cons, List.flatMap_cons, inductionHypothesis,
        bytesOf, bytesOf, String.join_cons, String.toList_append,
        Utf8.encode_append]
      rfl

/-- A destination accepts the writes one after the other and ends in the last state. -/
inductive Accepts [Destination σ] : σ → List Write → σ → Prop where
  | nil (state : σ) :
      Accepts state [] state
  | cons
      {write : Write}
      {rest : List Write}
      {state next final : σ} :
      write.send state = { state := next, refusal := none } →
      Accepts next rest final →
      Accepts state (write :: rest) final

/--
What becomes of an output on which `writes` are tried: `calls` are those that
reach its destination.
-/
inductive Delivers [Destination σ]
    (writes : List Write) :
    Output σ → List Write → Output σ → Prop where
  /-- After a failure no write reaches the destination. -/
  | failed
      (destination : σ)
      (written : Nat)
      (error : WriteError) :
      Delivers writes
        ⟨destination, written, some error⟩ []
        ⟨destination, written, some error⟩
  /-- Every write is accepted, and its bytes are counted. -/
  | complete
      {start final : σ}
      (written : Nat) :
      Accepts start writes final →
      Delivers writes
        ⟨start, written, none⟩ writes
        ⟨final, written + (writes.flatMap Write.payload).length, none⟩
  /-- A refused write is the last to reach the destination, and its bytes are not counted. -/
  | refused
      {start middle final : σ}
      {accepted rest : List Write}
      {write : Write}
      {error : WriteError}
      (written : Nat) :
      writes = accepted ++ write :: rest →
      Accepts start accepted middle →
      write.send middle = { state := final, refusal := some error } →
      Delivers writes
        ⟨start, written, none⟩ (accepted ++ [write])
        ⟨final, written + (accepted.flatMap Write.payload).length, some error⟩

/--
Of any writes, a destination accepts either all or those in front of one that
it refuses.
-/
theorem accepts_or_refuses [Destination σ]
    (state : σ)
    (writes : List Write) :
    (∃ final, Accepts state writes final) ∨
      ∃ accepted write rest middle final error,
        writes = accepted ++ write :: rest ∧
          Accepts state accepted middle ∧
          write.send middle = { state := final, refusal := some error } := by
  induction writes generalizing state with
  | nil =>
      exact Or.inl ⟨state, .nil state⟩
  | cons write rest inductionHypothesis =>
      rcases answer : write.send state with ⟨next, refusal⟩
      cases refusal with
      | some error =>
          exact Or.inr
            ⟨[], write, rest, state, next, error, rfl, .nil state, answer⟩
      | none =>
          rcases inductionHypothesis next with
            ⟨final, accepts⟩ |
            ⟨accepted, refused, unheard, middle, final, error,
              restShape, accepts, refuses⟩
          · exact Or.inl ⟨final, .cons answer accepts⟩
          · exact Or.inr
              ⟨write :: accepted, refused, unheard, middle, final, error,
                by rw [restShape]; rfl, .cons answer accepts, refuses⟩

namespace Output

variable [Destination σ]

/-- A write that the destination accepts is counted with all of its bytes. -/
theorem write_of_accepted
    {state next : σ}
    {write : Write}
    (answer : write.send state = { state := next, refusal := none })
    (written : Nat) :
    Output.write ⟨state, written, none⟩ write =
      (none, ⟨next, written + write.payload.length, none⟩) := by
  simp only [Output.write, answer, afterReply, Write.size_eq_length_payload]

/-- A write that the destination refuses is not counted, and the error is kept. -/
theorem write_of_refused
    {state next : σ}
    {write : Write}
    {error : WriteError}
    (refuses :
      write.send state = { state := next, refusal := some error })
    (written : Nat) :
    Output.write ⟨state, written, none⟩ write =
      (some error, ⟨next, written, some error⟩) := by
  simp only [Output.write, refuses, afterReply]

/-- Try several writes one after the other. -/
def writeEach (output : Output σ) (writes : List Write) : Output σ :=
  writes.foldl (fun output write => (output.write write).2) output

/-- Writes in front of others are tried first. -/
theorem writeEach_append
    (output : Output σ)
    (first second : List Write) :
    output.writeEach (first ++ second) =
      (output.writeEach first).writeEach second := by
  simp only [writeEach, List.foldl_append]

/-- A failed output stays as it is. -/
theorem writeEach_of_failed
    (destination : σ)
    (written : Nat)
    (error : WriteError)
    (writes : List Write) :
    writeEach ⟨destination, written, some error⟩ writes =
      ⟨destination, written, some error⟩ := by
  induction writes with
  | nil =>
      rfl
  | cons write rest inductionHypothesis =>
      exact inductionHypothesis

/-- Accepted writes reach the destination, and their bytes are counted. -/
theorem writeEach_of_accepts
    {start final : σ}
    {writes : List Write}
    (accepts : Accepts start writes final)
    (written : Nat) :
    writeEach ⟨start, written, none⟩ writes =
      ⟨final, written + (writes.flatMap Write.payload).length, none⟩ := by
  induction accepts generalizing written with
  | nil state =>
      rfl
  | @cons write rest state next final answer accepts inductionHypothesis =>
      have later := inductionHypothesis (written + write.payload.length)
      rw [Nat.add_assoc, ← List.length_append, ← List.flatMap_cons]
        at later
      simpa only [writeEach, List.foldl_cons, write_of_accepted answer]
        using later

end Output

/-- A delivery ends with the output on which all of its writes were tried. -/
theorem Delivers.writeEach_eq [Destination σ]
    {writes calls : List Write}
    {before after : Output σ}
    (delivers : Delivers writes before calls after) :
    before.writeEach writes = after := by
  cases delivers with
  | failed destination written error =>
      exact Output.writeEach_of_failed destination written error writes
  | complete written accepts =>
      exact Output.writeEach_of_accepts accepts written
  | @refused start middle final accepted rest write error written shape accepts refuses =>
      rw [shape, Output.writeEach_append,
        Output.writeEach_of_accepts accepts]
      simpa only [Output.writeEach, List.foldl_cons,
        Output.write_of_refused refuses] using
        Output.writeEach_of_failed final
          (written + (accepted.flatMap Write.payload).length) error rest

/-- Without a failure, all writes have reached the destination. -/
theorem Delivers.calls_eq_of_failure_none [Destination σ]
    {writes calls : List Write}
    {before after : Output σ}
    (delivers : Delivers writes before calls after)
    (succeeded : after.failure = none) :
    calls = writes := by
  cases delivers with
  | failed destination written error =>
      cases succeeded
  | complete written accepts =>
      rfl
  | refused written shape accepts refuses =>
      cases succeeded

/-- A failed output is not changed, and nothing reaches its destination. -/
theorem Delivers.eq_of_failure [Destination σ]
    {writes calls : List Write}
    {before after : Output σ}
    {error : WriteError}
    (delivers : Delivers writes before calls after)
    (failed : before.failure = some error) :
    calls = [] ∧ after = before := by
  cases delivers with
  | failed destination written error =>
      exact ⟨rfl, rfl⟩
  | complete written accepts =>
      cases failed
  | refused written shape accepts refuses =>
      cases failed

/-- Any writes that are tried on an output are delivered. -/
theorem exists_delivers [Destination σ]
    (output : Output σ)
    (writes : List Write) :
    ∃ calls, Delivers writes output calls (output.writeEach writes) := by
  suffices existing : ∃ calls after, Delivers writes output calls after by
    obtain ⟨calls, after, delivers⟩ := existing
    exact ⟨calls, delivers.writeEach_eq ▸ delivers⟩
  rcases output with ⟨destination, written, failure⟩
  cases failure with
  | some error =>
      exact ⟨_, _, .failed destination written error⟩
  | none =>
      rcases accepts_or_refuses destination writes with
        ⟨final, accepts⟩ |
        ⟨accepted, write, rest, middle, final, error,
          shape, accepts, refuses⟩
      · exact ⟨_, _, .complete written accepts⟩
      · exact ⟨_, _, .refused written shape accepts refuses⟩

/-- A destination along with the calls that have reached it. -/
structure Watched (σ : Type) where
  state : σ
  calls : List Write := []

namespace Watched

/-- Hand a write to the destination inside, and note it. -/
def hand [Destination σ]
    (write : Write)
    (watched : Watched σ) :
    Reply (Watched σ) :=
  let reply := write.send watched.state
  { state := ⟨reply.state, watched.calls ++ [write]⟩
    refusal := reply.refusal }

instance [Destination σ] : Destination (Watched σ) where
  writeBytes bytes := hand (.bytes bytes)
  writeText text := hand (.text text)
  writeChar character := hand (.char character)

/-- Every way of writing to a watched destination is noted. -/
theorem send_eq_hand [Destination σ]
    (write : Write)
    (watched : Watched σ) :
    write.send watched = watched.hand write := by
  cases write <;> rfl

/-- A watched destination answers like the one inside it. -/
theorem send_of_answer [Destination σ]
    {state next : σ}
    {write : Write}
    {refusal : Option WriteError}
    (answer : write.send state = { state := next, refusal })
    (earlier : List Write) :
    write.send (⟨state, earlier⟩ : Watched σ) =
      { state := ⟨next, earlier ++ [write]⟩, refusal } := by
  simp only [send_eq_hand, hand, answer]

end Watched

/-- A watched destination accepts what the one inside does, and notes it. -/
theorem Accepts.watched [Destination σ]
    {start final : σ}
    {writes : List Write}
    (accepts : Accepts start writes final)
    (earlier : List Write) :
    Accepts (⟨start, earlier⟩ : Watched σ) writes
      ⟨final, earlier ++ writes⟩ := by
  induction accepts generalizing earlier with
  | nil state =>
      simpa using Accepts.nil (⟨state, earlier⟩ : Watched σ)
  | @cons write rest state next final answer accepts inductionHypothesis =>
      have later := inductionHypothesis (earlier ++ [write])
      rw [List.append_assoc] at later
      exact .cons (Watched.send_of_answer answer earlier) later

/-- The same output with its destination watched. -/
def Output.watch
    (output : Output σ)
    (calls : List Write) :
    Output (Watched σ) :=
  { destination := ⟨output.destination, calls⟩
    written := output.written
    failure := output.failure }

/-- Watching a destination changes no delivery, and the calls are those of the delivery. -/
theorem Delivers.watched [Destination σ]
    {writes calls : List Write}
    {before after : Output σ}
    (delivers : Delivers writes before calls after)
    (earlier : List Write) :
    Delivers writes (before.watch earlier) calls
      (after.watch (earlier ++ calls)) := by
  cases delivers with
  | failed destination written error =>
      rw [List.append_nil]
      exact .failed _ written error
  | complete written accepts =>
      exact .complete written (accepts.watched earlier)
  | @refused start middle final accepted rest write error written shape accepts refuses =>
      rw [← List.append_assoc]
      exact
        .refused written shape (accepts.watched earlier)
          (Watched.send_of_answer refuses (earlier ++ accepted))

end CaptureFormat
