import CaptureFormat.Proofs.Destination.Contents

namespace CaptureFormat

/-!
# Answers of an output

Writes are tried on new output one after the other.  Those in front of the
first refusal succeed, reach the destination once each in their order, and are
counted.  The refused one is answered with the destination's error, which is
also the answer to every later write; none of these reaches the destination.

What was counted is then compared with what the destination holds.
-/

namespace Output

variable [Destination σ]

/-- What is answered to writes that are tried one after the other. -/
def answers (output : Output σ) : List Write → List (Option WriteError)
  | [] => []
  | write :: rest =>
      (output.write write).1 :: (output.write write).2.answers rest

/-- Writes in front of others are answered first. -/
theorem answers_append
    (output : Output σ)
    (first second : List Write) :
    output.answers (first ++ second) =
      output.answers first ++ (output.writeEach first).answers second := by
  induction first generalizing output with
  | nil =>
      rfl
  | cons write rest inductionHypothesis =>
      simp only [List.cons_append, answers, writeEach, List.foldl_cons,
        inductionHypothesis]

/-- Failed output gives the same answer to every write. -/
theorem answers_of_failed
    (destination : σ)
    (written : Nat)
    (error : WriteError)
    (writes : List Write) :
    answers ⟨destination, written, some error⟩ writes =
      List.replicate writes.length (some error) := by
  induction writes with
  | nil =>
      rfl
  | cons write rest inductionHypothesis =>
      rw [List.length_cons, List.replicate_succ, ← inductionHypothesis]
      rfl

/-- Writes that the destination accepts succeed. -/
theorem answers_of_accepts
    {start final : σ}
    {writes : List Write}
    (accepts : Accepts start writes final)
    (written : Nat) :
    answers ⟨start, written, none⟩ writes =
      List.replicate writes.length none := by
  induction accepts generalizing written with
  | nil state =>
      rfl
  | @cons write rest state next final answer accepts inductionHypothesis =>
      rw [answers, write_of_accepted answer, inductionHypothesis]
      rfl

/--
What becomes of writes that are tried on new output to `start`: the answers to
them, and the output in the end, with the writes that have reached its
destination.
-/
inductive Outcome (start : σ) (writes : List Write) :
    List (Option WriteError) → Output (Watched σ) → Prop where
  /-- Every write succeeds. -/
  | complete {final : σ} :
      Accepts start writes final →
      Outcome start writes
        (List.replicate writes.length none)
        { destination := ⟨final, writes⟩
          written := (writes.flatMap Write.payload).length
          failure := none }
  /-- The error of the first refused write is the answer to it and to all behind it. -/
  | refused
      {middle final : σ}
      {accepted rest : List Write}
      {write : Write}
      {error : WriteError} :
      writes = accepted ++ write :: rest →
      Accepts start accepted middle →
      write.send middle = { state := final, refusal := some error } →
      Outcome start writes
        (List.replicate accepted.length none ++
          some error :: List.replicate rest.length (some error))
        { destination := ⟨final, accepted ++ [write]⟩
          written := (accepted.flatMap Write.payload).length
          failure := some error }

/-- New output to a destination that is watched. -/
def watching (start : σ) : Output (Watched σ) :=
  Output.ofDestination ⟨start, []⟩

/-- Writes that are tried on new output have an outcome. -/
theorem outcome_watching
    (start : σ)
    (writes : List Write) :
    Outcome start writes
      ((watching start).answers writes)
      ((watching start).writeEach writes) := by
  rcases accepts_or_refuses start writes with
    ⟨final, accepts⟩ |
    ⟨accepted, write, rest, middle, final, error,
      shape, accepts, refuses⟩
  · have watched := accepts.watched []
    rw [watching, ofDestination, writeEach_of_accepts watched,
      answers_of_accepts watched, Nat.zero_add]
    exact .complete accepts
  · have watched := accepts.watched []
    have last :=
      write_of_refused (Watched.send_of_answer refuses accepted)
        (accepted.flatMap Write.payload).length
    have outcome := Outcome.refused shape accepts refuses
    subst shape
    rw [watching, ofDestination, answers_append, writeEach_append,
      writeEach_of_accepts watched, answers_of_accepts watched,
      Nat.zero_add, answers, writeEach, List.foldl_cons]
    simp only [List.nil_append, last]
    rw [← writeEach, writeEach_of_failed, answers_of_failed]
    exact outcome

/-- Failed output gives its error and stays as it is. -/
theorem write_of_failed
    {output : Output σ}
    {error : WriteError}
    (failed : output.failure = some error)
    (write : Write) :
    output.write write = (some error, output) := by
  simp only [Output.write, failed]

/-- A write that fails adds nothing to the content of a destination that writes whole. -/
theorem content_of_write_failed
    {content : σ → List UInt8}
    (whole : KeepsWhole content)
    {output after : Output σ}
    {write : Write}
    {error : WriteError}
    (fails : output.write write = (some error, after)) :
    content after.destination = content output.destination := by
  rcases output with ⟨destination, written, failure⟩
  cases failure with
  | some earlier =>
      cases fails
      rfl
  | none =>
      rcases answer : write.send destination with ⟨next, refusal⟩
      simp only [Output.write, answer] at fails
      cases fails
      exact whole.refused answer

/--
The content of a destination has grown by some bytes, with which all bytes that
it was to be given begin.
-/
structure Growth
    (content : σ → List UInt8)
    (writes : List Write)
    (start final : σ)
    (added : List UInt8) : Prop where
  content_eq : content final = content start ++ added
  beginning : added <+: writes.flatMap Write.payload

/-- Accepted writes let the content grow by all of their bytes. -/
theorem growth_of_accepts
    {content : σ → List UInt8}
    (adds : AddsAccepted content)
    {start final : σ}
    {writes : List Write}
    (accepts : Accepts start writes final) :
    Growth content writes start final (writes.flatMap Write.payload) where
  content_eq := adds.of_accepts accepts
  beginning := List.prefix_rfl

/-- A refused write behind accepted ones lets the content grow by what is kept of it. -/
theorem growth_of_refused
    {content : σ → List UInt8}
    (adds : AddsAccepted content)
    {start middle final : σ}
    {accepted rest : List Write}
    {write : Write}
    {kept : List UInt8}
    (accepts : Accepts start accepted middle)
    (held : content final = content middle ++ kept)
    (beginning : kept <+: write.payload) :
    Growth content (accepted ++ write :: rest) start final
      (accepted.flatMap Write.payload ++ kept) where
  content_eq := by
    rw [held, adds.of_accepts accepts, List.append_assoc]
  beginning := by
    rw [List.flatMap_append, List.flatMap_cons,
      List.prefix_append_right_inj]
    exact beginning.trans (List.prefix_append _ _)

/-- A destination holds what was counted and a beginning of the write that it refused. -/
theorem exists_growth
    {content : σ → List UInt8}
    (keeps : Keeps content)
    {start : σ}
    {writes calls : List Write}
    {output : Output σ}
    (delivers : Delivers writes ⟨start, 0, none⟩ calls output) :
    ∃ added,
      Growth content writes start output.destination added ∧
        output.written ≤ added.length := by
  cases delivers with
  | complete _ accepts =>
      exact
        ⟨_, growth_of_accepts keeps.toAddsAccepted accepts,
          Nat.le_of_eq (Nat.zero_add _)⟩
  | @refused _ middle final accepted rest write error _ shape accepts refuses =>
      obtain ⟨kept, beginning, held⟩ := keeps.refused refuses
      subst shape
      refine
        ⟨_, growth_of_refused keeps.toAddsAccepted accepts held beginning,
          ?_⟩
      rw [Nat.zero_add, List.length_append]
      exact Nat.le_add_right _ _

/-- A destination that writes whole holds exactly what was counted. -/
theorem exists_growth_of_whole
    {content : σ → List UInt8}
    (whole : KeepsWhole content)
    {start : σ}
    {writes calls : List Write}
    {output : Output σ}
    (delivers : Delivers writes ⟨start, 0, none⟩ calls output) :
    ∃ added,
      Growth content writes start output.destination added ∧
        output.written = added.length := by
  cases delivers with
  | complete _ accepts =>
      exact
        ⟨_, growth_of_accepts whole.toAddsAccepted accepts, Nat.zero_add _⟩
  | @refused _ middle final accepted rest write error _ shape accepts refuses =>
      have held : content final = content middle ++ [] := by
        rw [List.append_nil]
        exact whole.refused refuses
      subst shape
      refine
        ⟨_, growth_of_refused whole.toAddsAccepted accepts held
            List.nil_prefix,
          ?_⟩
      rw [Nat.zero_add, List.append_nil]

/--
After any writes on new output, the content of the destination has grown by as
many bytes as were counted, and a write that fails then adds nothing to it.
-/
structure HoldsCounted
    (content : σ → List UInt8)
    (start : σ)
    (writes : List Write) : Prop where
  grown :
    ∃ added,
      Growth content writes start
          ((ofDestination start).writeEach writes).destination added ∧
        ((ofDestination start).writeEach writes).written = added.length
  unchanged
    (write : Write)
    {error : WriteError}
    {after : Output σ} :
    ((ofDestination start).writeEach writes).write write =
      (some error, after) →
    content after.destination =
      content ((ofDestination start).writeEach writes).destination

/-- What was counted is what is held, if a destination writes whole. -/
theorem holdsCounted
    {content : σ → List UInt8}
    (whole : KeepsWhole content)
    (start : σ)
    (writes : List Write) :
    HoldsCounted content start writes where
  grown := by
    obtain ⟨calls, delivers⟩ := exists_delivers (ofDestination start) writes
    exact exists_growth_of_whole whole delivers
  unchanged write {error} {after} fails :=
    content_of_write_failed whole fails

/--
What becomes of writes on new output.

With any destination they have an outcome, and failed output stays as it is.
Text and bytes in memory, text that is lent, and a writer that takes text whole
hold exactly what was counted.  A writer that takes bytes from the front holds
at least that, and still a beginning of all bytes that it was to be given.
-/
theorem outcome_and_content
    {τ ω : Type}
    [TextWriter τ]
    [ByteWriter ω]
    {text : τ → String}
    {bytes : ω → List UInt8}
    (textWhole : TextWriter.TakesWhole text)
    (bytesFront : ByteWriter.TakesFront bytes)
    (writes : List Write) :
    (∀ start : σ,
      Outcome start writes
          ((watching start).answers writes)
          ((watching start).writeEach writes) ∧
        ∀ error,
          ((watching start).writeEach writes).failure = some error →
          ∀ later,
            ((watching start).writeEach writes).write later =
              (some error, (watching start).writeEach writes)) ∧
      (∀ start : String, HoldsCounted textContent start writes) ∧
      (∀ start : Lent String,
        HoldsCounted (fun lent => textContent lent.destination)
          start writes) ∧
      (∀ start : List UInt8, HoldsCounted id start writes) ∧
      (∀ start : TextWriterDestination τ,
        HoldsCounted (fun destination => textContent (text destination.writer))
          start writes) ∧
      ∀ start : WriterDestination ω,
        ∃ added,
          Growth (fun destination => bytes destination.writer) writes start
              ((ofDestination start).writeEach writes).destination added ∧
            ((ofDestination start).writeEach writes).written ≤
              added.length := by
  refine ⟨?_, ?_, ?_, ?_, ?_, ?_⟩
  · intro start
    exact
      ⟨outcome_watching start writes,
        fun error failed later => write_of_failed failed later⟩
  · exact fun start => holdsCounted keepsWhole_string start writes
  · exact fun start => holdsCounted keepsWhole_string.lent start writes
  · exact fun start => holdsCounted keepsWhole_bytes start writes
  · intro start
    exact
      holdsCounted (TextWriterDestination.keepsWhole textWhole)
        start writes
  · intro start
    obtain ⟨calls, delivers⟩ := exists_delivers (ofDestination start) writes
    exact exists_growth (WriterDestination.keeps bytesFront) delivers

omit [Destination σ] in
/-- One more byte is held than was counted where a write fits in part only. -/
theorem outcome_and_content_partial :
    let start : WriterDestination BoundedWriter :=
      ⟨{ limit := some 3, takesParts := true }⟩
    let metered : TextWriterDestination MeteredWriter :=
      ⟨{ meter := { budget := some 1 } }⟩
    let writes : List Write :=
      [.char 'é', .bytes [0xFF, 0x41], .text "z"]
    ((watching start).answers writes =
          [none, some .stalled, some .stalled] ∧
        ((watching start).writeEach writes).destination.calls =
          [.char 'é', .bytes [0xFF, 0x41]] ∧
        ((watching start).writeEach writes).written = 2 ∧
        ((ofDestination start).writeEach writes).destination.writer.content =
          [0xC3, 0xA9, 0xFF]) ∧
      Outcome start writes
        ((watching start).answers writes)
        ((watching start).writeEach writes) ∧
      HoldsCounted textContent "" writes ∧
      HoldsCounted
        (fun destination => textContent destination.writer.content)
        metered writes ∧
      ∃ added,
        Growth (fun destination => destination.writer.content) writes start
            ((ofDestination start).writeEach writes).destination added ∧
          ((ofDestination start).writeEach writes).written ≤
            added.length := by
  intro start metered writes
  obtain ⟨outcome, text, _, _, whole, front⟩ :=
    outcome_and_content (σ := WriterDestination BoundedWriter)
      MeteredWriter.takesWhole BoundedWriter.takesFront writes
  exact
    ⟨by decide +kernel, (outcome start).1, text "", whole metered,
      front start⟩

end Output

end CaptureFormat
