import CaptureFormat.Destination.Metered
import CaptureFormat.Proofs.Destination.Bounded
import CaptureFormat.Proofs.Text.Utf8

namespace CaptureFormat

/-!
# Contents of destinations

What a destination holds is a sequence of bytes.  A destination that keeps what
it is given adds the bytes of every write that it accepts.  Of a write that it
refuses it adds a beginning, and one that writes whole or not at all adds
nothing.

Destinations in memory write whole.  A destination made of a writer depends on
that writer: on its word that it takes text whole, or that it takes from the
front as many bytes as it says.
-/

/-- A destination adds the bytes of every write that it accepts to its content. -/
structure AddsAccepted [Destination σ] (content : σ → List UInt8) : Prop where
  accepted
    {write : Write}
    {state next : σ} :
    write.send state = { state := next, refusal := none } →
    content next = content state ++ write.payload

/-- Of a write that it refuses, a destination adds a beginning to its content. -/
structure Keeps [Destination σ] (content : σ → List UInt8) : Prop
    extends AddsAccepted content where
  refused
    {write : Write}
    {state next : σ}
    {error : WriteError} :
    write.send state = { state := next, refusal := some error } →
    ∃ kept, kept <+: write.payload ∧ content next = content state ++ kept

/-- A destination writes whole or not at all. -/
structure KeepsWhole [Destination σ] (content : σ → List UInt8) : Prop
    extends AddsAccepted content where
  refused
    {write : Write}
    {state next : σ}
    {error : WriteError} :
    write.send state = { state := next, refusal := some error } →
    content next = content state

/-- Accepted writes are all in the content, one after the other. -/
theorem AddsAccepted.of_accepts [Destination σ]
    {content : σ → List UInt8}
    (adds : AddsAccepted content)
    {start final : σ}
    {writes : List Write}
    (accepts : Accepts start writes final) :
    content final = content start ++ writes.flatMap Write.payload := by
  induction accepts with
  | nil state =>
      rw [List.flatMap_nil, List.append_nil]
  | @cons write rest state next final answer accepts inductionHypothesis =>
      rw [inductionHypothesis, adds.accepted answer, List.flatMap_cons,
        List.append_assoc]

/-- The bytes of text in memory. -/
def textContent (text : String) : List UInt8 :=
  Utf8.encode text.toList

@[simp] theorem textContent_append (text added : String) :
    textContent (text ++ added) = textContent text ++ textContent added := by
  simp [textContent]

@[simp] theorem textContent_singleton (character : Char) :
    textContent (String.singleton character) =
      String.utf8EncodeChar character := by
  simp [textContent]

/-- Text read from bytes has those bytes. -/
theorem textContent_of_decode
    {bytes : List UInt8}
    {characters : List Char}
    (reads : Utf8.decode bytes = .ok characters) :
    textContent (String.ofList characters) = bytes := by
  rw [textContent, String.toList_ofList, Utf8.encode_of_decode reads]

/-- Text in memory takes text whole, and bytes that are text. -/
theorem keepsWhole_string : KeepsWhole textContent where
  accepted {write} {state} {next} answer := by
    cases write with
    | bytes content =>
        simp only [Write.send, Destination.writeBytes] at answer
        split at answer
        · next characters reads =>
            cases answer
            rw [textContent_append, textContent_of_decode reads]
            rfl
        · cases answer
    | text content =>
        cases answer
        exact textContent_append state content
    | char content =>
        cases answer
        rw [String.push_eq_append, textContent_append,
          textContent_singleton]
        rfl
  refused {write} {state} {next} {error} refuses := by
    cases write with
    | bytes content =>
        simp only [Write.send, Destination.writeBytes] at refuses
        split at refuses
        · cases refuses
        · cases refuses
          rfl
    | text content =>
        cases refuses
    | char content =>
        cases refuses

/-- Bytes in memory take everything. -/
theorem keepsWhole_bytes :
    KeepsWhole (id : List UInt8 → List UInt8) where
  accepted {write} {state} {next} answer := by
    cases write with
    | bytes content =>
        cases answer
        rfl
    | text content =>
        cases answer
        rfl
    | char content =>
        cases answer
        exact congrArg (state ++ ·) (textContent_singleton content)
  refused {write} {state} {next} {error} refuses := by
    cases write <;> cases refuses

/-- A lent destination is sent a write exactly as its owner would send it. -/
theorem Write.send_lent [Destination σ]
    (write : Write)
    (lent : Lent σ) :
    write.send lent = Lent.reply (write.send lent.destination) := by
  cases write <;> rfl

/-- What a destination keeps, it keeps while it is lent. -/
theorem KeepsWhole.lent [Destination σ]
    {content : σ → List UInt8}
    (whole : KeepsWhole content) :
    KeepsWhole (fun lent : Lent σ => content lent.destination) where
  accepted {write} {state} {next} answer := by
    rw [Write.send_lent] at answer
    rcases inner : write.send state.destination with ⟨after, refusal⟩
    rw [inner] at answer
    cases answer
    exact whole.accepted inner
  refused {write} {state} {next} {error} refuses := by
    rw [Write.send_lent] at refuses
    rcases inner : write.send state.destination with ⟨after, refusal⟩
    rw [inner] at refuses
    cases refuses
    exact whole.refused inner

/-- A text writer that holds all text that it has taken and nothing of other text. -/
structure TextWriter.TakesWhole [TextWriter ω] (content : ω → String) : Prop where
  writeText (text : String) (writer : ω) :
    content (TextWriter.writeText text writer).2 =
      if (TextWriter.writeText text writer).1 then
        content writer ++ text
      else
        content writer
  writeChar (character : Char) (writer : ω) :
    content (TextWriter.writeChar character writer).2 =
      if (TextWriter.writeChar character writer).1 then
        content writer ++ String.singleton character
      else
        content writer

namespace TextWriterDestination

/-- A write is accepted if the writer has taken it. -/
theorem of_reply_accepted
    {answer : Bool × ω}
    {next : TextWriterDestination ω}
    (accepted : reply answer = { state := next, refusal := none }) :
    answer = (true, next.writer) := by
  rcases answer with ⟨taken, writer⟩
  cases taken <;> cases accepted
  rfl

/-- A write is refused if the writer has not taken it. -/
theorem of_reply_refused
    {answer : Bool × ω}
    {next : TextWriterDestination ω}
    {error : WriteError}
    (refused : reply answer = { state := next, refusal := some error }) :
    answer = (false, next.writer) := by
  rcases answer with ⟨taken, writer⟩
  cases taken <;> cases refused
  rfl

/-- A destination made of a text writer writes whole if the writer does. -/
theorem keepsWhole [TextWriter ω]
    {content : ω → String}
    (whole : TextWriter.TakesWhole content) :
    KeepsWhole fun destination : TextWriterDestination ω =>
      textContent (content destination.writer) where
  accepted {write} {state} {next} answer := by
    cases write with
    | bytes bytes =>
        simp only [Write.send, Destination.writeBytes] at answer
        split at answer
        · next characters reads =>
            have kept :=
              whole.writeText (String.ofList characters) state.writer
            rw [of_reply_accepted answer, if_pos rfl] at kept
            simp only [kept, textContent_append,
              textContent_of_decode reads, Write.payload]
        · cases answer
    | text text =>
        have kept := whole.writeText text state.writer
        rw [of_reply_accepted answer, if_pos rfl] at kept
        simp only [kept, textContent_append]
        rfl
    | char character =>
        have kept := whole.writeChar character state.writer
        rw [of_reply_accepted answer, if_pos rfl] at kept
        simp only [kept, textContent_append, textContent_singleton,
          Write.payload]
  refused {write} {state} {next} {error} refuses := by
    cases write with
    | bytes bytes =>
        simp only [Write.send, Destination.writeBytes] at refuses
        split at refuses
        · next characters reads =>
            have kept :=
              whole.writeText (String.ofList characters) state.writer
            rw [of_reply_refused refuses] at kept
            exact congrArg textContent kept
        · cases refuses
          rfl
    | text text =>
        have kept := whole.writeText text state.writer
        rw [of_reply_refused refuses] at kept
        exact congrArg textContent kept
    | char character =>
        have kept := whole.writeChar character state.writer
        rw [of_reply_refused refuses] at kept
        exact congrArg textContent kept

end TextWriterDestination

/-- A metered writer keeps the text of a call if it takes the call. -/
theorem MeteredWriter.content_take
    (writer : MeteredWriter)
    (call : Call)
    (text : String) :
    (writer.take call text).2.content =
      if (writer.take call text).1 then
        writer.content ++ text
      else
        writer.content := by
  rcases charged : writer.meter.charge call with ⟨affordable, meter⟩
  cases affordable <;> simp [take, charged]

/-- A metered writer takes text whole. -/
theorem MeteredWriter.takesWhole :
    TextWriter.TakesWhole MeteredWriter.content where
  writeText text writer := writer.content_take .text text
  writeChar character writer :=
    writer.content_take .char (String.singleton character)

/--
A byte writer that holds from the front of what it was given as many bytes as
it says it took, and nothing of it if it failed.
-/
structure ByteWriter.TakesFront [ByteWriter ω] (content : ω → List UInt8) : Prop where
  took
    {bytes : List UInt8}
    {writer next : ω}
    {taken : Nat} :
    ByteWriter.write bytes writer = (.ok taken, next) →
    taken ≤ bytes.length ∧
      content next = content writer ++ bytes.take taken
  failed
    {bytes : List UInt8}
    {writer next : ω}
    {error : WriteError} :
    ByteWriter.write bytes writer = (.error error, next) →
    content next = content writer

/-- The loop over a byte writer adds a beginning of the bytes, and all of them if it succeeds. -/
theorem ByteWriter.TakesFront.writeAll [ByteWriter ω]
    {content : ω → List UInt8}
    (front : TakesFront content)
    (bytes : List UInt8)
    (writer : ω) :
    ∃ kept,
      kept <+: bytes ∧
        content (CaptureFormat.writeAll bytes writer).state =
          content writer ++ kept ∧
        ((CaptureFormat.writeAll bytes writer).refusal = none →
          kept = bytes) := by
  induction bytes, writer using CaptureFormat.writeAll.induct with
  | case1 writer =>
      refine ⟨[], List.prefix_rfl, ?_, fun _ => rfl⟩
      rw [CaptureFormat.writeAll, if_pos rfl, List.append_nil]
  | case2 bytes writer nonempty error after answer =>
      rw [CaptureFormat.writeAll, if_neg nonempty, answer]
      refine ⟨[], List.nil_prefix, ?_, ?_⟩
      · rw [List.append_nil]
        exact front.failed answer
      · intro succeeded
        cases succeeded
  | case3 bytes writer nonempty after answer =>
      rw [CaptureFormat.writeAll, if_neg nonempty, answer]
      refine ⟨[], List.nil_prefix, ?_, ?_⟩
      · exact (front.took answer).2
      · intro succeeded
        cases succeeded
  | case4 bytes writer nonempty taken after answer inductionHypothesis =>
      obtain ⟨kept, beginning, held, complete⟩ := inductionHypothesis
      have added := (front.took answer).2
      rw [CaptureFormat.writeAll, if_neg nonempty, answer]
      refine ⟨bytes.take (taken + 1) ++ kept, ?_, ?_, ?_⟩
      · have whole :=
          (List.prefix_append_right_inj (bytes.take (taken + 1))).mpr beginning
        rwa [List.take_append_drop] at whole
      · rw [held, added, List.append_assoc]
      · intro succeeded
        rw [complete succeeded, List.take_append_drop]

/-- A destination made of a byte writer keeps what the writer takes. -/
theorem WriterDestination.keeps [ByteWriter ω]
    {content : ω → List UInt8}
    (front : ByteWriter.TakesFront content) :
    Keeps fun destination : WriterDestination ω =>
      content destination.writer where
  accepted {write} {state} {next} answer := by
    obtain ⟨kept, beginning, held, complete⟩ :=
      front.writeAll write.payload state.writer
    rw [Write.send_writer, Reply.mk.injEq] at answer
    obtain ⟨rfl, succeeded⟩ := answer
    rw [held, complete succeeded]
  refused {write} {state} {next} {error} refuses := by
    obtain ⟨kept, beginning, held, complete⟩ :=
      front.writeAll write.payload state.writer
    rw [Write.send_writer, Reply.mk.injEq] at refuses
    obtain ⟨rfl, _⟩ := refuses
    exact ⟨kept, beginning, held⟩

/-- A bounded writer takes bytes from the front. -/
theorem BoundedWriter.takesFront :
    ByteWriter.TakesFront BoundedWriter.content where
  took {bytes} {writer} {next} {taken} answer := by
    simp only [ByteWriter.write] at answer
    split at answer
    · cases answer
      exact ⟨Nat.le_refl _, by simp [keep]⟩
    · next tooMany =>
      split at answer
      · cases answer
        refine ⟨?_, rfl⟩
        rcases writer with ⟨limit, takesParts, content⟩
        cases limit with
        | none =>
            exact absurd rfl tooMany
        | some limit =>
            simp only [fits, decide_eq_true_eq] at tooMany
            simp only [room, Option.getD_some]
            omega
      · cases answer
  failed {bytes} {writer} {next} {error} answer := by
    simp only [ByteWriter.write] at answer
    split at answer
    · cases answer
    split at answer
    · cases answer
    · cases answer
      rfl

end CaptureFormat
