import CaptureFormat.Proofs.Output.Answers
import CaptureFormat.Proofs.Text.Encoding

namespace CaptureFormat

/-!
# Ways of writing

A character may be written as the text that it is, and text as its bytes.
Whichever way is taken, the answers are the same, and so is the output in the
end, at every point at which a destination may fail.

Destinations are compared through a view of them.  For those in memory and for
byte writers the view shows everything.  A text writer may note which way it
was asked for, so what it has to show alike is left to it.
-/

/-- A write is put in a less special way, or left as it is. -/
inductive Write.Recasts : Write → Write → Prop where
  | same (write : Write) :
      Recasts write write
  /-- A character is written as text. -/
  | character (content : Char) :
      Recasts (.char content) (.text (String.singleton content))
  /-- Text is written as bytes. -/
  | text (content : String) :
      Recasts (.text content) (.bytes (Utf8.encode content.toList))
  | trans {first second third : Write} :
      Recasts first second →
      Recasts second third →
      Recasts first third

/-- However a write is put, it asks for the same bytes. -/
theorem Write.Recasts.payload_eq
    {write other : Write}
    (recasts : write.Recasts other) :
    write.payload = other.payload := by
  induction recasts with
  | same write =>
      rfl
  | character content =>
      exact (textContent_singleton content).symm
  | text content =>
      rfl
  | trans _ _ first second =>
      exact first.trans second

theorem Write.Recasts.size_eq
    {write other : Write}
    (recasts : write.Recasts other) :
    write.size = other.size := by
  rw [size_eq_length_payload, size_eq_length_payload, recasts.payload_eq]

/-- A reply with what is seen of the destination in its place. -/
def Reply.map (view : σ → α) (reply : Reply σ) : Reply α :=
  { state := view reply.state, refusal := reply.refusal }

/-- Output with what is seen of the destination in its place. -/
def Output.map (view : σ → α) (output : Output σ) : Output α :=
  { destination := view output.destination
    written := output.written
    failure := output.failure }

/-- What is seen after a reply follows from what is seen of the reply. -/
theorem Output.map_afterReply
    (view : σ → α)
    (output : Output σ)
    (size : Nat)
    (reply : Reply σ) :
    (output.afterReply size reply).map view =
      (output.map view).afterReply size (reply.map view) := by
  rcases reply with ⟨state, refusal⟩
  cases refusal <;> rfl

/-- A destination that takes a write alike in every way, as far as `view` shows. -/
structure TakesAlike [Destination σ] (view : σ → α) : Prop where
  /-- Nothing but what is seen of a destination decides what is seen of its reply. -/
  congr
    (write : Write)
    {left right : σ} :
    view left = view right →
    (write.send left).map view = (write.send right).map view
  character (content : Char) (state : σ) :
    ((Write.char content).send state).map view =
      ((Write.text (String.singleton content)).send state).map view
  text (content : String) (state : σ) :
    ((Write.text content).send state).map view =
      ((Write.bytes (Utf8.encode content.toList)).send state).map view

/-- One write is taken alike however it is put. -/
theorem TakesAlike.send_recasts [Destination σ]
    {view : σ → α}
    (alike : TakesAlike view)
    {write other : Write}
    (recasts : write.Recasts other)
    {left right : σ}
    (same : view left = view right) :
    (write.send left).map view = (other.send right).map view := by
  induction recasts generalizing left right with
  | same write =>
      exact alike.congr write same
  | character content =>
      exact (alike.character content left).trans (alike.congr _ same)
  | text content =>
      exact (alike.text content left).trans (alike.congr _ same)
  | trans _ _ first second =>
      exact (first same).trans (second rfl)

namespace Output

section

variable
  [Destination σ]
  {view : σ → α}

/-- One write has the same answer and effect however it is put. -/
theorem write_recasts
    (alike : TakesAlike view)
    {write other : Write}
    (recasts : write.Recasts other)
    {left right : Output σ}
    (same : left.map view = right.map view) :
    (left.write write).1 = (right.write other).1 ∧
      (left.write write).2.map view = (right.write other).2.map view := by
  have sameFailure : left.failure = right.failure :=
    congrArg (fun seen : Output α => seen.failure) same
  cases failure : right.failure with
  | some error =>
      rw [write_of_failed (sameFailure.trans failure),
        write_of_failed failure]
      exact ⟨rfl, same⟩
  | none =>
      have sameView : view left.destination = view right.destination :=
        congrArg (fun seen : Output α => seen.destination) same
      have replies := alike.send_recasts recasts sameView
      have refusals := congrArg Reply.refusal replies
      simp only [Output.write, sameFailure.trans failure, failure,
        map_afterReply, replies, same, recasts.size_eq]
      exact ⟨refusals, trivial⟩

/-- Any number of writes have the same answers and effect however each of them is put. -/
theorem writeEach_recasts
    (alike : TakesAlike view)
    {writes others : List Write}
    (recast : List.Forall₂ Write.Recasts writes others)
    {left right : Output σ}
    (same : left.map view = right.map view) :
    left.answers writes = right.answers others ∧
      (left.writeEach writes).map view =
        (right.writeEach others).map view := by
  induction recast generalizing left right with
  | nil =>
      exact ⟨rfl, same⟩
  | cons recasts _ inductionHypothesis =>
      obtain ⟨sameAnswer, sameAfter⟩ :=
        write_recasts alike recasts same
      obtain ⟨sameAnswers, sameEnd⟩ := inductionHypothesis sameAfter
      exact ⟨congrArg₂ List.cons sameAnswer sameAnswers, sameEnd⟩

end

end Output

/-- Bytes of a text are read back as that text. -/
theorem decode_encode_toList (content : String) :
    Utf8.decode (Utf8.encode content.toList) = .ok content.toList :=
  Utf8.decodeFrom_encode 0 content.toList

/-- Text in memory takes the bytes of a text as that text. -/
theorem takesAlike_string : TakesAlike (id : String → String) where
  congr write {left right} same := by
    cases same
    rfl
  character content state := by
    simp only [Write.send, Destination.writeChar, Destination.writeText,
      String.push_eq_append]
  text content state := by
    simp only [Write.send, Destination.writeText, Destination.writeBytes,
      decode_encode_toList, String.ofList_toList]

/-- Bytes in memory have one way of writing. -/
theorem takesAlike_bytes :
    TakesAlike (id : List UInt8 → List UInt8) where
  congr write {left right} same := by
    cases same
    rfl
  character _ _ := rfl
  text _ _ := rfl

/-- A destination that takes writes alike in all respects does so while it is lent. -/
theorem TakesAlike.lent [Destination σ]
    (alike : TakesAlike (id : σ → σ)) :
    TakesAlike (id : Lent σ → Lent σ) where
  congr write {left right} same := by
    cases same
    rfl
  character content state := by
    rw [Write.send_lent, Write.send_lent]
    exact congrArg Lent.reply (alike.character content state.destination)
  text content state := by
    rw [Write.send_lent, Write.send_lent]
    exact congrArg Lent.reply (alike.text content state.destination)

/-- A destination made of a byte writer has one way of writing. -/
theorem WriterDestination.takesAlike [ByteWriter ω] :
    TakesAlike (id : WriterDestination ω → WriterDestination ω) where
  congr write {left right} same := by
    cases same
    rfl
  character _ _ := rfl
  text _ _ := rfl

/-- A text writer that takes a character as the text that it is, as far as `view` shows. -/
structure TextWriter.TakesCharactersAsText [TextWriter ω] (view : ω → α) : Prop where
  congr
    (text : String)
    {left right : ω} :
    view left = view right →
    (TextWriter.writeText text left).map id view =
      (TextWriter.writeText text right).map id view
  character (content : Char) (writer : ω) :
    (TextWriter.writeChar content writer).map id view =
      (TextWriter.writeText (String.singleton content) writer).map id view

namespace TextWriterDestination

/-- What is seen of a reply is what is seen of the writer's answer. -/
theorem map_reply_congr
    {view : ω → α}
    {left right : Bool × ω}
    (same : left.map id view = right.map id view) :
    (reply left).map (fun destination => view destination.writer) =
      (reply right).map (fun destination => view destination.writer) := by
  rcases left with ⟨taken, writer⟩
  rcases right with ⟨otherTaken, otherWriter⟩
  obtain ⟨sameTaken, sameView⟩ := Prod.mk.inj same
  cases sameTaken
  simp only [Reply.map, reply, sameView]

/-- A destination made of a text writer takes writes alike if the writer does. -/
theorem takesAlike [TextWriter ω]
    {view : ω → α}
    (alike : TextWriter.TakesCharactersAsText view) :
    TakesAlike (fun destination : TextWriterDestination ω =>
      view destination.writer) where
  congr write {left right} same := by
    cases write with
    | bytes content =>
        simp only [Write.send, Destination.writeBytes]
        cases Utf8.decode content with
        | ok characters =>
            exact map_reply_congr (alike.congr _ same)
        | error fault =>
            simp only [Reply.map, same]
    | text content =>
        exact map_reply_congr (alike.congr content same)
    | char content =>
        refine map_reply_congr ?_
        rw [alike.character, alike.character]
        exact alike.congr _ same
  character content state :=
    map_reply_congr (alike.character content state.writer)
  text content state := by
    simp only [Write.send, Destination.writeText, Destination.writeBytes,
      decode_encode_toList, String.ofList_toList]

end TextWriterDestination

/-- A metered writer shows the way of a call in its notes only. -/
theorem MeteredWriter.takesCharactersAsText :
    TextWriter.TakesCharactersAsText
      (fun writer : MeteredWriter => (writer.meter.budget, writer.content)) where
  congr text {left right} same := by
    rcases left with ⟨⟨calls, budget⟩, content⟩
    rcases right with ⟨⟨otherCalls, otherBudget⟩, otherContent⟩
    obtain ⟨sameBudget, sameContent⟩ := Prod.mk.inj same
    cases sameBudget
    cases sameContent
    rcases budget with _ | _ | _ <;> rfl
  character content writer := by
    rcases writer with ⟨⟨calls, budget⟩, content⟩
    rcases budget with _ | _ | _ <;> rfl

namespace Output

/--
The ways of writing are interchangeable.

In any sequence of writes, characters may be written as text and text as its
bytes, wherever they stand and as often as one likes.  Every write gets the
answer that it would have got, and the output is the same in the end: its
destination, the number of bytes, and the failure.

This holds from any output on, of text and bytes in memory, of text that is
lent, and of any byte writer, whatever it takes of a write.  Of a text writer
it holds as far as the writer takes a character as the text that it is; one that
does so in all respects is seen through the identity.
-/
theorem ways_interchangeable
    {τ ω α : Type}
    [TextWriter τ]
    [ByteWriter ω]
    {view : τ → α}
    (asText : TextWriter.TakesCharactersAsText view)
    {writes others : List Write}
    (recast : List.Forall₂ Write.Recasts writes others) :
    (∀ output : Output String,
      output.answers writes = output.answers others ∧
        output.writeEach writes = output.writeEach others) ∧
      (∀ output : Output (Lent String),
        output.answers writes = output.answers others ∧
          output.writeEach writes = output.writeEach others) ∧
      (∀ output : Output (List UInt8),
        output.answers writes = output.answers others ∧
          output.writeEach writes = output.writeEach others) ∧
      (∀ output : Output (WriterDestination ω),
        output.answers writes = output.answers others ∧
          output.writeEach writes = output.writeEach others) ∧
      ∀ output : Output (TextWriterDestination τ),
        output.answers writes = output.answers others ∧
          (output.writeEach writes).map (view ·.writer) =
            (output.writeEach others).map (view ·.writer) := by
  refine ⟨?_, ?_, ?_, ?_, ?_⟩
  · exact fun output => writeEach_recasts takesAlike_string recast rfl
  · exact fun output => writeEach_recasts takesAlike_string.lent recast rfl
  · exact fun output => writeEach_recasts takesAlike_bytes recast rfl
  · exact fun output =>
      writeEach_recasts WriterDestination.takesAlike recast rfl
  · exact fun output =>
      writeEach_recasts (TextWriterDestination.takesAlike asText) recast
        rfl

/-- A character and a text as bytes, where the room or the budget ends between them. -/
theorem ways_interchangeable_partial :
    let view := fun writer : MeteredWriter =>
      (writer.meter.budget, writer.content)
    let writes : List Write := [.char 'é', .text "zz"]
    let others : List Write := [.bytes [0xC3, 0xA9], .bytes [0x7A, 0x7A]]
    let bounded : Output (WriterDestination BoundedWriter) :=
      ofDestination ⟨{ limit := some 3, takesParts := true }⟩
    let metered : Output (TextWriterDestination MeteredWriter) :=
      ofDestination ⟨{ meter := { budget := some 1 } }⟩
    TextWriter.TakesCharactersAsText view ∧
      List.Forall₂ Write.Recasts writes others ∧
      bounded.answers others = [none, some .stalled] ∧
      (bounded.writeEach others).destination.writer.content =
        [0xC3, 0xA9, 0x7A] ∧
      bounded.answers writes = bounded.answers others ∧
      bounded.writeEach writes = bounded.writeEach others ∧
      metered.answers others = [none, some .formatter] ∧
      metered.answers writes = metered.answers others ∧
      (metered.writeEach writes).map (view ·.writer) =
        (metered.writeEach others).map (view ·.writer) := by
  intro view writes others bounded metered
  have recast : List.Forall₂ Write.Recasts writes others :=
    .cons (.trans (.character 'é') (.text "é"))
      (.cons (.text "zz") .nil)
  obtain ⟨_, _, _, ofBytes, ofText⟩ :=
    ways_interchangeable (ω := BoundedWriter)
      MeteredWriter.takesCharactersAsText recast
  exact
    ⟨MeteredWriter.takesCharactersAsText, recast, by decide +kernel,
      by decide +kernel, (ofBytes bounded).1, (ofBytes bounded).2,
      by decide +kernel, (ofText metered).1, (ofText metered).2⟩

end Output

end CaptureFormat
