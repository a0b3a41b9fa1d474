import CaptureFormat.Destination.Writer
import CaptureFormat.Proofs.Output.Delivery

namespace CaptureFormat

/-!
# Writers with bounded room

A bounded writer is given bytes by a loop that goes on until all are taken,
the writer fails, or it takes none.  Whatever the loop does, what it amounts
to depends on one comparison: whether all the bytes fit into the room that is
left.  From it follows which writes such a writer accepts in a row.
-/

/-- A destination made of a byte writer is given the bytes of every write. -/
theorem Write.send_writer [ByteWriter ω]
    (write : Write)
    (destination : WriterDestination ω) :
    write.send destination =
      { state := ⟨(writeAll write.payload destination.writer).state⟩
        refusal := (writeAll write.payload destination.writer).refusal } := by
  cases write with
  | bytes content =>
      rfl
  | text content =>
      rfl
  | char content =>
      have encoded :
          Utf8.encode (String.singleton content).toList =
            String.utf8EncodeChar content := by
        simp
      simp only [send, payload, ← encoded]
      rfl

namespace BoundedWriter

/-- Whether so many bytes fit into the room that is left. -/
def hasRoomFor (writer : BoundedWriter) (size : Nat) : Bool :=
  match writer.limit with
  | none => true
  | some limit => size ≤ limit - writer.content.length

/-- What a writer keeps of bytes that do not fit. -/
def keptPart (writer : BoundedWriter) (bytes : List UInt8) : List UInt8 :=
  if writer.takesParts then bytes.take writer.room else []

@[simp] theorem hasRoomFor_zero (writer : BoundedWriter) :
    writer.hasRoomFor 0 = true := by
  unfold hasRoomFor
  split <;> simp

@[simp] theorem keep_nil (writer : BoundedWriter) :
    writer.keep [] = writer := by
  simp [keep]

/-- Keeping bytes one after the other is keeping them together. -/
theorem keep_keep (writer : BoundedWriter) (first second : List UInt8) :
    (writer.keep first).keep second = writer.keep (first ++ second) := by
  simp [keep]

/-- Bytes that were kept take room from those that follow. -/
theorem hasRoomFor_keep
    {writer : BoundedWriter}
    {bytes : List UInt8}
    (fits : writer.hasRoomFor bytes.length = true)
    (size : Nat) :
    (writer.keep bytes).hasRoomFor size =
      writer.hasRoomFor (bytes.length + size) := by
  rcases writer with ⟨limit, takesParts, content⟩
  cases limit with
  | none =>
      rfl
  | some limit =>
      simp only [hasRoomFor, decide_eq_true_eq] at fits
      simp only [hasRoomFor, keep, List.length_append, decide_eq_decide]
      omega

/-- Where more fits, less does. -/
theorem hasRoomFor_of_le
    {writer : BoundedWriter}
    {less more : Nat}
    (fits : writer.hasRoomFor more = true)
    (smaller : less ≤ more) :
    writer.hasRoomFor less = true := by
  rcases writer with ⟨limit, takesParts, content⟩
  cases limit with
  | none =>
      rfl
  | some limit =>
      simp only [hasRoomFor, decide_eq_true_eq] at fits ⊢
      omega

private theorem fits_eq_hasRoomFor
    (writer : BoundedWriter)
    {bytes : List UInt8}
    (nonempty : bytes ≠ []) :
    writer.fits bytes = writer.hasRoomFor bytes.length := by
  have positive := List.length_pos_iff.mpr nonempty
  rcases writer with ⟨limit, takesParts, content⟩
  cases limit with
  | none =>
      rfl
  | some limit =>
      simp only [fits, hasRoomFor, decide_eq_decide]
      omega

private theorem writeAll_of_room_eq_zero
    {writer : BoundedWriter}
    {bytes : List UInt8}
    (nonempty : bytes ≠ [])
    (refuses : writer.hasRoomFor bytes.length = false)
    (takesParts : writer.takesParts = true)
    (noRoom : writer.room = 0) :
    writeAll bytes writer =
      { state := writer, refusal := some .stalled } := by
  rw [writeAll]
  simp [nonempty, ByteWriter.write, fits_eq_hasRoomFor writer nonempty,
    refuses, takesParts, noRoom]

/-- A writer that has taken as much as it could is full. -/
private theorem keep_take_room
    {writer : BoundedWriter}
    {bytes : List UInt8}
    (refuses : writer.hasRoomFor bytes.length = false) :
    (bytes.take writer.room).length = writer.room ∧
      (writer.keep (bytes.take writer.room)).room = 0 ∧
      bytes.drop writer.room ≠ [] ∧
      (writer.keep (bytes.take writer.room)).hasRoomFor
        (bytes.drop writer.room).length = false := by
  rcases writer with ⟨limit, takesParts, content⟩
  cases limit with
  | none =>
      cases refuses
  | some limit =>
      simp only [hasRoomFor, decide_eq_false_iff_not] at refuses
      simp only [room, keep, hasRoomFor, Option.getD_some, ne_eq,
        List.drop_eq_nil_iff, List.length_append, List.length_take,
        List.length_drop, decide_eq_false_iff_not]
      omega

/-- What the loop over a bounded writer amounts to. -/
theorem writeAll_eq
    (bytes : List UInt8)
    (writer : BoundedWriter) :
    writeAll bytes writer =
      if writer.hasRoomFor bytes.length then
        { state := writer.keep bytes }
      else
        { state := writer.keep (writer.keptPart bytes)
          refusal := some (if writer.takesParts then .stalled else full) } := by
  by_cases empty : bytes = []
  · subst empty
    rw [writeAll]
    simp
  have tested := fits_eq_hasRoomFor writer empty
  rw [writeAll, if_neg empty]
  cases fits : writer.hasRoomFor bytes.length with
  | true =>
      obtain ⟨taken, size⟩ :=
        Nat.exists_eq_add_one_of_ne_zero
          (Nat.ne_of_gt (List.length_pos_iff.mpr empty))
      have written :
          ByteWriter.write bytes writer =
            (.ok (taken + 1), writer.keep bytes) := by
        rw [← size]
        simp only [ByteWriter.write, tested, fits, ↓reduceIte]
      have nothingLeft : bytes.drop (taken + 1) = [] := by
        rw [← size, List.drop_length]
      simp only [written, nothingLeft, ↓reduceIte]
      rw [writeAll, if_pos rfl]
  | false =>
      -- a second turn of the loop finds no room, so there is never a third
      cases parts : writer.takesParts with
      | false =>
          simp [ByteWriter.write, tested, fits, parts, keptPart]
      | true =>
          obtain ⟨_, noRoom, nonempty, refuses⟩ := keep_take_room fits
          have written :
              ByteWriter.write bytes writer =
                (.ok writer.room, writer.keep (bytes.take writer.room)) := by
            simp only [ByteWriter.write, tested, fits, parts,
              Bool.false_eq_true, ↓reduceIte]
          simp only [written, keptPart, parts, Bool.false_eq_true,
            ↓reduceIte]
          cases room : writer.room with
          | zero =>
              rfl
          | succ taken =>
              rw [room] at noRoom nonempty refuses
              exact writeAll_of_room_eq_zero nonempty refuses parts noRoom

/--
A bounded writer accepts writes in a row exactly if all of their bytes fit,
and then it keeps all of them.
-/
theorem accepts_iff
    {writer : BoundedWriter}
    {writes : List Write}
    {final : WriterDestination BoundedWriter} :
    Accepts ⟨writer⟩ writes final ↔
      writer.hasRoomFor (writes.flatMap Write.payload).length = true ∧
        final = ⟨writer.keep (writes.flatMap Write.payload)⟩ := by
  induction writes generalizing writer with
  | nil =>
      constructor
      · intro accepts
        cases accepts
        simp
      · rintro ⟨_, rfl⟩
        simpa using Accepts.nil (⟨writer⟩ : WriterDestination BoundedWriter)
  | cons write rest inductionHypothesis =>
      rw [List.flatMap_cons, List.length_append, ← keep_keep]
      constructor
      · intro accepts
        cases accepts with
        | @cons _ _ _ next _ answer later =>
            rw [Write.send_writer, writeAll_eq] at answer
            split at answer
            · next fits =>
                cases answer
                rw [inductionHypothesis, hasRoomFor_keep fits] at later
                exact later
            · cases answer
      · rintro ⟨fits, rfl⟩
        have first :=
          hasRoomFor_of_le fits (Nat.le_add_right _ _)
        have answer :
            write.send (⟨writer⟩ : WriterDestination BoundedWriter) =
              { state := ⟨writer.keep write.payload⟩ } := by
          rw [Write.send_writer, writeAll_eq, if_pos first]
        rw [← hasRoomFor_keep first] at fits
        exact .cons answer (inductionHypothesis.mpr ⟨fits, rfl⟩)

/--
A bounded writer refuses a write only if its bytes do not fit; it keeps a part
of them if it takes parts, and the reason is that it took nothing any more.
-/
theorem of_send_refused
    {writer : BoundedWriter}
    {write : Write}
    {final : WriterDestination BoundedWriter}
    {error : WriteError}
    (refuses :
      write.send (⟨writer⟩ : WriterDestination BoundedWriter) =
        { state := final, refusal := some error }) :
    writer.hasRoomFor write.payload.length = false ∧
      final = ⟨writer.keep (writer.keptPart write.payload)⟩ ∧
      error.kind = .tookNothing := by
  rw [Write.send_writer, writeAll_eq] at refuses
  split at refuses
  · cases refuses
  · next tooMany =>
      cases refuses
      refine ⟨by simpa using tooMany, rfl, ?_⟩
      split <;> rfl

end BoundedWriter

end CaptureFormat
