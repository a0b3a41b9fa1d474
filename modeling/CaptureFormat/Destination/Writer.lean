import CaptureFormat.Destination.Basic

namespace CaptureFormat

/-!
# Writers as destinations

A byte writer may take less than it is given, so a destination made of one
goes on until everything is written.  A call that was interrupted is made again
at once, so the answer of a writer is the first that is no interruption.  A text
writer takes text and characters whole or not at all and gives no reason for a
failure.
-/

/-- Something that is given bytes and says how many of them it took. -/
class ByteWriter (ω : Type) where
  write : List UInt8 → ω → Except WriteError Nat × ω
  /-- A call is made again until it is not interrupted. -/
  uninterrupted
    {bytes : List UInt8}
    {writer : ω}
    {error : WriteError} :
    (write bytes writer).1 = .error error →
    error.kind ≠ .interrupted

/-- The failure of a writer that takes no bytes any more. -/
def WriteError.stalled : WriteError :=
  ⟨.tookNothing, "failed to write whole buffer"⟩

/-- Write until no bytes are left, the writer fails, or it takes none. -/
def writeAll [ByteWriter ω] (bytes : List UInt8) (writer : ω) : Reply ω :=
  if bytes = [] then
    { state := writer }
  else
    match ByteWriter.write bytes writer with
    | (.error error, after) => { state := after, refusal := some error }
    | (.ok 0, after) => { state := after, refusal := some .stalled }
    | (.ok (taken + 1), after) => writeAll (bytes.drop (taken + 1)) after
  termination_by bytes.length
  decreasing_by
    have := List.length_pos_iff.mpr ‹¬bytes = []›
    simp only [List.length_drop]
    omega

/-- The destination made of a byte writer. -/
structure WriterDestination (ω : Type) where
  writer : ω
  deriving Repr, DecidableEq

instance [ByteWriter ω] : Destination (WriterDestination ω) where
  writeBytes bytes destination :=
    let reply := writeAll bytes destination.writer
    { state := ⟨reply.state⟩, refusal := reply.refusal }

/-- A writer with room for so many bytes. -/
structure BoundedWriter where
  /-- The number of bytes it can hold; nothing means any number. -/
  limit : Option Nat := none
  /-- Whether it takes a part of bytes that do not fit whole. -/
  takesParts : Bool := false
  content : List UInt8 := []
  deriving Repr, DecidableEq

namespace BoundedWriter

/-- The failure of a full writer that takes no parts. -/
def full : WriteError :=
  ⟨.tookNothing, "full"⟩

/-- Whether bytes fit whole. -/
def fits (writer : BoundedWriter) (bytes : List UInt8) : Bool :=
  match writer.limit with
  | none => true
  | some limit => writer.content.length + bytes.length ≤ limit

/-- The number of bytes that still fit. -/
def room (writer : BoundedWriter) : Nat :=
  writer.limit.getD 0 - writer.content.length

/-- Keep bytes behind those that are there. -/
def keep (writer : BoundedWriter) (bytes : List UInt8) : BoundedWriter :=
  { writer with content := writer.content ++ bytes }

end BoundedWriter

instance : ByteWriter BoundedWriter where
  write bytes writer :=
    if writer.fits bytes then
      (.ok bytes.length, writer.keep bytes)
    else if writer.takesParts then
      (.ok writer.room, writer.keep (bytes.take writer.room))
    else
      (.error BoundedWriter.full, writer)
  uninterrupted {bytes} {writer} {error} answer := by
    split at answer
    · cases answer
    split at answer
    · cases answer
    · cases answer
      exact WriteErrorKind.noConfusion

/-- Something that takes text or fails; a failure has no reason. -/
class TextWriter (ω : Type) where
  writeText : String → ω → Bool × ω
  writeChar : Char → ω → Bool × ω := fun character => writeText (String.singleton character)

/-- The failure of a text writer. -/
def WriteError.formatter : WriteError :=
  ⟨.other, "formatter error"⟩

/-- The destination made of a text writer; bytes have to be UTF-8. -/
structure TextWriterDestination (ω : Type) where
  writer : ω
  deriving Repr, DecidableEq

namespace TextWriterDestination

/-- The reply that stands for a text writer's answer. -/
def reply (answer : Bool × ω) : Reply (TextWriterDestination ω) :=
  { state := ⟨answer.2⟩, refusal := if answer.1 then none else some .formatter }

end TextWriterDestination

instance [TextWriter ω] : Destination (TextWriterDestination ω) where
  writeBytes bytes destination :=
    match Utf8.decode bytes with
    | .ok characters =>
        TextWriterDestination.reply
          (TextWriter.writeText (String.ofList characters) destination.writer)
    | .error fault => { state := destination, refusal := some (.ofUtf8 fault) }
  writeText text destination :=
    TextWriterDestination.reply (TextWriter.writeText text destination.writer)
  writeChar character destination :=
    TextWriterDestination.reply (TextWriter.writeChar character destination.writer)

end CaptureFormat
