import CaptureFormat.Text.Utf8

namespace CaptureFormat

/-!
# Destinations

A destination takes bytes, text, and single characters.  It answers a write
with its new state and, if it refused the write, with the reason.  A refused
write may still change the destination.

Only writing bytes is required.  Text is then written as its bytes and a
character as the text that it is.  A destination that has a way of its own for
either says so.
-/

/-- The kinds of reasons for which a write fails; a destination may give any of them. -/
inductive WriteErrorKind where
  -- what is written to, and the right to do so
  | notFound
  | alreadyExists
  | permissionDenied
  | notADirectory
  | isADirectory
  | directoryNotEmpty
  | readOnlyFilesystem
  | filesystemLoop
  | staleFileHandle
  | invalidFilename
  | crossesDevices
  | tooManyLinks
  | executableFileBusy
  -- connections
  | connectionRefused
  | connectionReset
  | connectionAborted
  | notConnected
  | addressInUse
  | addressNotAvailable
  | hostUnreachable
  | networkUnreachable
  | networkDown
  | brokenPipe
  -- what is asked for
  | invalidInput
  | invalidData
  | argumentListTooLong
  | notSeekable
  | unsupported
  | unexpectedEnd
  -- what there is room and time for
  /-- No byte was taken of some that were given. -/
  | tookNothing
  | storageFull
  | quotaExceeded
  | fileTooLarge
  | outOfMemory
  | resourceBusy
  | deadlock
  | wouldBlock
  | inProgress
  | timedOut
  /-- A signal came in between; the same call may succeed when it is made again. -/
  | interrupted
  -- all else
  | other
  | uncategorized
  deriving Repr, DecidableEq

/-- Why a write failed. -/
structure WriteError where
  kind : WriteErrorKind
  message : String
  deriving Repr, DecidableEq

/-- A failed write in words. -/
def WriteError.description (error : WriteError) : String :=
  "write to sink failed: " ++ error.message

/-- The failure of a destination for text that is given bytes which are not UTF-8. -/
def WriteError.ofUtf8 (fault : Utf8.Fault) : WriteError :=
  ⟨.invalidData, fault.message⟩

/-- What a destination answers to a write. -/
structure Reply (σ : Type) where
  /-- The destination after the write. -/
  state : σ
  /-- Why the write was refused, if it was. -/
  refusal : Option WriteError := none
  deriving Repr, DecidableEq

/-- A place for output to go to. -/
class Destination (σ : Type) where
  /-- Write all of the bytes. -/
  writeBytes : List UInt8 → σ → Reply σ
  /-- Write all of the text. -/
  writeText : String → σ → Reply σ := fun text => writeBytes (Utf8.encode text.toList)
  /-- Write one character. -/
  writeChar : Char → σ → Reply σ := fun character => writeText (String.singleton character)

/-- One write. -/
inductive Write where
  | bytes : List UInt8 → Write
  | text : String → Write
  | char : Char → Write
  deriving Repr, DecidableEq

namespace Write

/-- The bytes that a write asks for. -/
def payload : Write → List UInt8
  | .bytes content => content
  | .text content => Utf8.encode content.toList
  | .char content => String.utf8EncodeChar content

/-- The number of bytes that a write asks for. -/
def size : Write → Nat
  | .bytes content => content.length
  | .text content => content.utf8ByteSize
  | .char content => content.utf8Size

/-- The size of a write is the number of its bytes. -/
theorem size_eq_length_payload (write : Write) :
    write.size = write.payload.length := by
  cases write with
  | bytes content =>
      rfl
  | text content =>
      simp only [size, payload, Utf8.utf8ByteSize_eq_size, Utf8.length_encode]
  | char content =>
      simp only [size, payload, String.length_utf8EncodeChar]

/-- Hand a write to a destination. -/
def send [Destination σ] : Write → σ → Reply σ
  | .bytes content, state => Destination.writeBytes content state
  | .text content, state => Destination.writeText content state
  | .char content, state => Destination.writeChar content state

end Write

/-- Text in memory takes any text, and bytes that are UTF-8. -/
instance : Destination String where
  writeBytes bytes text :=
    match Utf8.decode bytes with
    | .ok characters => { state := text ++ String.ofList characters }
    | .error fault => { state := text, refusal := some (.ofUtf8 fault) }
  writeText added text := { state := text ++ added }
  writeChar character text := { state := text.push character }

/-- Bytes in memory take everything. -/
instance : Destination (List UInt8) where
  writeBytes added bytes := { state := bytes ++ added }

/-- A destination that is lent to a writer; its owner finds in it what was written. -/
structure Lent (σ : Type) where
  destination : σ
  deriving Repr, DecidableEq

namespace Lent

/-- The reply of the destination, which stays lent. -/
def reply (answer : Reply σ) : Reply (Lent σ) :=
  { state := ⟨answer.state⟩, refusal := answer.refusal }

end Lent

/-- A lent destination is written to in the very way that was asked for. -/
instance [Destination σ] : Destination (Lent σ) where
  writeBytes bytes lent := Lent.reply (Destination.writeBytes bytes lent.destination)
  writeText text lent := Lent.reply (Destination.writeText text lent.destination)
  writeChar character lent := Lent.reply (Destination.writeChar character lent.destination)

/-- A destination that takes everything and keeps nothing. -/
structure Discard where
  deriving Repr, DecidableEq

instance : Destination Discard where
  writeBytes _ discard := { state := discard }

end CaptureFormat
