import CaptureFormat.Destination.Basic

namespace CaptureFormat

/-!
# Output

The output of a program goes to a destination.  It counts the bytes of the
writes that were accepted and remembers the first refusal.  After it, every
write fails in the same way and the destination is not touched again.
-/

/-- A destination with the number of bytes written to it and its first failure. -/
structure Output (σ : Type) where
  destination : σ
  written : Nat := 0
  failure : Option WriteError := none
  deriving Repr, DecidableEq

namespace Output

/-- Output to a destination that nothing was written to. -/
def ofDestination (destination : σ) : Output σ :=
  { destination }

/-- Whether a write has failed. -/
def isFailed (output : Output σ) : Bool :=
  output.failure.isSome

/-- The output after a destination's reply to a write of so many bytes. -/
def afterReply (output : Output σ) (size : Nat) (reply : Reply σ) : Output σ :=
  match reply.refusal with
  | none => { output with destination := reply.state, written := output.written + size }
  | some error => { output with destination := reply.state, failure := some error }

/-- Write, unless a write has failed, and answer with the failure if there is one. -/
def write [Destination σ] (output : Output σ) (write : Write) : Option WriteError × Output σ :=
  match output.failure with
  | some error => (some error, output)
  | none =>
      let reply := write.send output.destination
      (reply.refusal, output.afterReply write.size reply)

/-- Write text. -/
def writeText [Destination σ] (output : Output σ) (text : String) : Output σ :=
  (output.write (.text text)).2

end Output

end CaptureFormat
