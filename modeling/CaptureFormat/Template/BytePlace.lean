import CaptureFormat.Template.Count
import CaptureFormat.Text.Utf8

namespace CaptureFormat

/-!
# Places as offsets

A place in a text can be kept as the number of bytes in front of it.  A move is
then an addition, and a search goes over bytes without reading characters.  But
not every number is an offset: it may lie inside a character or past the end,
and there the text cannot be cut.  An operation that would have to cut it there
has no answer.
-/

namespace Utf8

/-- Whether a byte continues a character. -/
def isContinuation (byte : UInt8) : Bool :=
  0x80 ≤ byte && byte ≤ 0xBF

/-- Whether an encoded text can be cut at an offset: at its end, or where a character starts. -/
def isBoundary (bytes : List UInt8) (offset : Nat) : Bool :=
  match bytes[offset]? with
  | some byte => !isContinuation byte
  | none => offset == bytes.length

end Utf8

/-- A place in a text, as a number of bytes. -/
structure BytePlace where
  text : String
  offset : Nat := 0
  deriving Repr, DecidableEq

namespace BytePlace

/-- The bytes of the text. -/
def bytes (place : BytePlace) : List UInt8 :=
  Utf8.encode place.text.toList

/-- The bytes between two offsets, if the text can be cut at both. -/
def cut? (place : BytePlace) (start stop : Nat) : Option (List UInt8) :=
  if start ≤ stop ∧ Utf8.isBoundary place.bytes start ∧ Utf8.isBoundary place.bytes stop then
    some ((place.bytes.drop start).take (stop - start))
  else
    none

/-- The text between two offsets, if it can be cut at both. -/
def slice? (place : BytePlace) (start stop : Nat) : Option (List Char) := do
  (Utf8.decode (← place.cut? start stop)).toOption

/-- The characters behind the place. -/
def rest? (place : BytePlace) : Option (List Char) :=
  place.slice? place.offset place.bytes.length

/-- The text from an offset up to the place. -/
def textSince? (place : BytePlace) (start : Nat) : Option String :=
  (place.slice? start place.offset).map String.ofList

/-- The text behind the place. -/
def remainder? (place : BytePlace) : Option String :=
  place.rest?.map String.ofList

/-- Whether nothing is left behind the place. -/
def atEnd (place : BytePlace) : Bool :=
  place.bytes.length ≤ place.offset

/-- The same place so many bytes further on. -/
def skip (place : BytePlace) (count : Nat) : BytePlace :=
  { place with offset := place.offset + count }

/-- The character behind the place. -/
def next? (place : BytePlace) : Option (Option Char) :=
  place.rest?.map List.head?

/-- The character after the next one. -/
def second? (place : BytePlace) : Option (Option Char) :=
  place.rest?.map (·.tail.head?)

/-- Pass the next character, if there is one. -/
def pass? (place : BytePlace) : Option BytePlace := do
  match ← place.next? with
  | some next => some (place.skip next.utf8Size)
  | none => some place

/-- Pass the next character if it is the given one, and say whether it was. -/
def passIf? (place : BytePlace) (expected : Char) : Option (Bool × BytePlace) := do
  if (← place.next?) = some expected then
    some (true, place.skip expected.utf8Size)
  else
    some (false, place)

/-- Whether a byte is a decimal digit. -/
def isDigit (byte : UInt8) : Bool :=
  0x30 ≤ byte && byte ≤ 0x39

/-- Append a digit to a value, up to the cap. -/
def push (cap value : UInt64) (digit : UInt8) : UInt64 :=
  min
    (Count.saturatingAdd (Count.saturatingMul value 10) (digit - 0x30).toUInt64)
    cap

/-- Pass a run of digits and give its value up to the cap, if there is a run. -/
def passNumber? (place : BytePlace) (cap : UInt64) :
    Option (Option UInt64 × BytePlace) := do
  let digits := (← place.cut? place.offset place.bytes.length).takeWhile isDigit
  if digits = [] then
    some (none, place)
  else
    some (some (digits.foldl (push cap) 0), place.skip digits.length)

/-- Go in front of the next such byte, or to the end, and say whether there is one. -/
def passTo? (place : BytePlace) (target : UInt8) : Option (Bool × BytePlace) :=
  if place.offset ≤ place.bytes.length then
    match (place.bytes.drop place.offset).idxOf? target with
    | some distance => some (true, place.skip distance)
    | none => some (false, { place with offset := place.bytes.length })
  else
    none

/-- In front of a character, bytes are left. -/
theorem offset_lt_of_next?
    {place : BytePlace}
    {next : Char}
    (isNext : place.next? = some (some next)) :
    place.offset < place.bytes.length := by
  refine Nat.lt_of_not_le fun atEnd => ?_
  have nothing : place.bytes.drop place.offset = [] :=
    List.drop_eq_nil_of_le atEnd
  rw [next?, rest?, slice?, cut?, nothing] at isNext
  split at isNext
  · simp [Utf8.decode, Utf8.decodeFrom, Except.toOption] at isNext
  · cases isNext

/-- Pass characters as long as they can be taken into a state. -/
def passInto?
    (take : α → Char → Option α)
    (state : α)
    (place : BytePlace) :
    Option (α × BytePlace) :=
  match _isNext : place.next? with
  | none => none
  | some none => some (state, place)
  | some (some next) =>
      match take state next with
      | some after => passInto? take after (place.skip next.utf8Size)
      | none => some (state, place)
  termination_by place.bytes.length - place.offset
  decreasing_by
    have left := offset_lt_of_next? _isNext
    have positive := next.utf8Size_pos
    change place.bytes.length - (place.offset + next.utf8Size) < _
    omega

end BytePlace

end CaptureFormat
