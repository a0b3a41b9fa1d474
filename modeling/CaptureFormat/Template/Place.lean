import CaptureFormat.Template.Count
import CaptureFormat.Text.Utf8

namespace CaptureFormat

/-!
# Places in a text

A place lies between two characters of a text.  It keeps the characters on
either side, so it can never lie inside a character or past the end.  Its
offset is the number of bytes in front of it.
-/

/-- A place in a text; the characters in front of it are kept nearest first. -/
structure Place where
  passed : List Char
  rest : List Char
  deriving Repr, DecidableEq

namespace Place

/-- The place in front of a text. -/
def start (text : String) : Place :=
  ⟨[], text.toList⟩

/-- The number of bytes in front of the place. -/
def offset (place : Place) : Nat :=
  Utf8.size place.passed

/-- Whether nothing is left behind the place. -/
def atEnd (place : Place) : Bool :=
  place.rest.isEmpty

/-- The character behind the place. -/
def next? (place : Place) : Option Char :=
  place.rest.head?

/-- The character after the next one. -/
def second? (place : Place) : Option Char :=
  place.rest.tail.head?

/-- Pass the next character, if there is one. -/
def pass (place : Place) : Place :=
  match place.rest with
  | [] => place
  | next :: rest => ⟨next :: place.passed, rest⟩

/-- Pass all characters up to the first that fails a test. -/
def passWhile (place : Place) (test : Char → Bool) : Place :=
  ⟨(place.rest.takeWhile test).reverse ++ place.passed, place.rest.dropWhile test⟩

/-- Pass the next character if it is the given one, and say whether it was. -/
def passIf (place : Place) (expected : Char) : Bool × Place :=
  if place.next? = some expected then (true, place.pass) else (false, place)

/-- Pass a run of digits and give its value up to the cap, if there is a run. -/
def passNumber (place : Place) (cap : UInt64) : Option UInt64 × Place :=
  match Count.read? cap place.rest with
  | some (value, _) => (some value, place.passWhile Char.isDigit)
  | none => (none, place)

/-- Go in front of the next such character, or to the end, and say whether there is one. -/
def passTo (place : Place) (target : Char) : Bool × Place :=
  let found := place.passWhile (· != target)
  (!found.atEnd, found)

/-- Drop a number of bytes, if that is a whole number of characters. -/
def dropBytes? : Nat → List Char → Option (List Char)
  | 0, characters => some characters
  | _ + 1, [] => none
  | count + 1, first :: rest =>
      if first.utf8Size ≤ count + 1 then
        dropBytes? (count + 1 - first.utf8Size) rest
      else
        none

/-- The text from an offset up to the place, if it is the offset of a place before it. -/
def textSince? (place : Place) (offset : Nat) : Option String :=
  (dropBytes? offset place.passed.reverse).map String.ofList

/-- The text behind the place. -/
def remainder (place : Place) : String :=
  String.ofList place.rest

end Place

end CaptureFormat
