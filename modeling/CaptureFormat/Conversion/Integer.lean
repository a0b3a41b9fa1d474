import CaptureFormat.Conversion.CodePoint
import CaptureFormat.Conversion.Radix

namespace CaptureFormat.Conversion

/-!
# Integers and addresses

The verb decides whether an integer is written in a radix or as a code point.
An address is an unsigned integer with verbs of its own.
-/

/-- An integer for the directive's verb, if the verb applies to integers. -/
def integer? (directive : Directive) (number : Int) : Option (List Char) :=
  match directive.verb with
  | 'v' => some (inRadix .decimal directive number)
  | 'd' => some (inRadix .decimal directive number)
  | 'b' => some (inRadix .binary directive number)
  | 'o' => some (inRadix .octal directive number)
  | 'O' => some (inRadix .markedOctal directive number)
  | 'x' => some (inRadix (.hexadecimal .lower) directive number)
  | 'X' => some (inRadix (.hexadecimal .upper) directive number)
  | 'c' => some (character directive number)
  | 'q' => quotedCharacter? directive number
  | 'U' => some (unicode directive number)
  | _ => none

/-- An unsigned integer, which in source form is hexadecimal behind a mark. -/
def unsigned? (directive : Directive) (number : UInt64) : Option (List Char) :=
  if directive.verb = 'v' ∧ directive.flags.source = true then
    some (markedHex directive number.toNat)
  else
    integer? directive number.toNat

/-- An address, which is hexadecimal behind a mark unless the verb says otherwise. -/
def pointer? (directive : Directive) (address : UInt64) : Option (List Char) :=
  match directive.verb with
  | 'p' =>
      if directive.flags.sharp then
        some (inRadix (.hexadecimal .lower)
          { directive with flags.sharp := false } address.toNat)
      else
        some (markedHex directive address.toNat)
  | 'v' =>
      if address = 0 then
        some (directive.pad "<nil>".toList)
      else
        some (markedHex directive address.toNat)
  | 'b' | 'o' | 'd' | 'x' | 'X' => integer? directive address.toNat
  | _ => none

end CaptureFormat.Conversion
