import CaptureFormat.Conversion.Characters
import CaptureFormat.Conversion.Radix

namespace CaptureFormat.Conversion

/-!
# Bytes

Bytes are written as the text that they encode, quoted, or as a hex dump.
Those that encode no text are replaced by the replacement character, or
escaped between quotes.
-/

/-- Bytes in source form. -/
def byteSource (bytes : List UInt8) : List Char :=
  "[]byte\x7b".toList ++
    List.intercalate [',', ' ']
      (bytes.map fun byte => markedHex (Directive.plain 'x') byte.toNat) ++
    ['}']

/-- Bytes between quotes, cut to as many characters as the precision says. -/
def quotedBytes (directive : Directive) (bytes : List UInt8) : List Char :=
  let kept :=
    match directive.precision with
    | none => bytes
    | some count => Utf8.front count bytes
  directive.pad (Quoted.bytes directive.flags.plus kept)

/-- Bytes for the directive's verb, if the verb applies to bytes as a whole. -/
def bytes? (directive : Directive) (bytes : List UInt8) : Option (List Char) :=
  match directive.verb with
  | 's' => some (directive.pad (directive.truncate (Utf8.lossy bytes)))
  | 'q' => some (quotedBytes directive bytes)
  | 'x' => some (hex .lower directive bytes)
  | 'X' => some (hex .upper directive bytes)
  | 'v' => if directive.flags.source then some (byteSource bytes) else none
  | _ => none

end CaptureFormat.Conversion
