import CaptureFormat.Conversion.Field
import CaptureFormat.Text.HexDump
import CaptureFormat.Text.Quoted

namespace CaptureFormat.Conversion

/-!
# Text

Text is written as it is, quoted, or as a hex dump of its bytes.  A precision
cuts the text, or the bytes of the dump, before anything else is done to them.
-/

/-- A dump of as many bytes as the precision says, padded to the width. -/
def hex (letters : Numeral.LetterCase) (directive : Directive) (bytes : List UInt8) : List Char :=
  match directive.truncate bytes with
  | [] => directive.blank
  | kept =>
      directive.pad
        (HexDump.dump ⟨letters, directive.flags.space, directive.flags.sharp⟩ kept)

/-- Text between quotes; in the alternate form between raw quotes, where it fits. -/
def quoted (directive : Directive) (text : List Char) : List Char :=
  let kept := directive.truncate text
  if directive.flags.sharp && Quoted.fitsRaw kept then
    directive.pad (Quoted.raw kept)
  else
    directive.pad (Quoted.text directive.flags.plus kept)

/-- Text for the directive's verb, if the verb applies to text. -/
def text? (directive : Directive) (text : List Char) : Option (List Char) :=
  match directive.verb with
  | 'v' =>
      if directive.flags.source then
        some (directive.pad (Quoted.text false text))
      else
        some (directive.pad (directive.truncate text))
  | 's' => some (directive.pad (directive.truncate text))
  | 'q' => some (quoted directive text)
  | 'x' => some (hex .lower directive (Utf8.encode text))
  | 'X' => some (hex .upper directive (Utf8.encode text))
  | _ => none

end CaptureFormat.Conversion
