namespace CaptureFormat.Printable

/-!
# Printable characters

A character is printable when it shows as itself: it is no control, no white
space other than U+0020, no noncharacter, not for private use, and not one of
the invisible format controls.
-/

/-- The controls: C0, DELETE, and C1. -/
def isControl (character : Char) : Bool :=
  let code := character.toNat
  code < 0x20 || (0x7F ≤ code && code < 0xA0)

/-- The characters with the Unicode property White_Space. -/
def isWhiteSpace (character : Char) : Bool :=
  let code := character.toNat
  (0x09 ≤ code && code ≤ 0x0D) || code == 0x20 || code == 0x85 || code == 0xA0 ||
    code == 0x1680 || (0x2000 ≤ code && code ≤ 0x200A) || code == 0x2028 || code == 0x2029 ||
    code == 0x202F || code == 0x205F || code == 0x3000

/-- The code points that will never be assigned a character. -/
def isNoncharacter (character : Char) : Bool :=
  let code := character.toNat
  (0xFDD0 ≤ code && code ≤ 0xFDEF) || code % 0x10000 / 2 == 0x7FFF

/-- The code points set aside for private use. -/
def isPrivate (character : Char) : Bool :=
  let code := character.toNat
  (0xE000 ≤ code && code ≤ 0xF8FF) || 0xF0000 ≤ code

/-- The invisible characters that direct the layout of the text around them. -/
def isFormat (character : Char) : Bool :=
  let code := character.toNat
  code == 0xAD || (0x600 ≤ code && code ≤ 0x605) || (0x200B ≤ code && code ≤ 0x200F) ||
    (0x2028 ≤ code && code ≤ 0x202E) || (0x2060 ≤ code && code ≤ 0x2064) || code == 0xFEFF

/-- Whether a character shows as itself. -/
def isPrintable (character : Char) : Bool :=
  character == ' ' ||
    !(isControl character || isWhiteSpace character || isNoncharacter character ||
      isPrivate character || isFormat character)

end CaptureFormat.Printable
