import CaptureFormat.Numeral

namespace CaptureFormat.HexDump

/-!
# Hex dumps

Bytes as groups of two hex digits.  The groups run together behind one base
mark, or are separated by spaces, each with a mark of its own.
-/

open Numeral

/-- The layout of a dump. -/
structure Layout where
  letters : LetterCase
  spaced : Bool
  marked : Bool
  deriving Repr, DecidableEq

/-- The mark in front of hex digits. -/
def baseMark : LetterCase → List Char
  | .lower => ['0', 'x']
  | .upper => ['0', 'X']

/-- The mark of a layout, if it has one. -/
def Layout.mark (layout : Layout) : List Char :=
  if layout.marked then baseMark layout.letters else []

/-- The two digits of a byte. -/
def group (letters : LetterCase) (byte : UInt8) : List Char :=
  padded 16 letters 2 byte.toNat

/-- The dump of bytes; that of no bytes is empty. -/
def dump (layout : Layout) : List UInt8 → List Char
  | [] => []
  | first :: rest =>
      if layout.spaced then
        List.intercalate [' ']
          ((first :: rest).map fun byte => layout.mark ++ group layout.letters byte)
      else
        layout.mark ++ (first :: rest).flatMap (group layout.letters)

end CaptureFormat.HexDump
