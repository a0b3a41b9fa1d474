import CaptureFormat.Numeral
import CaptureFormat.Text.Printable
import CaptureFormat.Text.Utf8

namespace CaptureFormat.Quoted

/-!
# Quoted text

Text between quotes, with every character that does not show as itself
replaced by an escape: a letter for the common controls, `\x` with two hex
digits for other controls below U+0080, `\u` with four, and `\U` with eight.
Bytes that belong to no character are written `\x` with two hex digits.
-/

open Numeral Printable

/-- The letter that names a control in its escape. -/
def controlLetter? (character : Char) : Option Char :=
  match character.toNat with
  | 0x07 => some 'a'
  | 0x08 => some 'b'
  | 0x09 => some 't'
  | 0x0A => some 'n'
  | 0x0B => some 'v'
  | 0x0C => some 'f'
  | 0x0D => some 'r'
  | _ => none

/-- An escape with a code point in a fixed number of hex digits. -/
def codeEscape (letter : Char) (width code : Nat) : List Char :=
  '\\' :: letter :: padded 16 .lower width code

/-- The escape of a character that does not show as itself. -/
def unprintable (character : Char) : List Char :=
  match controlLetter? character with
  | some letter => ['\\', letter]
  | none =>
      let code := character.toNat
      if code < 0x20 ∨ code = 0x7F then
        codeEscape 'x' 2 code
      else if code < 0x10000 then
        codeEscape 'u' 4 code
      else
        codeEscape 'U' 8 code

/--
A character as it stands between `quote`s: the quote and the backslash after
a backslash, a printable character as itself, any other as an escape.  With
`asciiOnly`, only ASCII characters count as printable.
-/
def escape (quote : Char) (asciiOnly : Bool) (character : Char) : List Char :=
  if character = quote ∨ character = '\\' then
    ['\\', character]
  else if isPrintable character && (!asciiOnly || character.toNat < 0x80) then
    [character]
  else
    unprintable character

/-- A piece of a byte sequence as it stands between double quotes. -/
def escapePiece (asciiOnly : Bool) : Utf8.Piece → List Char
  | .character character => escape '\x22' asciiOnly character
  | .byte byte => codeEscape 'x' 2 byte.toNat

/-- Put a quote on either side. -/
def enclose (quote : Char) (inner : List Char) : List Char :=
  quote :: inner ++ [quote]

/-- Text between double quotes. -/
def text (asciiOnly : Bool) (characters : List Char) : List Char :=
  enclose '\x22' (characters.flatMap (escape '\x22' asciiOnly))

/-- Pieces of a byte sequence between double quotes. -/
def pieces (asciiOnly : Bool) (parts : List Utf8.Piece) : List Char :=
  enclose '\x22' (parts.flatMap (escapePiece asciiOnly))

/-- Bytes between double quotes. -/
def bytes (asciiOnly : Bool) (content : List UInt8) : List Char :=
  pieces asciiOnly (Utf8.pieces content)

/-- One character between single quotes. -/
def character (asciiOnly : Bool) (single : Char) : List Char :=
  enclose '\x27' (escape '\x27' asciiOnly single)

/-- The quote around text that is written without escapes. -/
def rawQuote : Char := '\x60'

/-- Whether text can stand between raw quotes: it holds none, no U+FEFF, and no control but tab. -/
def fitsRaw (characters : List Char) : Bool :=
  characters.all fun single =>
    single != rawQuote && single != '\uFEFF' && (!isControl single || single == '\t')

/-- Text between raw quotes. -/
def raw (characters : List Char) : List Char :=
  enclose rawQuote characters

end CaptureFormat.Quoted
