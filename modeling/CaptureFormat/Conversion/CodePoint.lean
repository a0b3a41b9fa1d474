import CaptureFormat.Conversion.Field
import CaptureFormat.Text.Quoted

namespace CaptureFormat.Conversion

/-!
# Integers as code points

An integer names a character if it is a Unicode scalar value.  It is shown as
that character, as the character in single quotes, or as its code point in
hexadecimal.  Where a character is needed and there is none, the replacement
character stands in.
-/

open Numeral

/-- The code point that an integer is. -/
def codePoint? (number : Int) : Option Nat :=
  if 0 ≤ number ∧ number ≤ 0x10FFFF then some number.toNat else none

/-- The character whose code point an integer is; surrogates are none. -/
def scalar? (number : Int) : Option Char :=
  match codePoint? number with
  | some code => if code.isValidChar then some (Char.ofNat code) else none
  | none => none

/-- The character whose code point an integer is, or the replacement character. -/
def scalar (number : Int) : Char :=
  (scalar? number).getD Utf8.replacement

/-- The printable character in single quotes that may stand behind a code point. -/
def unicodeSuffix (number : Int) : List Char :=
  match scalar? number with
  | some character =>
      if Printable.isPrintable character then [' ', '\x27', character, '\x27'] else []
  | none => []

/-- The number of 64-bit words. -/
def wordCount : Int :=
  UInt64.size

/-- An integer as a code point; a negative one counts from the end of the 64-bit words. -/
def unicode (directive : Directive) (number : Int) : List Char :=
  let word := (number % wordCount).toNat
  let digits := padded 16 .upper (max 4 (directive.precision.getD 0)) word
  let suffix := if directive.flags.sharp then unicodeSuffix number else []
  directive.padWith ' ' ('U' :: '+' :: digits ++ suffix)

/-- An integer as the character that it names. -/
def character (directive : Directive) (number : Int) : List Char :=
  directive.pad [scalar number]

/-- An integer as the character that it names, in single quotes; only a code point has one. -/
def quotedCharacter? (directive : Directive) (number : Int) : Option (List Char) :=
  match codePoint? number with
  | some _ => some (directive.pad (Quoted.character directive.flags.plus (scalar number)))
  | none => none

end CaptureFormat.Conversion
