import CaptureFormat.Conversion.Field
import CaptureFormat.Text.HexDump

namespace CaptureFormat.Conversion

/-!
# Integers in a radix

The precision is a least number of digits.  Without a precision, a width with
zeros counts as one, less the place of the sign, so the zeros stand between
the sign and the digits.  Zero with a precision of 0 has no digits at all and
shows no sign either.
-/

open Numeral

/-- How the digits of an integer are written. -/
inductive Radix where
  | binary
  | octal
  /-- Octal with a mark in front, whatever the flags. -/
  | markedOctal
  | decimal
  | hexadecimal : LetterCase → Radix
  deriving Repr, DecidableEq

namespace Radix

/-- The base of the digits. -/
def base : Radix → Nat
  | .binary => 2
  | .octal => 8
  | .markedOctal => 8
  | .decimal => 10
  | .hexadecimal _ => 16

/-- The letter case of the digits. -/
def letters : Radix → LetterCase
  | .hexadecimal letters => letters
  | _ => .lower

/--
The mark in front of the digits.  That of octal in the alternate form is a
zero, which only stands if the digits, with the zeros that fill them up, do not
begin with one.
-/
def mark (radix : Radix) (alternate : Bool) (minimum : Nat) (digits : List Char) : List Char :=
  match radix with
  | .markedOctal => ['0', 'o']
  | .binary => if alternate then ['0', 'b'] else []
  | .hexadecimal letters => if alternate then HexDump.baseMark letters else []
  | .octal =>
      if alternate && minimum ≤ digits.length && digits.head? != some '0' then ['0'] else []
  | .decimal => []

end Radix

/-- The least number of digits that a directive asks of a number with the given sign. -/
def leastDigits (directive : Directive) (sign : List Char) : Nat :=
  match directive.precision with
  | some precision => precision
  | none => if directive.flags.zero then directive.width.getD 0 - sign.length else 0

/-- An integer in a radix. -/
def inRadix (radix : Radix) (directive : Directive) (number : Int) : List Char :=
  if directive.precision = some 0 ∧ number = 0 then
    directive.blank
  else
    let sign := directive.sign (number < 0)
    let minimum := leastDigits directive sign
    let digits := digits radix.base radix.letters number.natAbs
    let mark := radix.mark directive.flags.sharp minimum digits
    directive.padWith ' ' (sign ++ mark ++ digits.leftpad minimum '0')

/-- A number in hexadecimal behind a mark. -/
def markedHex (directive : Directive) (number : Nat) : List Char :=
  inRadix (.hexadecimal .lower) { directive with flags.sharp := true } number

end CaptureFormat.Conversion
