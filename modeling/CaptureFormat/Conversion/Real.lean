import CaptureFormat.Conversion.Field
import CaptureFormat.Decimal.Layout
import CaptureFormat.Decimal.Shortest

namespace CaptureFormat.Conversion

/-!
# Floating-point numbers

The scientific and the positional verbs write six decimals unless a precision
says otherwise.  The general verbs write the fewest digits that read back, or
as many digits as the precision says, and take the scientific layout for very
small and very large numbers.
-/

/-- The number of decimals where no precision is given. -/
def defaultDecimals : Nat := 6

/-- The digits that a general verb writes. -/
def generalDigits
    (precision : Option Nat)
    (keepZeros : Bool)
    (number : Binary64) :
    Significand :=
  match precision with
  | none => Decimal.shortest number
  | some count =>
      let rounded := (Decimal.magnitude number).toDigits (max count 1)
      if keepZeros then rounded else rounded.trimmed

/-- The magnitude of a finite number for a general verb. -/
def general
    (letter : Char)
    (precision : Option Nat)
    (alternate : Bool)
    (number : Binary64) :
    List Char :=
  let digits := generalDigits precision alternate number
  Significand.keepPoint alternate (digits.general letter (precision.map (max · 1)))

/-- The magnitude of a finite number in scientific layout. -/
def scientific
    (letter : Char)
    (directive : Directive)
    (number : Binary64) :
    List Char :=
  let decimals := directive.precision.getD defaultDecimals
  let digits := (Decimal.magnitude number).toDigits (decimals + 1)
  Significand.keepPoint directive.flags.sharp (digits.scientific letter decimals)

/-- The magnitude of a finite number in positional layout. -/
def positional (directive : Directive) (number : Binary64) : List Char :=
  let places := directive.precision.getD defaultDecimals
  let digits := Significand.ofDecimal ((Decimal.magnitude number).toPlaces places)
  Significand.keepPoint directive.flags.sharp (digits.positional places)

/-- The magnitude of a finite number for the directive's verb, if the verb applies. -/
def magnitude? (directive : Directive) (number : Binary64) : Option (List Char) :=
  match directive.verb with
  | 'v' => some (general 'e' none false number)
  | 'g' => some (general 'e' directive.precision directive.flags.sharp number)
  | 'G' => some (general 'E' directive.precision directive.flags.sharp number)
  | 'e' => some (scientific 'e' directive number)
  | 'E' => some (scientific 'E' directive number)
  | 'f' | 'F' => some (positional directive number)
  | _ => none

/-- A NaN or an infinity with its sign; an infinity always shows one. -/
def nonfinite (directive : Directive) (number : Binary64) : List Char :=
  if number.isNaN then
    directive.sign false ++ ['N', 'a', 'N']
  else if number.isNegative then
    ['-', 'I', 'n', 'f']
  else if directive.flags.space && !directive.flags.plus then
    [' ', 'I', 'n', 'f']
  else
    ['+', 'I', 'n', 'f']

/-- Put a sign in front of a magnitude, and zeros or spaces up to the width. -/
def signed (directive : Directive) (negative : Bool) (magnitude : List Char) : List Char :=
  let sign := directive.sign negative
  let length := sign.length + magnitude.length
  let width := directive.width.getD 0
  if directive.flags.zero ∧ length < width then
    sign ++ List.replicate (width - length) '0' ++ magnitude
  else
    directive.padWith ' ' (sign ++ magnitude)

/-- A floating-point number for the directive's verb, if the verb applies to them. -/
def float? (directive : Directive) (number : Binary64) : Option (List Char) :=
  (magnitude? directive number).map fun magnitude =>
    if number.isFinite then
      signed directive number.isNegative magnitude
    else
      directive.padWith ' ' (nonfinite directive number)

end CaptureFormat.Conversion
