import CaptureFormat.Decimal.Basic

namespace CaptureFormat.Significand

/-!
# Layouts of a decimal number

Positional layout writes the digits around a point.  Scientific layout writes
one digit before the point and an exponent with a sign and at least two
digits.  Neither writes a point that no digit follows; one that is to be there
in any case is put in afterwards.
-/

/-- A point and the digits after it, if there are any. -/
def fraction (digits : List Char) : List Char :=
  if digits = [] then [] else '.' :: digits

/-- An exponent: its letter, its sign, and at least two digits. -/
def exponent (letter : Char) (power : Int) : List Char :=
  letter :: (if power < 0 then '-' else '+') :: Numeral.padded 10 .lower 2 power.natAbs

/-- The power of ten of the first digit; that of zero counts as zero. -/
def firstPower (number : Significand) : Int :=
  if number.digits.head? = some '0' then 0 else number.point - 1

/-- One digit, `decimals` more after a point, and an exponent. -/
def scientific
    (letter : Char)
    (decimals : Nat)
    (number : Significand) :
    List Char :=
  number.digits.head?.getD '0' ::
    fraction (((number.digits.drop 1).take decimals).rightpad decimals '0') ++
    exponent letter number.firstPower

/-- The digits before the point; a lone zero if there are none. -/
def integerDigits (number : Significand) : List Char :=
  if 0 < number.point then
    (number.digits.take number.point.toNat).rightpad number.point.toNat '0'
  else
    ['0']

/-- The first `places` digits after the point. -/
def fractionDigits (places : Nat) (number : Significand) : List Char :=
  let digits :=
    (List.replicate (-number.point).toNat '0' ++ number.digits).drop number.point.toNat
  (digits.take places).rightpad places '0'

/-- The digits around a point, with `places` of them after it. -/
def positional (places : Nat) (number : Significand) : List Char :=
  number.integerDigits ++ fraction (number.fractionDigits places)

/-- The exponent from which on a number is laid out scientifically if no precision is given. -/
def shortestLimit : Int := 6

/--
Scientific layout when the exponent is below -4 or not below a limit, and
positional layout otherwise.

The limit is the precision, but no more than the number of digits if these
reach up to the point.  A precision that is larger than the number of digits
asks for no zeros behind them.
-/
def general
    (letter : Char)
    (precision : Option Nat)
    (number : Significand) :
    List Char :=
  let count := number.digits.length
  let wanted := precision.getD count
  let limit : Int :=
    match precision with
    | none => shortestLimit
    | some wanted =>
        if count < wanted ∧ number.point ≤ count then count else wanted
  let power := number.point - 1
  if power < -4 ∨ limit ≤ power then
    number.scientific letter (min wanted count - 1)
  else
    let last : Int := if number.point < wanted then count else wanted
    number.positional (last - number.point).toNat

/-- Put a point in a text that has none: in front of the exponent, or at the end. -/
def forcePoint (text : List Char) : List Char :=
  if '.' ∈ text then
    text
  else
    let mantissa :=
      text.takeWhile fun character => !(character == 'e' || character == 'E')
    mantissa ++ '.' :: text.drop mantissa.length

/-- A text with a point in any case, if the alternate form asks for one. -/
def keepPoint (alternate : Bool) (text : List Char) : List Char :=
  if alternate then forcePoint text else text

end CaptureFormat.Significand
