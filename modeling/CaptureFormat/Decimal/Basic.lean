import CaptureFormat.Binary64
import CaptureFormat.Numeral

namespace CaptureFormat

/-!
# Decimals

`Decimal` is an integer times a power of ten; every finite binary number is
one exactly.  `Significand` is the same number as text digits with a decimal
point, which is what the layouts write.

A decimal is cut to a number of places or to a number of digits.  Both round
to the nearest, and a tie goes to the even neighbour.
-/

/-- The number `coefficient * 10 ^ exponent`. -/
structure Decimal where
  coefficient : Nat
  exponent : Int
  deriving Repr, DecidableEq

/-- The number `0.digits * 10 ^ point`, with decimal digits. -/
structure Significand where
  digits : List Char
  point : Int
  deriving Repr, DecidableEq

/-- The integer nearest to a quotient; a tie goes to the even one. -/
def roundQuotient (numerator denominator : Nat) : Nat :=
  let quotient := numerator / denominator
  let twice := 2 * (numerator % denominator)
  if twice < denominator then
    quotient
  else if denominator < twice then
    quotient + 1
  else
    quotient + quotient % 2

namespace Significand

/-- The digits of a decimal, from its first nonzero one on. -/
def ofDecimal (decimal : Decimal) : Significand :=
  let digits := Numeral.decimal decimal.coefficient
  { digits, point := digits.length + decimal.exponent }

/-- Drop zeros from the end of a digit list. -/
def dropTrailingZeros (digits : List Char) : List Char :=
  digits.foldr
    (fun digit kept => if digit = '0' ∧ kept = [] then [] else digit :: kept) []

/-- The same number without zeros at its end; the first digit stays. -/
def trimmed (number : Significand) : Significand :=
  match number.digits with
  | [] => number
  | first :: rest => { number with digits := first :: dropTrailingZeros rest }

end Significand

namespace Decimal

/-- The exact magnitude of a finite binary number. -/
def magnitude (number : Binary64) : Decimal :=
  if 0 ≤ number.scale then
    ⟨number.significand * Nat.pow 2 number.scale.toNat, 0⟩
  else
    ⟨number.significand * Nat.pow 5 (-number.scale).toNat, number.scale⟩

/-- The nearest decimal with at most `places` digits after the point. -/
def toPlaces (places : Nat) (decimal : Decimal) : Decimal :=
  let excess := (-places - decimal.exponent).toNat
  if excess = 0 then
    decimal
  else
    ⟨roundQuotient decimal.coefficient (Nat.pow 10 excess), -places⟩

/--
The nearest number with exactly `count` digits.  Rounding up may carry into a
new first digit; the digit that then stands at the end is a zero and is cut.
-/
def toDigits (count : Nat) (decimal : Decimal) : Significand :=
  if decimal.coefficient = 0 then
    ⟨List.replicate count '0', 1⟩
  else
    let whole := Significand.ofDecimal decimal
    let excess := whole.digits.length - count
    if excess = 0 then
      { whole with digits := whole.digits.rightpad count '0' }
    else
      let rounded :=
        Significand.ofDecimal
          ⟨roundQuotient decimal.coefficient (Nat.pow 10 excess), decimal.exponent + excess⟩
      { rounded with digits := rounded.digits.take count }

end Decimal

end CaptureFormat
