import CaptureFormat.Decimal.Basic

namespace CaptureFormat

/-!
# The shortest decimal that reads back

Every real number in an interval around a binary number rounds to it.  The
interval reaches half way to either neighbour, and its ends belong to it when
the significand is even.

The decimal of a binary number is taken from the coarsest grid of powers of
ten that has a point in the interval.  A grid has such a point exactly when
the number itself, or one of its two neighbours on the grid, is one; of two
neighbours the nearer is taken, and of two equally near ones the larger.
-/

/-- The numbers that round to one binary number, in units of `10 ^ exponent`. -/
structure RoundingInterval where
  low : Nat
  value : Nat
  high : Nat
  exponent : Int
  closed : Bool
  deriving Repr, DecidableEq

namespace RoundingInterval

/-- The interval of a finite binary number that is not zero. -/
def ofBinary64 (number : Binary64) : RoundingInterval :=
  let quarter := number.scale - 2
  let factor :=
    if 0 ≤ quarter then Nat.pow 2 quarter.toNat else Nat.pow 5 (-quarter).toNat
  let below := if number.isNarrowBelow then 1 else 2
  {
    low := (4 * number.significand - below) * factor
    value := 4 * number.significand * factor
    high := (4 * number.significand + 2) * factor
    exponent := min quarter 0
    closed := number.significand % 2 == 0
  }

/-- Whether a multiple of the unit lies in the interval. -/
def contains (interval : RoundingInterval) (candidate : Nat) : Bool :=
  if interval.closed then
    interval.low ≤ candidate && candidate ≤ interval.high
  else
    interval.low < candidate && candidate < interval.high

/-- The nearest point of the grid of multiples of `step` that lies in the interval. -/
def pointOn? (interval : RoundingInterval) (step : Nat) : Option Nat :=
  let below := interval.value / step
  let above := below + 1
  match interval.contains (below * step), interval.contains (above * step) with
  | true, true =>
      if interval.value - below * step < above * step - interval.value then
        some below
      else
        some above
  | true, false => some below
  | false, true => some above
  | false, false => none

/-- The point on the coarsest grid, of those with at most `10 ^ power` units to a step. -/
def coarsest (interval : RoundingInterval) : Nat → Decimal
  | 0 => ⟨interval.value, interval.exponent⟩
  | power + 1 =>
      match interval.pointOn? (Nat.pow 10 (power + 1)) with
      | some point => ⟨point, interval.exponent + (power + 1 : Nat)⟩
      | none => interval.coarsest power

end RoundingInterval

/-- The magnitude of a finite binary number, with the fewest digits that read back. -/
def Decimal.shortest (number : Binary64) : Significand :=
  if number.significand = 0 then
    ⟨['0'], 1⟩
  else
    let interval := RoundingInterval.ofBinary64 number
    let digitCount := (Numeral.decimal interval.value).length
    (Significand.ofDecimal (interval.coarsest (digitCount - 1))).trimmed

end CaptureFormat
