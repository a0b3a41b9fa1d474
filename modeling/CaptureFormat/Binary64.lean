namespace CaptureFormat

/-!
# Binary floating point

A floating-point number is its bit pattern: a sign bit, an exponent field, and
a fraction field.  Two numbers are equal when their patterns are, so a NaN
equals itself and the two zeros differ.

A finite number has the magnitude `significand * 2 ^ scale`.  The narrower
format is read only to be widened, which loses nothing.
-/

/-- A double-precision number in the IEEE 754 binary64 format. -/
structure Binary64 where
  bits : UInt64
  deriving Repr, DecidableEq

/-- A single-precision number in the IEEE 754 binary32 format. -/
structure Binary32 where
  bits : UInt32
  deriving Repr, DecidableEq

namespace Binary64

/-- The number of fractions, which is the weight of the lowest exponent bit. -/
def fractionCount : Nat := 0x10000000000000

/-- The number of exponent fields. -/
def exponentCount : Nat := 0x800

/-- The weight of the sign bit. -/
def signWeight : Nat := fractionCount * exponentCount

/-- The number with the given sign, exponent field, and fraction field. -/
def ofFields (negative : Bool) (exponent fraction : Nat) : Binary64 :=
  ⟨UInt64.ofNat
    ((if negative then signWeight else 0) + exponent * fractionCount + fraction)⟩

/-- The quiet NaN without a sign and without a payload. -/
def nan : Binary64 :=
  ofFields false 0x7FF (fractionCount / 2)

/-- Whether the sign bit is set. -/
def isNegative (number : Binary64) : Bool :=
  signWeight ≤ number.bits.toNat

/-- The exponent field. -/
def exponentField (number : Binary64) : Nat :=
  number.bits.toNat / fractionCount % exponentCount

/-- The fraction field. -/
def fractionField (number : Binary64) : Nat :=
  number.bits.toNat % fractionCount

/-- Whether the number is a NaN. -/
def isNaN (number : Binary64) : Bool :=
  number.exponentField == 0x7FF && number.fractionField != 0

/-- Whether the number is neither a NaN nor an infinity. -/
def isFinite (number : Binary64) : Bool :=
  number.exponentField != 0x7FF

/-- The significand of a finite number, as an integer below `2 ^ 53`. -/
def significand (number : Binary64) : Nat :=
  if number.exponentField = 0 then
    number.fractionField
  else
    fractionCount + number.fractionField

/-- The power of two that a finite number's significand is multiplied by. -/
def scale (number : Binary64) : Int :=
  (max number.exponentField 1 : Nat) - 1075

/--
Whether the next smaller magnitude is half as far away as the next larger
one, which is so at the powers of two above the least normal one.
-/
def isNarrowBelow (number : Binary64) : Bool :=
  number.fractionField == 0 && 1 < number.exponentField

end Binary64

namespace Binary32

/-- The number of fractions, which is the weight of the lowest exponent bit. -/
def fractionCount : Nat := 0x800000

/-- The number of exponent fields. -/
def exponentCount : Nat := 0x100

/-- The weight of the sign bit. -/
def signWeight : Nat := fractionCount * exponentCount

/-- Whether the sign bit is set. -/
def isNegative (number : Binary32) : Bool :=
  signWeight ≤ number.bits.toNat

/-- The exponent field. -/
def exponentField (number : Binary32) : Nat :=
  number.bits.toNat / fractionCount % exponentCount

/-- The fraction field. -/
def fractionField (number : Binary32) : Nat :=
  number.bits.toNat % fractionCount

/--
The same number in double precision.  Subnormal numbers become normal ones;
every NaN becomes the NaN without a payload.
-/
def widen (number : Binary32) : Binary64 :=
  let fraction := number.fractionField
  if number.exponentField = 0xFF then
    if fraction = 0 then
      Binary64.ofFields number.isNegative 0x7FF 0
    else
      Binary64.nan
  else if number.exponentField ≠ 0 then
    Binary64.ofFields number.isNegative
      (number.exponentField + 896)
      (fraction * (Binary64.fractionCount / fractionCount))
  else if fraction = 0 then
    Binary64.ofFields number.isNegative 0 0
  else
    let leadingBit := fraction.log2
    Binary64.ofFields number.isNegative
      (leadingBit + 874)
      ((fraction - Nat.pow 2 leadingBit) * Nat.pow 2 (52 - leadingBit))

end Binary32

end CaptureFormat
