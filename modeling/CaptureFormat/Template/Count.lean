namespace CaptureFormat.Count

/-!
# Counts in a template

A width or a precision is a run of decimal digits of any length.  Its value is
built in 64-bit words that stop at their greatest value, and is clamped to a
cap after every digit, so no run can overflow.
-/

/-- The product, or the greatest word if the product is none. -/
def saturatingMul (left right : UInt64) : UInt64 :=
  UInt64.ofNat (min (left.toNat * right.toNat) (UInt64.size - 1))

/-- The sum, or the greatest word if the sum is none. -/
def saturatingAdd (left right : UInt64) : UInt64 :=
  UInt64.ofNat (min (left.toNat + right.toNat) (UInt64.size - 1))

/-- The value of a decimal digit. -/
def digitValue (digit : Char) : UInt64 :=
  UInt64.ofNat (digit.toNat - 48)

/-- Append a digit to a value, up to the cap. -/
def push (cap value : UInt64) (digit : Char) : UInt64 :=
  min (saturatingAdd (saturatingMul value 10) (digitValue digit)) cap

/-- The value of a run of digits, up to the cap. -/
def ofDigits (cap : UInt64) (digits : List Char) : UInt64 :=
  digits.foldl (push cap) 0

/-- The number that a text starts with, up to the cap, and the text behind it. -/
def read? (cap : UInt64) (text : List Char) : Option (UInt64 × List Char) :=
  match text.takeWhile Char.isDigit with
  | [] => none
  | digits => some (ofDigits cap digits, text.dropWhile Char.isDigit)

/-- What follows a number is an end part of the text. -/
theorem read?_suffix
    {cap value : UInt64}
    {text rest : List Char}
    (read : read? cap text = some (value, rest)) :
    rest <:+ text := by
  unfold read? at read
  split at read
  · cases read
  · cases read
    exact List.dropWhile_suffix _

end CaptureFormat.Count
