namespace CaptureFormat.Numeral

/-!
# Numerals

Natural numbers written in a base from two to sixteen, most significant digit
first.  The digits come from `Nat.toDigits`; this module adds the letter case
of the digits above nine and a least number of digits.
-/

/-- The letters that stand for the digits from ten to fifteen. -/
inductive LetterCase where
  | lower
  | upper
  deriving Repr, DecidableEq

/-- Write a digit character in a letter case. -/
def LetterCase.apply : LetterCase → Char → Char
  | .lower, digit => digit
  | .upper, digit => digit.toUpper

/-- The digits of a number, without leading zeros. -/
def digits (base : Nat) (letters : LetterCase) (number : Nat) : List Char :=
  (Nat.toDigits base number).map letters.apply

/-- The digits of a number, with leading zeros up to `minimum` digits. -/
def padded
    (base : Nat)
    (letters : LetterCase)
    (minimum number : Nat) :
    List Char :=
  (digits base letters number).leftpad minimum '0'

/-- The decimal digits of a number. -/
def decimal (number : Nat) : List Char :=
  digits 10 .lower number

end CaptureFormat.Numeral
