import CaptureFormat.Template.Count
import Mathlib.Data.UInt

namespace CaptureFormat.Count

/-!
# The value of a count

A count is built in words, digit by digit, and every step may stop at the
greatest word or at the cap.  None of this shows: the result is the decimal
value of the digits, clamped once.

The invariant is that the word so far is the clamped value so far.  It survives
a digit because clamping early cannot bring a value back below the cap.
-/

theorem toNat_saturatingMul (left right : UInt64) :
    (saturatingMul left right).toNat =
      min (left.toNat * right.toNat) (UInt64.size - 1) := by
  apply UInt64.toNat_ofNat_of_lt'
  have size : 0 < UInt64.size := by decide
  omega

theorem toNat_saturatingAdd (left right : UInt64) :
    (saturatingAdd left right).toNat =
      min (left.toNat + right.toNat) (UInt64.size - 1) := by
  apply UInt64.toNat_ofNat_of_lt'
  have size : 0 < UInt64.size := by decide
  omega

theorem toNat_digitValue (digit : Char) :
    (digitValue digit).toNat = digit.toNat - '0'.toNat := by
  apply UInt64.toNat_ofNat_of_lt'
  have small : digit.toNat < 2 ^ 32 := digit.val.toNat_lt
  have size : UInt64.size = 2 ^ 64 := rfl
  omega

theorem toNat_push (cap value : UInt64) (digit : Char) :
    (push cap value digit).toNat =
      min (10 * value.toNat + (digit.toNat - '0'.toNat)) cap.toNat := by
  have capFits : cap.toNat ≤ UInt64.size - 1 := by
    have := cap.toNat_lt
    have size : UInt64.size = 2 ^ 64 := rfl
    omega
  have ten : (10 : UInt64).toNat = 10 := rfl
  -- stopping at the greatest word cannot show, because the cap is a word
  rw [push, UInt64.toNat_min, toNat_saturatingAdd, toNat_saturatingMul,
    toNat_digitValue, ten]
  omega

/-- Digits behind a clamped value give the clamped value of all of them. -/
theorem toNat_foldl_push
    (cap : UInt64)
    (digits : List Char)
    {word : UInt64}
    {value : Nat}
    (clamped : word.toNat = min value cap.toNat) :
    (digits.foldl (push cap) word).toNat =
      min (Nat.ofDigitChars 10 digits value) cap.toNat := by
  induction digits generalizing word value with
  | nil =>
      exact clamped
  | cons digit rest inductionHypothesis =>
      rw [List.foldl_cons, Nat.ofDigitChars_cons]
      apply inductionHypothesis
      -- a value that was clamped stays at the cap
      rw [toNat_push, clamped]
      omega

/-- A count is the decimal value of its digits, or the cap if that is less. -/
theorem toNat_ofDigits (cap : UInt64) (digits : List Char) :
    (ofDigits cap digits).toNat =
      min (Nat.ofDigitChars 10 digits 0) cap.toNat :=
  toNat_foldl_push cap digits (Nat.zero_min cap.toNat).symm

end CaptureFormat.Count
