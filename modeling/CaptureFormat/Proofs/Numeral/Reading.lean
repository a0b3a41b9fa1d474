import CaptureFormat.Numeral
import Mathlib.Data.Nat.Log
import Mathlib.Tactic.Ring

namespace CaptureFormat.Numeral

/-!
# Reading digits back

A numeral is read from the left, and one character that is no digit of the base
makes it unreadable.  The digits of a number read back as that number, with any
zeros in front of them, and there are as many as the logarithm of the number
says.
-/

/-- The digits in their order, with the letters of one case. -/
def alphabet : LetterCase → List Char
  | .lower => "0123456789abcdef".toList
  | .upper => "0123456789ABCDEF".toList

/-- The number that a character stands for as a digit of a base. -/
def digitValue? (base : Nat) (letters : LetterCase) (digit : Char) : Option Nat :=
  ((alphabet letters).idxOf? digit).filter (· < base)

/-- The number that digits stand for behind others that stand for `value`. -/
def readFrom? (base : Nat) (letters : LetterCase) : Nat → List Char → Option Nat
  | value, [] => some value
  | value, digit :: rest =>
      match digitValue? base letters digit with
      | some digitValue => readFrom? base letters (base * value + digitValue) rest
      | none => none

/-- The number that digits stand for, if all of them are digits of the base. -/
def read? (base : Nat) (letters : LetterCase) (digits : List Char) : Option Nat :=
  readFrom? base letters 0 digits

section

variable
  {base : Nat}
  {letters : LetterCase}

theorem digitValue?_digitChar
    {value : Nat}
    (small : value < base)
    (hexadecimal : base ≤ 16) :
    digitValue? base letters (letters.apply value.digitChar) =
      some value := by
  have found :
      ∀ value < 16,
        (alphabet letters).idxOf? (letters.apply value.digitChar) =
          some value := by
    cases letters <;> decide
  rw [digitValue?, found value (by omega), Option.filter_some,
    if_pos (by simpa using small)]

theorem digitValue?_zero (positive : 0 < base) :
    digitValue? base letters '0' = some 0 := by
  have found : (alphabet letters).idxOf? '0' = some 0 := by
    cases letters <;> decide
  rw [digitValue?, found, Option.filter_some,
    if_pos (by simpa using positive)]

theorem ne_of_digitValue?_isSome
    {digit : Char}
    (isDigit : (digitValue? base letters digit).isSome)
    {other : Char}
    (foreign : other ∉ alphabet letters) :
    digit ≠ other := by
  rintro rfl
  have missing : (alphabet letters).idxOf? digit = none := by
    simpa using foreign
  rw [digitValue?, missing] at isDigit
  cases isDigit

theorem readFrom?_append
    (start : Nat)
    (front back : List Char) :
    readFrom? base letters start (front ++ back) =
      (readFrom? base letters start front).bind
        (readFrom? base letters · back) := by
  induction front generalizing start with
  | nil =>
      rfl
  | cons digit rest inductionHypothesis =>
      rw [List.cons_append, readFrom?, readFrom?]
      cases digitValue? base letters digit with
      | none =>
          rfl
      | some digitValue =>
          exact inductionHypothesis (base * start + digitValue)

theorem readFrom?_singleton (start : Nat) (digit : Char) :
    readFrom? base letters start [digit] =
      (digitValue? base letters digit).map (base * start + ·) := by
  rw [readFrom?]
  cases digitValue? base letters digit <;> rfl

/-- Zeros behind digits multiply by the base. -/
theorem readFrom?_zeros
    (positive : 0 < base)
    (start count : Nat) :
    readFrom? base letters start (List.replicate count '0') =
      some (start * base ^ count) := by
  induction count generalizing start with
  | zero =>
      rw [pow_zero, mul_one]
      rfl
  | succ count inductionHypothesis =>
      rw [List.replicate_succ, readFrom?, digitValue?_zero positive]
      simp only [inductionHypothesis]
      congr 1
      ring

/-- Zeros in front of digits change nothing. -/
theorem read?_zeros_append
    (positive : 0 < base)
    (count : Nat)
    (digits : List Char) :
    read? base letters (List.replicate count '0' ++ digits) =
      read? base letters digits := by
  rw [read?, readFrom?_append, readFrom?_zeros positive, zero_mul,
    Option.bind_some]
  rfl

theorem read?_append_zeros
    (positive : 0 < base)
    (digits : List Char)
    (count : Nat) :
    read? base letters (digits ++ List.replicate count '0') =
      (read? base letters digits).map (· * base ^ count) := by
  rw [read?, read?, readFrom?_append]
  simp only [readFrom?_zeros positive]
  cases readFrom? base letters 0 digits <;> rfl

/-- What can be read holds nothing but digits. -/
theorem isSome_digitValue?_of_mem
    {start : Nat}
    {digits : List Char}
    (readable : (readFrom? base letters start digits).isSome)
    {digit : Char}
    (member : digit ∈ digits) :
    (digitValue? base letters digit).isSome := by
  induction digits generalizing start with
  | nil =>
      cases member
  | cons first rest inductionHypothesis =>
      rw [readFrom?] at readable
      cases value : digitValue? base letters first with
      | none =>
          rw [value] at readable
          cases readable
      | some firstValue =>
          rw [value] at readable
          rcases List.mem_cons.mp member with rfl | inRest
          · rw [value]
            rfl
          · exact inductionHypothesis readable inRest

/-- Characters that are all digits of the base can be read. -/
theorem isSome_readFrom?_of_forall
    {digits : List Char}
    (areDigits :
      ∀ digit ∈ digits, (digitValue? base letters digit).isSome)
    (start : Nat) :
    (readFrom? base letters start digits).isSome := by
  induction digits generalizing start with
  | nil =>
      rfl
  | cons first rest inductionHypothesis =>
      obtain ⟨isDigit, restDigits⟩ := List.forall_mem_cons.mp areDigits
      obtain ⟨value, found⟩ := Option.isSome_iff_exists.mp isDigit
      rw [readFrom?, found]
      exact inductionHypothesis restDigits _

/-- Every number has its last digit behind the digits of the quotient. -/
theorem digits_of_base_le
    (wide : 1 < base)
    {number : Nat}
    (large : base ≤ number) :
    digits base letters number =
      digits base letters (number / base) ++
        [letters.apply (number % base).digitChar] := by
  rw [digits, Nat.toDigits_of_base_le wide large, List.map_append]
  rfl

theorem digits_of_lt_base
    {number : Nat}
    (small : number < base) :
    digits base letters number = [letters.apply number.digitChar] := by
  rw [digits, Nat.toDigits_of_lt_base small]
  rfl

/-- The digits of a number read back as that number. -/
theorem read?_digits
    (wide : 1 < base)
    (hexadecimal : base ≤ 16)
    (number : Nat) :
    read? base letters (digits base letters number) = some number := by
  induction number using Nat.strong_induction_on with
  | _ number inductionHypothesis =>
      by_cases small : number < base
      · rw [digits_of_lt_base small, read?, readFrom?_singleton,
          digitValue?_digitChar small hexadecimal]
        simp
      · have large : base ≤ number := Nat.le_of_not_lt small
        have earlier :=
          inductionHypothesis (number / base)
            (Nat.div_lt_self (by omega) wide)
        have last : number % base < base := Nat.mod_lt _ (by omega)
        rw [read?] at earlier ⊢
        rw [digits_of_base_le wide large, readFrom?_append, earlier]
        simp [readFrom?_singleton, digitValue?_digitChar last hexadecimal,
          Nat.div_add_mod]

/-- The number of digits is one more than the logarithm of the number. -/
theorem length_digits
    (wide : 1 < base)
    (number : Nat) :
    (digits base letters number).length = Nat.log base number + 1 := by
  induction number using Nat.strong_induction_on with
  | _ number inductionHypothesis =>
      by_cases small : number < base
      · rw [digits_of_lt_base small, Nat.log_of_lt small]
        rfl
      · have large : base ≤ number := Nat.le_of_not_lt small
        have earlier :=
          inductionHypothesis (number / base)
            (Nat.div_lt_self (by omega) wide)
        rw [digits_of_base_le wide large, List.length_append, earlier,
          Nat.log_of_one_lt_of_le wide large]
        rfl

theorem digits_ne_nil (number : Nat) :
    digits base letters number ≠ [] := by
  simp [digits]

/-- Only the digits of zero start with a zero. -/
theorem head?_digits_eq_zero_iff
    (wide : 1 < base)
    (hexadecimal : base ≤ 16)
    (number : Nat) :
    (digits base letters number).head? = some '0' ↔ number = 0 := by
  induction number using Nat.strong_induction_on with
  | _ number inductionHypothesis =>
      by_cases small : number < base
      · have zeroDigit :
            ∀ value < 16,
              letters.apply value.digitChar = '0' ↔ value = 0 := by
          cases letters <;> decide
        rw [digits_of_lt_base small, List.head?_cons, Option.some_inj]
        exact zeroDigit number (by omega)
      · have large : base ≤ number := Nat.le_of_not_lt small
        have earlier :=
          inductionHypothesis (number / base)
            (Nat.div_lt_self (by omega) wide)
        have quotient : number / base ≠ 0 :=
          Nat.div_ne_zero_iff.mpr ⟨by omega, large⟩
        have nonempty : digits base letters (number / base) ≠ [] :=
          digits_ne_nil _
        obtain ⟨first, rest, shape⟩ :=
          List.exists_cons_of_ne_nil nonempty
        rw [shape, List.head?_cons] at earlier
        rw [digits_of_base_le wide large, shape, List.cons_append,
          List.head?_cons, earlier]
        omega

/-- Zeros up to a least number of digits do not change what is read. -/
theorem read?_padded
    (wide : 1 < base)
    (hexadecimal : base ≤ 16)
    (minimum number : Nat) :
    read? base letters (padded base letters minimum number) =
      some number := by
  rw [padded, List.leftpad, read?_zeros_append (by omega),
    read?_digits wide hexadecimal]

/-- A number that fits has exactly the least number of digits. -/
theorem length_padded_of_lt
    (wide : 1 < base)
    {minimum number : Nat}
    (positive : 0 < minimum)
    (small : number < base ^ minimum) :
    (padded base letters minimum number).length = minimum := by
  have fits : Nat.log base number < minimum :=
    Nat.log_lt_of_lt_pow' positive.ne' small
  rw [padded, List.length_leftpad, length_digits wide]
  omega

theorem mem_alphabet_of_mem_padded
    (wide : 1 < base)
    (hexadecimal : base ≤ 16)
    {minimum number : Nat}
    {digit : Char}
    (member : digit ∈ padded base letters minimum number) :
    digit ∈ alphabet letters := by
  have reads :
      read? base letters (padded base letters minimum number) =
        some number :=
    read?_padded wide hexadecimal minimum number
  have isDigit :=
    isSome_digitValue?_of_mem (Option.isSome_of_eq_some reads) member
  by_contra foreign
  exact ne_of_digitValue?_isSome isDigit foreign rfl

end

end CaptureFormat.Numeral
