import CaptureFormat.Conversion.CodePoint
import CaptureFormat.Proofs.Conversion.Field
import CaptureFormat.Proofs.Numeral.Reading

namespace CaptureFormat.Conversion

/-!
# Integers and the characters that they name

A character has one code point, and code points are compared as integers: an
integer names a character if it is the character's code point.  All verbs for
characters agree on it, and so on which integers name none.
-/

/-- A character stands for an integer: the one that it names, or the replacement character. -/
def StandsFor (character : Char) (number : Int) : Prop :=
  number = character.toNat ∨
    character = Utf8.replacement ∧ ∀ other : Char, number ≠ other.toNat

theorem codePoint?_eq_some_iff
    {number : Int}
    {code : Nat} :
    codePoint? number = some code ↔ number = code ∧ code ≤ 0x10FFFF := by
  unfold codePoint?
  split
  · next inside =>
      rw [Option.some_inj]
      omega
  · next outside =>
      simp only [reduceCtorEq, false_iff]
      omega

/-- A code point is quoted as what stands for it, and nothing else is quoted. -/
theorem quotedCharacter?_eq (directive : Directive) (number : Int) :
    quotedCharacter? directive number =
      if 0 ≤ number ∧ number ≤ 0x10FFFF then
        some (directive.pad
          (Quoted.character directive.flags.plus (scalar number)))
      else
        none := by
  unfold quotedCharacter? codePoint?
  by_cases inside : 0 ≤ number ∧ number ≤ 0x10FFFF
  · rw [if_pos inside, if_pos inside]
  · rw [if_neg inside, if_neg inside]

/-- An integer names exactly the character whose code point it is. -/
theorem scalar?_eq_some_iff
    {number : Int}
    {character : Char} :
    scalar? number = some character ↔ number = character.toNat := by
  constructor
  · intro named
    unfold scalar? at named
    split at named
    · next code isCode =>
        obtain ⟨isNumber, _⟩ := codePoint?_eq_some_iff.mp isCode
        split at named
        · next valid =>
            cases named
            have point : (Char.ofNat code).toNat = code := by
              rw [Char.ofNat, dif_pos valid]
              rfl
            rw [point, isNumber]
        · cases named
    · cases named
  · intro isNumber
    have valid : character.toNat.isValidChar := character.valid
    have small : character.toNat ≤ 0x10FFFF := by
      rcases valid with low | ⟨_, high⟩ <;> omega
    have isCode : codePoint? number = some character.toNat :=
      codePoint?_eq_some_iff.mpr ⟨isNumber, small⟩
    simp only [scalar?, isCode, if_pos valid, Char.ofNat_toNat]

/-- What is written for an integer where a character is needed stands for it. -/
theorem standsFor_scalar (number : Int) :
    StandsFor (scalar number) number := by
  unfold scalar
  cases named : scalar? number with
  | some character =>
      exact Or.inl (scalar?_eq_some_iff.mp named)
  | none =>
      refine Or.inr ⟨rfl, fun other isOther => ?_⟩
      rw [scalar?_eq_some_iff.mpr isOther] at named
      cases named

/-- A character in single quotes behind a space. -/
def quotedSuffix (character : Char) : List Char :=
  [' ', '\x27', character, '\x27']

/-- A suffix shows the character that the integer names, if it can be shown. -/
theorem unicodeSuffix_eq_quotedSuffix_iff
    {number : Int}
    {character : Char} :
    unicodeSuffix number = quotedSuffix character ↔
      number = character.toNat ∧
        Printable.isPrintable character = true := by
  rw [← scalar?_eq_some_iff]
  unfold unicodeSuffix quotedSuffix
  cases scalar? number with
  | none =>
      simp
  | some named =>
      by_cases printable : Printable.isPrintable named = true
      · simp only [printable, if_true, List.cons.injEq, and_true,
          true_and, Option.some_inj]
        constructor
        · rintro rfl
          exact ⟨rfl, printable⟩
        · exact And.left
      · simp only [printable, Option.some_inj]
        constructor
        · intro unshown
          cases unshown
        · rintro ⟨rfl, isPrintable⟩
          exact absurd isPrintable printable

theorem unicodeSuffix_cases (number : Int) :
    unicodeSuffix number = [] ∨
      ∃ character, unicodeSuffix number = quotedSuffix character := by
  unfold unicodeSuffix
  split
  · split
    · exact Or.inr ⟨_, rfl⟩
    · exact Or.inl rfl
  · exact Or.inl rfl

/-- What stands in a field for an integer as a code point, in its parts. -/
structure WritesUnicode
    (directive : Directive)
    (number : Int)
    (digits suffix : List Char) : Prop where
  /-- The digits read as the integer, or as its two's complement in 64 bits. -/
  reads :
    Numeral.read? 16 .upper digits =
      some (number % 0x10000000000000000).toNat
  length :
    digits.length =
      max (max 4 (directive.precision.getD 0))
        (Nat.log 16 (number % 0x10000000000000000).toNat + 1)
  /-- The suffix shows a character just if there is one to show. -/
  shows (character : Char) :
    suffix = quotedSuffix character ↔
      directive.flags.sharp = true ∧
        number = character.toNat ∧
        Printable.isPrintable character = true
  suffix_cases : suffix = [] ∨ ∃ character, suffix = quotedSuffix character

/-- No space stands at either end of an integer as a code point. -/
theorem WritesUnicode.trimSpaces_padWith
    {directive : Directive}
    {number : Int}
    {digits suffix : List Char}
    (writes : WritesUnicode directive number digits suffix) :
    trimSpaces
        (directive.padWith ' ' ('U' :: '+' :: digits ++ suffix)) =
      'U' :: '+' :: digits ++ suffix := by
  apply directive.trimSpaces_padWith
  · simp
  · simp
  · rcases writes.suffix_cases with rfl | ⟨character, rfl⟩
    · have noDigit : ' ' ∉ digits := by
        intro member
        have isDigit :=
          Numeral.isSome_digitValue?_of_mem
            (Option.isSome_of_eq_some writes.reads) member
        exact
          Numeral.ne_of_digitValue?_isSome isDigit (by decide) rfl
      intro isLast
      have member := List.mem_of_getLast? isLast
      simp [noDigit] at member
    · have nonempty : quotedSuffix character ≠ [] :=
        List.cons_ne_nil _ _
      rw [List.getLast?_append_of_ne_nil _ nonempty]
      simp [quotedSuffix]

/-- An integer as a code point is made of digits and a suffix in a field of spaces. -/
theorem exists_writesUnicode (directive : Directive) (number : Int) :
    ∃ digits suffix,
      WritesUnicode directive number digits suffix ∧
        unicode directive number =
          directive.padWith ' ' ('U' :: '+' :: digits ++ suffix) := by
  refine ⟨_, _, ⟨?_, ?_, ?_, ?_⟩, rfl⟩
  · exact Numeral.read?_padded (by decide) (by decide) _ _
  · rw [Numeral.padded, List.length_leftpad,
      Numeral.length_digits (by decide)]
    rfl
  · intro character
    cases directive.flags.sharp with
    | true =>
        simp only [if_true, true_and]
        exact unicodeSuffix_eq_quotedSuffix_iff
    | false =>
        simp [quotedSuffix]
  · split
    · exact unicodeSuffix_cases number
    · exact Or.inl rfl

end CaptureFormat.Conversion
