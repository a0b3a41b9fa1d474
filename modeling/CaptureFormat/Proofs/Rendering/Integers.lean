import CaptureFormat.Proofs.Conversion.Field
import CaptureFormat.Proofs.Numeral.Reading
import CaptureFormat.Proofs.Rendering.Items

namespace CaptureFormat

/-!
# Integers read back

An integer is rendered as a sign, a mark of the base, and digits that read back
as its magnitude.  Flags, width, and precision decide how many zeros stand in
front of the digits and how many spaces stand around them, and have no part in
the value.

`IntegerForm` says what the verb decides.  It is given for each kind of value
by a table of verbs, next to the conversion and not through it.
-/

/-- What the verb of a directive decides about an integer. -/
structure IntegerForm where
  number : Int
  base : Nat
  letters : Numeral.LetterCase := .lower
  /-- The mark in front of the digits. -/
  mark : List Char := []
  /-- Whether the digits start with a zero in any case. -/
  leadingZero : Bool := false

/-- The radix that a verb writes integers in. -/
def Conversion.Radix.ofVerb? : Char → Option Radix
  | 'v' => some .decimal
  | 'd' => some .decimal
  | 'b' => some .binary
  | 'o' => some .octal
  | 'O' => some .markedOctal
  | 'x' => some (.hexadecimal .lower)
  | 'X' => some (.hexadecimal .upper)
  | _ => none

namespace IntegerForm

/-- The form of an integer in a radix, in the alternate form or not. -/
def ofRadix
    (alternate : Bool)
    (number : Int) :
    Conversion.Radix → IntegerForm
  | .decimal => { number, base := 10 }
  | .binary =>
      { number, base := 2, mark := if alternate then ['0', 'b'] else [] }
  | .octal => { number, base := 8, leadingZero := alternate }
  | .markedOctal => { number, base := 8, mark := ['0', 'o'] }
  | .hexadecimal .lower =>
      { number, base := 16, mark := if alternate then ['0', 'x'] else [] }
  | .hexadecimal .upper =>
      { number
        base := 16
        letters := .upper
        mark := if alternate then ['0', 'X'] else [] }

/-- The form of an integer for each verb that writes it in a radix. -/
def ofVerb? (directive : Directive) (number : Int) : Option IntegerForm :=
  (Conversion.Radix.ofVerb? directive.verb).map
    (ofRadix directive.flags.sharp number)

/-- The form of a number in hexadecimal, in the alternate form or not. -/
def hexadecimal (alternate : Bool) (number : Int) : IntegerForm :=
  ofRadix alternate number (.hexadecimal .lower)

/-- The form of a value for each verb that writes it as an integer. -/
def ofValue? (directive : Directive) : Value → Option IntegerForm
  | .int number => ofVerb? directive number.toInt
  | .uint number =>
      if directive.verb = 'v' ∧ directive.flags.source = true then
        some (hexadecimal true number.toNat)
      else
        ofVerb? directive number.toNat
  | .pointer address =>
      if directive.verb = 'p' then
        some (hexadecimal (!directive.flags.sharp) address.toNat)
      else if directive.verb = 'v' then
        if address = 0 then none else some (hexadecimal true address.toNat)
      else if directive.verb = 'O' then
        none
      else
        ofVerb? directive address.toNat
  | _ => none

/-- The digits with the zero that has to start them, unless one does anyway. -/
def withLeadingZero (form : IntegerForm) (digits : List Char) : List Char :=
  if form.leadingZero = true ∧ digits.head? ≠ some '0' then
    '0' :: digits
  else
    digits

/--
The least number of digits: the precision, or else a width that is to be filled
with zeros, less the place of a sign.
-/
def leastDigits (form : IntegerForm) (directive : Directive) : Nat :=
  match directive.precision with
  | some precision => precision
  | none =>
      if directive.flags.zero then
        directive.width.getD 0 -
          (if form.number < 0 ∨ directive.flags.plus = true ∨
              directive.flags.space = true then
            1
          else
            0)
      else
        0

section

variable
  (alternate : Bool)
  (number : Int)
  (radix : Conversion.Radix)

@[simp] theorem number_ofRadix :
    (ofRadix alternate number radix).number = number := by
  rcases radix with _ | _ | _ | _ | (_ | _) <;> rfl

@[simp] theorem base_ofRadix :
    (ofRadix alternate number radix).base = radix.base := by
  rcases radix with _ | _ | _ | _ | (_ | _) <;> rfl

@[simp] theorem letters_ofRadix :
    (ofRadix alternate number radix).letters = radix.letters := by
  rcases radix with _ | _ | _ | _ | (_ | _) <;> rfl

theorem space_notMem_mark_ofRadix :
    ' ' ∉ (ofRadix alternate number radix).mark := by
  rcases radix with _ | _ | _ | _ | (_ | _) <;>
    cases alternate <;> simp [ofRadix]

/--
A radix puts its mark in front of the digits.  That of octal is a zero, and
what matters is the first digit once all zeros are filled in.
-/
theorem mark_append_leftpad
    (minimum : Nat)
    (digits : List Char) :
    radix.mark alternate minimum digits ++ digits.leftpad minimum '0' =
      (ofRadix alternate number radix).mark ++
        (ofRadix alternate number radix).withLeadingZero
          (digits.leftpad minimum '0') := by
  have filled :
      (digits.leftpad minimum '0').head? ≠ some '0' ↔
        minimum ≤ digits.length ∧ digits.head? ≠ some '0' := by
    rw [List.leftpad]
    rcases Nat.lt_or_ge digits.length minimum with short | enough
    · obtain ⟨count, missing⟩ :=
        Nat.exists_eq_succ_of_ne_zero (Nat.sub_ne_zero_of_lt short)
      rw [missing, List.replicate_succ]
      simp [short]
    · rw [Nat.sub_eq_zero_of_le enough]
      simp [enough]
  rcases radix with _ | _ | _ | _ | (_ | _)
  case octal =>
    simp only [Conversion.Radix.mark, ofRadix, withLeadingZero, filled,
      List.nil_append]
    cases alternate <;>
      by_cases enough : minimum ≤ digits.length <;>
      by_cases zero : digits.head? = some '0' <;>
      simp [enough, zero]
  all_goals rfl

end

theorem integer?_of_ofVerb?
    {directive : Directive}
    {radix : Conversion.Radix}
    (isRadix : Conversion.Radix.ofVerb? directive.verb = some radix)
    (number : Int) :
    Conversion.integer? directive number =
      some (Conversion.inRadix radix directive number) := by
  unfold Conversion.Radix.ofVerb? at isRadix
  split at isRadix <;> cases isRadix <;>
    simp only [Conversion.integer?, *]

theorem pointer?_of_ofVerb?
    {directive : Directive}
    {radix : Conversion.Radix}
    (isRadix : Conversion.Radix.ofVerb? directive.verb = some radix)
    (notValue : directive.verb ≠ 'v')
    (notMarked : directive.verb ≠ 'O')
    (address : UInt64) :
    Conversion.pointer? directive address =
      some (Conversion.inRadix radix directive address.toNat) := by
  rw [← integer?_of_ofVerb? isRadix]
  unfold Conversion.Radix.ofVerb? at isRadix
  split at isRadix
  -- what is left are the verbs that addresses share with integers
  any_goals contradiction
  all_goals simp only [Conversion.pointer?, *]

/-- Whatever a verb writes as an integer is an integer in a radix. -/
theorem exists_inRadix
    {directive : Directive}
    {value : Value}
    {form : IntegerForm}
    (isForm : ofValue? directive value = some form) :
    ∃ alternate number radix,
      form = ofRadix alternate number radix ∧
        Standard.single? directive value =
          some (Conversion.inRadix radix
            { directive with flags.sharp := alternate } number) := by
  have byVerb :
      ∀ {number},
        ofVerb? directive number = some form →
        ∃ radix,
          Conversion.Radix.ofVerb? directive.verb = some radix ∧
            form = ofRadix directive.flags.sharp number radix := by
    intro number isForm
    obtain ⟨radix, isRadix, rfl⟩ := Option.map_eq_some_iff.mp isForm
    exact ⟨radix, isRadix, rfl⟩
  cases value with
  | int number =>
      obtain ⟨radix, isRadix, shape⟩ := byVerb isForm
      exact
        ⟨directive.flags.sharp, _, radix, shape,
          integer?_of_ofVerb? isRadix _⟩
  | uint number =>
      rw [ofValue?] at isForm
      rw [Standard.single?, Conversion.unsigned?]
      split at isForm
      · next inSource =>
          cases isForm
          exact ⟨true, _, _, rfl, if_pos inSource⟩
      · next plain =>
          obtain ⟨radix, isRadix, shape⟩ := byVerb isForm
          rw [if_neg plain]
          exact
            ⟨directive.flags.sharp, _, radix, shape,
              integer?_of_ofVerb? isRadix _⟩
  | pointer address =>
      rw [ofValue?] at isForm
      rw [Standard.single?]
      split at isForm
      · next isAddress =>
          cases isForm
          refine ⟨!directive.flags.sharp, _, _, rfl, ?_⟩
          cases sharp : directive.flags.sharp <;>
            simp [Conversion.pointer?, isAddress, sharp,
              Conversion.markedHex]
      · split at isForm
        · next isValue =>
            split at isForm
            · cases isForm
            · next nonzero =>
                cases isForm
                refine ⟨true, _, _, rfl, ?_⟩
                simp [Conversion.pointer?, isValue, nonzero,
                  Conversion.markedHex]
        · next notValue =>
            split at isForm
            · cases isForm
            · next notMarked =>
                obtain ⟨radix, isRadix, shape⟩ := byVerb isForm
                exact
                  ⟨directive.flags.sharp, _, radix, shape,
                    pointer?_of_ofVerb? isRadix notValue notMarked _⟩
  | _ =>
      cases isForm

/-- The place that a directive keeps for a sign is that of the sign it writes. -/
theorem leastDigits_eq (form : IntegerForm) (directive : Directive) :
    form.leastDigits directive =
      Conversion.leastDigits directive
        (directive.sign (form.number < 0)) := by
  unfold leastDigits Conversion.leastDigits
  cases directive.precision with
  | some precision =>
      rfl
  | none =>
      simp only [Directive.length_sign, decide_eq_true_eq]

/-- The digits of an integer, with the zeros that fill them up. -/
def filledDigits (form : IntegerForm) (directive : Directive) : List Char :=
  (Numeral.digits form.base form.letters form.number.natAbs).leftpad
    (form.leastDigits directive) '0'

/-- The digits as they are written, with all zeros in front of them. -/
def writtenDigits (form : IntegerForm) (directive : Directive) : List Char :=
  form.withLeadingZero (form.filledDigits directive)

/-- Nothing but zeros stands in front of the digits of the magnitude. -/
theorem exists_writtenDigits_eq
    (form : IntegerForm)
    (directive : Directive) :
    ∃ zeros,
      form.writtenDigits directive =
        List.replicate zeros '0' ++
          Numeral.digits form.base form.letters form.number.natAbs := by
  unfold writtenDigits withLeadingZero filledDigits
  split
  · exact ⟨_ + 1, rfl⟩
  · exact ⟨_, rfl⟩

theorem read?_writtenDigits
    {form : IntegerForm}
    (wide : 1 < form.base)
    (hexadecimal : form.base ≤ 16)
    (directive : Directive) :
    Numeral.read? form.base form.letters (form.writtenDigits directive) =
      some form.number.natAbs := by
  obtain ⟨zeros, shape⟩ := form.exists_writtenDigits_eq directive
  rw [shape, Numeral.read?_zeros_append (by omega),
    Numeral.read?_digits wide hexadecimal]

theorem space_notMem_writtenDigits
    {form : IntegerForm}
    (wide : 1 < form.base)
    (hexadecimal : form.base ≤ 16)
    (directive : Directive) :
    ' ' ∉ form.writtenDigits directive := by
  intro member
  have reads := read?_writtenDigits wide hexadecimal directive
  have isDigit :=
    Numeral.isSome_digitValue?_of_mem (Option.isSome_of_eq_some reads)
      member
  have foreign : ' ' ∉ Numeral.alphabet form.letters := by
    cases form.letters <;> decide
  exact Numeral.ne_of_digitValue?_isSome isDigit foreign rfl

theorem inRadix_of_left
    (radix : Conversion.Radix)
    {directive : Directive}
    {number : Int}
    (left : directive.precision = some 0 ∧ number = 0) :
    Conversion.inRadix radix directive number = directive.blank := by
  rw [Conversion.inRadix, if_pos left]

/-- An integer in a radix is written in the form of that radix. -/
theorem inRadix_of_written
    (radix : Conversion.Radix)
    {directive : Directive}
    {number : Int}
    (written : ¬(directive.precision = some 0 ∧ number = 0)) :
    let form := ofRadix directive.flags.sharp number radix
    Conversion.inRadix radix directive number =
      directive.padWith ' '
        (directive.sign (number < 0) ++
          (form.mark ++ form.writtenDigits directive)) := by
  intro form
  have least :
      Conversion.leastDigits directive (directive.sign (number < 0)) =
        form.leastDigits directive := by
    rw [form.leastDigits_eq, number_ofRadix]
  rw [Conversion.inRadix, if_neg written]
  simp only [least, List.append_assoc, writtenDigits, filledDigits, form,
    base_ofRadix, letters_ofRadix, number_ofRadix]
  rw [mark_append_leftpad]

/-- An integer in a radix, once spaces are trimmed. -/
theorem exists_trimSpaces_inRadix
    (radix : Conversion.Radix)
    (directive : Directive)
    {number : Int}
    (written : ¬(directive.precision = some 0 ∧ number = 0)) :
    let form := ofRadix directive.flags.sharp number radix
    ∃ filled : List Char,
      filled.length =
          max (Nat.log form.base number.natAbs + 1)
            (form.leastDigits directive) ∧
        trimSpaces (Conversion.inRadix radix directive number) =
          directive.shownSign (number < 0) ++ form.mark ++
            form.withLeadingZero filled ∧
        Numeral.read? form.base form.letters
            (form.withLeadingZero filled) =
          some number.natAbs := by
  intro form
  have sameNumber : form.number = number := number_ofRadix _ _ _
  have base : form.base = radix.base := base_ofRadix _ _ _
  have wide : 1 < form.base := by
    rw [base]
    rcases radix with _ | _ | _ | _ | (_ | _) <;> decide
  have hexadecimal : form.base ≤ 16 := by
    rw [base]
    rcases radix with _ | _ | _ | _ | (_ | _) <;> decide
  have reads := read?_writtenDigits wide hexadecimal directive
  have spaceless : ' ' ∉ form.mark ++ form.writtenDigits directive := by
    rw [List.mem_append, not_or]
    exact
      ⟨space_notMem_mark_ofRadix _ _ _,
        space_notMem_writtenDigits wide hexadecimal directive⟩
  have nonempty : form.mark ++ form.writtenDigits directive ≠ [] := by
    obtain ⟨zeros, shape⟩ := form.exists_writtenDigits_eq directive
    rw [shape]
    simp [Numeral.digits_ne_nil]
  rw [sameNumber] at reads
  refine ⟨form.filledDigits directive, ?_, ?_, reads⟩
  · rw [filledDigits, List.length_leftpad, sameNumber,
      Numeral.length_digits wide, max_comm]
  · rw [inRadix_of_written radix written, List.append_assoc]
    apply directive.trimSpaces_padWith_sign nonempty
    · exact fun isFirst => spaceless (List.mem_of_head? isFirst)
    · exact fun isLast => spaceless (List.mem_of_getLast? isLast)

end IntegerForm

namespace Standard

/--
An integer reads back.

For every verb that writes a value as an integer, the rendering is, up to
spaces around it, a sign, the mark of the base, and digits that read as the
magnitude.  There are as many digits as the magnitude has, or as the directive
asks for if that is more, and a zero in front of them where octal needs one.
Only zero with a precision of 0 is left out, and spaces fill its width.
-/
theorem render_integer
    (directive : Directive)
    (value : Value)
    {form : IntegerForm}
    (isForm : IntegerForm.ofValue? directive value = some form) :
    if directive.precision = some 0 ∧ form.number = 0 then
      (render directive value).toList =
        List.replicate (directive.width.getD 0) ' '
    else
      ∃ filled : List Char,
        filled.length =
            max (Nat.log form.base form.number.natAbs + 1)
              (form.leastDigits directive) ∧
          trimSpaces (render directive value).toList =
            directive.shownSign (form.number < 0) ++ form.mark ++
              form.withLeadingZero filled ∧
          Numeral.read? form.base form.letters
              (form.withLeadingZero filled) =
            some form.number.natAbs := by
  obtain ⟨alternate, number, radix, shape, shown⟩ :=
    IntegerForm.exists_inRadix isForm
  have isNumber : form.number = number := by
    rw [shape, IntegerForm.number_ofRadix]
  let other : Directive := { directive with flags.sharp := alternate }
  rw [toList_render, renderText_of_single? shown,
    isNumber]
  split
  · next left =>
      have leftOther : other.precision = some 0 ∧ number = 0 := left
      exact IntegerForm.inRadix_of_left radix leftOther
  · next written =>
      rw [shape]
      exact
        IntegerForm.exists_trimSpaces_inRadix radix other written

/-- The least signed integer in octal: its 22 digits, and a zero in front of them. -/
theorem render_integer_least :
    let directive : Directive :=
      { verb := 'o', flags := { plus := true, sharp := true }, width := some 30 }
    let form : IntegerForm :=
      { number := -0x8000000000000000, base := 8, leadingZero := true }
    IntegerForm.ofValue? directive (.int Int64.minValue) = some form ∧
      ∃ filled : List Char,
        filled.length = 22 ∧
          trimSpaces
              (render directive (.int Int64.minValue)).toList =
            '-' :: form.withLeadingZero filled ∧
          Numeral.read? 8 .lower (form.withLeadingZero filled) =
            some 0x8000000000000000 := by
  intro directive form
  have isForm :
      IntegerForm.ofValue? directive (.int Int64.minValue) = some form := by
    rfl
  have reads := render_integer directive (.int Int64.minValue) isForm
  rw [if_neg (by decide)] at reads
  obtain ⟨filled, length, shown, value⟩ := reads
  refine ⟨isForm, filled, length.trans ?_, shown, value⟩
  decide +kernel

end Standard

end CaptureFormat
