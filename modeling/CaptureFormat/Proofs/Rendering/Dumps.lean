import CaptureFormat.Proofs.Rendering.Items
import CaptureFormat.Proofs.Text.HexDump

namespace CaptureFormat

/-!
# Dumped values

Text, the messages of errors, and bytes are dumped alike: as the bytes that
they are, cut to the precision.  Without a width the dump is all that is
written, so the bytes can be told from it.
-/

namespace Conversion

/-- The letters of the digits that a verb dumps bytes with. -/
def dumpLetters? : Char → Option Numeral.LetterCase
  | 'x' => some .lower
  | 'X' => some .upper
  | _ => none

/-- What a precision keeps of a list is a beginning of it, or all of it. -/
theorem truncate_eq_take (directive : Directive) (items : List α) :
    directive.truncate items =
      items.take (directive.precision.getD items.length) := by
  unfold Directive.truncate
  cases directive.precision with
  | none =>
      exact List.take_length.symm
  | some count =>
      rfl

/-- Without a width, a conversion to hex digits is the dump and nothing else. -/
theorem hex_of_no_width
    {directive : Directive}
    (noWidth : directive.width = none)
    (letters : Numeral.LetterCase)
    (bytes : List UInt8) :
    hex letters directive bytes =
      HexDump.dump ⟨letters, directive.flags.space, directive.flags.sharp⟩
        (directive.truncate bytes) := by
  unfold hex
  cases directive.truncate bytes with
  | nil =>
      rw [Directive.blank, noWidth]
      rfl
  | cons first rest =>
      simp only [Directive.pad, Directive.padWith, noWidth]

end Conversion

namespace Standard

open Conversion (dumpLetters?)

/-- The bytes of a value that can be dumped. -/
def dumpedBytes? : Value → Option (List UInt8)
  | .text content => some (Utf8.encode content.toList)
  | .error message => some (Utf8.encode message.toList)
  | .bytes content => some content
  | _ => none

variable
  {directive : Directive}
  {letters : Numeral.LetterCase}

/-- A dump is made of the bytes of a value, whatever its kind. -/
theorem single?_of_dumpedBytes?
    (isDump : dumpLetters? directive.verb = some letters)
    {value : Value}
    {content : List UInt8}
    (isDumped : dumpedBytes? value = some content) :
    single? directive value =
      some (Conversion.hex letters directive content) := by
  have byVerb :
      directive.verb = 'x' ∧ letters = .lower ∨
        directive.verb = 'X' ∧ letters = .upper := by
    unfold dumpLetters? at isDump
    split at isDump <;> cases isDump
    · next isX => exact Or.inl ⟨isX, rfl⟩
    · next isX => exact Or.inr ⟨isX, rfl⟩
  rcases byVerb with ⟨verb, rfl⟩ | ⟨verb, rfl⟩ <;>
    cases value <;> cases isDumped <;>
    simp only [single?, Conversion.text?, Conversion.bytes?, verb]

theorem toList_render_dump
    (isDump : dumpLetters? directive.verb = some letters)
    (noWidth : directive.width = none)
    {value : Value}
    {content : List UInt8}
    (isDumped : dumpedBytes? value = some content) :
    (render directive value).toList =
      HexDump.dump ⟨letters, directive.flags.space, directive.flags.sharp⟩
        (content.take (directive.precision.getD content.length)) := by
  rw [toList_render,
    renderText_of_single? (single?_of_dumpedBytes? isDump isDumped),
    Conversion.hex_of_no_width noWidth, Conversion.truncate_eq_take]

/--
Hex dumps decode.

Without a width, a text, an error, or bytes under a verb that dumps them are
written as one group of two digits for each byte that the precision keeps, in
the letters of the verb.  Groups that stand apart have a space between them and
a mark each, if marks are asked for; groups that run together have one mark in
front, unless there are none.  Taking the groups apart and reading them gives
the bytes that were kept, so dumps are equal exactly if those bytes are.
-/
theorem render_hex
    (isDump : dumpLetters? directive.verb = some letters)
    (noWidth : directive.width = none)
    {value : Value}
    {content : List UInt8}
    (isDumped : dumpedBytes? value = some content) :
    let layout : HexDump.Layout :=
      ⟨letters, directive.flags.space, directive.flags.sharp⟩
    let mark :=
      if directive.flags.sharp then HexDump.baseMark letters else []
    let kept := content.take (directive.precision.getD content.length)
    let shown := (render directive value).toList
    (∃ groups : List (List Char),
      groups.length = kept.length ∧
        (∀ group ∈ groups,
          group.length = 2 ∧
            ∀ digit ∈ group, digit ∈ Numeral.alphabet letters) ∧
        shown =
          (if directive.flags.space then
            List.intercalate [' '] (groups.map (mark ++ ·))
          else if kept = [] then
            []
          else
            mark ++ groups.flatten) ∧
        HexDump.groups? layout shown = some groups ∧
        groups.mapM (HexDump.readGroup? letters) = some kept) ∧
      HexDump.read? layout shown = some kept ∧
      ∀ {other : Value} {otherContent : List UInt8},
        dumpedBytes? other = some otherContent →
        (render directive other = render directive value ↔
          otherContent.take
              (directive.precision.getD otherContent.length) =
            kept) := by
  intro layout mark kept shown
  have isShown : shown = HexDump.dump layout kept :=
    toList_render_dump isDump noWidth isDumped
  refine ⟨⟨kept.map (HexDump.group letters), ?_, ?_, ?_, ?_, ?_⟩, ?_, ?_⟩
  · exact List.length_map _
  · intro group member
    obtain ⟨byte, _, rfl⟩ := List.mem_map.mp member
    exact
      ⟨HexDump.length_group letters byte,
        fun digit inGroup =>
          HexDump.mem_alphabet_of_mem_group letters inGroup⟩
  · rw [isShown, HexDump.dump_eq]
    rfl
  · rw [isShown, HexDump.groups?_dump]
  · exact HexDump.mapM_readGroup? letters kept
  · rw [isShown, HexDump.read?_dump]
  · intro other otherContent otherDumped
    have otherShown :=
      toList_render_dump isDump noWidth otherDumped
    rw [← String.toList_inj, otherShown,
      toList_render_dump isDump noWidth isDumped]
    exact (HexDump.dump_injective layout).eq_iff

/-- Bytes below sixteen and a text that the precision cuts inside a character, as marked groups. -/
theorem render_hex_marked :
    let directive : Directive :=
      { verb := 'X'
        flags := { space := true, sharp := true }
        precision := some 2 }
    let layout : HexDump.Layout := ⟨.upper, true, true⟩
    dumpLetters? directive.verb = some .upper ∧
      directive.width = none ∧
      dumpedBytes? (.bytes [0x0A, 0xC3, 0xA9]) = some [0x0A, 0xC3, 0xA9] ∧
      dumpedBytes? (.text "\né") = some [0x0A, 0xC3, 0xA9] ∧
      render directive (.bytes [0x0A, 0xC3, 0xA9]) = "0X0A 0XC3" ∧
      HexDump.read? layout
          (render directive (.bytes [0x0A, 0xC3, 0xA9])).toList =
        some [0x0A, 0xC3] ∧
      render directive (.text "\né") =
        render directive (.bytes [0x0A, 0xC3, 0xA9]) := by
  intro directive layout
  have isDump : dumpLetters? directive.verb = some .upper := rfl
  have noWidth : directive.width = none := rfl
  have isBytes :
      dumpedBytes? (.bytes [0x0A, 0xC3, 0xA9]) =
        some [0x0A, 0xC3, 0xA9] :=
    rfl
  have isText :
      dumpedBytes? (.text "\né") = some [0x0A, 0xC3, 0xA9] := by
    decide
  obtain ⟨_, reads, sameIff⟩ := render_hex isDump noWidth isBytes
  exact
    ⟨isDump, noWidth, isBytes, isText, by decide +kernel, reads,
      (sameIff isText).mpr rfl⟩

end Standard

end CaptureFormat
