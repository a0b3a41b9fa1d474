import CaptureFormat.Proofs.Rendering.Items
import CaptureFormat.Proofs.Text.Quoted

namespace CaptureFormat.Standard

/-!
# Quoted values

Quotes lose nothing and let nothing out.  Raw quotes have no escapes, so they
are taken only where the text needs none.
-/

open Printable (isControl)
open Quoted (Quotes)

/-- The alternate form of quoted text has raw quotes around text that may stand between them. -/
theorem renderText_rawQuotes
    {directive : Directive}
    (isQ : directive.verb = 'q')
    (alternate : directive.flags.sharp = true)
    {value : Value}
    {content : String}
    (isText : value = .text content ∨ value = .error content) :
    renderText directive value =
      directive.pad
        (if Quoted.fitsRaw (directive.truncate content.toList) then
          Quoted.raw (directive.truncate content.toList)
        else
          Quoted.text directive.flags.plus
            (directive.truncate content.toList)) := by
  apply renderText_of_single?
  have shown :
      single? directive value =
        some (Conversion.quoted directive content.toList) := by
    rcases isText with rfl | rfl <;>
      simp only [single?, Conversion.text?, isQ]
  rw [shown, Conversion.quoted, alternate, Bool.true_and, Option.some_inj,
    apply_ite directive.pad]

/--
Quoting is lossless and safe.

A quoted text reads back as its bytes, quoted bytes read back as they are,
whether they are text or not, and a quoted character reads back as itself, with
or without the restriction to ASCII.  So no two of a kind are quoted alike.
`Quotes` also says that no bare quote stands inside, that every character is
printable, and that it is one of ASCII if it is to be.

In the alternate form text is cut to the precision and stands between raw
quotes exactly if it has no raw quote in it, no U+FEFF, and no control but tab.
-/
theorem quotes_lossless_and_safe :
    (∀ asciiOnly,
      (∀ characters,
        Quotes '\x22' asciiOnly (Utf8.encode characters)
          (Quoted.text asciiOnly characters)) ∧
      (∀ content,
        Quotes '\x22' asciiOnly content
          (Quoted.bytes asciiOnly content)) ∧
      (∀ single,
        Quotes '\x27' asciiOnly (String.utf8EncodeChar single)
          (Quoted.character asciiOnly single)) ∧
      Function.Injective (Quoted.text asciiOnly) ∧
      Function.Injective (Quoted.bytes asciiOnly) ∧
      Function.Injective (Quoted.character asciiOnly)) ∧
    ∀ (directive : Directive) (content : String),
      let alternate :=
        { directive with verb := 'q', flags.sharp := true }
      let kept := directive.truncate content.toList
      let fits :=
        ∀ single ∈ kept,
          single ≠ '\x60' ∧
            single ≠ '\uFEFF' ∧
            (isControl single = true → single = '\t')
      ∀ value ∈ [Value.text content, .error content],
        (fits →
          (render alternate value).toList =
            alternate.pad ('\x60' :: kept ++ ['\x60'])) ∧
        (¬fits →
          (render alternate value).toList =
            alternate.pad (Quoted.text directive.flags.plus kept)) := by
  refine ⟨fun asciiOnly => ?_, fun directive content => ?_⟩
  · exact
      ⟨Quoted.quotes_text asciiOnly, Quoted.quotes_bytes asciiOnly,
        Quoted.quotes_character asciiOnly, Quoted.text_injective asciiOnly,
        Quoted.bytes_injective asciiOnly,
        Quoted.character_injective asciiOnly⟩
  · intro alternate kept fits value member
    have isText : value = .text content ∨ value = .error content := by
      simpa using member
    have isFits : Quoted.fitsRaw kept = true ↔ fits :=
      Quoted.fitsRaw_iff
    have isQ : alternate.verb = 'q' := rfl
    rw [toList_render, renderText_rawQuotes isQ rfl isText]
    exact
      ⟨fun raw => congrArg _ (if_pos (isFits.mpr raw)),
        fun escaped => congrArg _ (if_neg (mt isFits.mp escaped))⟩

end CaptureFormat.Standard
