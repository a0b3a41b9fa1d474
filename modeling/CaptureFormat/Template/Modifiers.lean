import CaptureFormat.Directive
import CaptureFormat.Template.Count

namespace CaptureFormat.Directive

/-!
# Modifiers in front of a verb

Flags, a width, and a precision may stand in front of a verb, in this order.
Each reader takes what belongs to it from the start of a text and leaves an
end part of that text.
-/

/-- Whether a character in front of the width is a flag. -/
def isFlagChar (character : Char) : Bool :=
  (Flag.ofChar? character).isSome

/-- The cap on a number in a template. -/
def countCap : UInt64 :=
  UInt64.ofNat sizeLimit

/-- Read flags. -/
def readFlags (directive : Directive) (text : List Char) : Directive × List Char :=
  let run := text.takeWhile isFlagChar
  (run.foldl (fun soFar character => soFar.addFlags (Flag.ofChar? character).toList) directive,
    text.dropWhile isFlagChar)

/-- Read a width, if there is one. -/
def readWidth (directive : Directive) (text : List Char) : Directive × List Char :=
  match Count.read? countCap text with
  | some (width, rest) => (directive.withWidth width.toNat, rest)
  | none => (directive, text)

/-- Read a point and the precision behind it, if there is a point; no digits mean 0. -/
def readPrecision (directive : Directive) (text : List Char) : Directive × List Char :=
  match text with
  | '.' :: afterPoint =>
      match Count.read? countCap afterPoint with
      | some (precision, rest) => (directive.withPrecision precision.toNat, rest)
      | none => (directive.withPrecision 0, afterPoint)
  | _ => (directive, text)

/-- Read all that may stand in front of a verb. -/
def readModifiers (directive : Directive) (text : List Char) : Directive × List Char :=
  let (directive, text) := directive.readFlags text
  let (directive, text) := directive.readWidth text
  directive.readPrecision text

/-- What follows the flags is an end part of the text. -/
theorem readFlags_suffix (directive : Directive) (text : List Char) :
    (directive.readFlags text).2 <:+ text :=
  List.dropWhile_suffix _

/-- What follows the width is an end part of the text. -/
theorem readWidth_suffix (directive : Directive) (text : List Char) :
    (directive.readWidth text).2 <:+ text := by
  unfold readWidth
  split
  · next read =>
      exact Count.read?_suffix read
  · exact List.suffix_rfl

/-- What follows the precision is an end part of the text. -/
theorem readPrecision_suffix (directive : Directive) (text : List Char) :
    (directive.readPrecision text).2 <:+ text := by
  unfold readPrecision
  split
  · split
    · next read =>
        exact (Count.read?_suffix read).trans (List.suffix_cons _ _)
    · exact List.suffix_cons _ _
  · exact List.suffix_rfl

/-- What follows the modifiers is an end part of the text. -/
theorem readModifiers_suffix (directive : Directive) (text : List Char) :
    (directive.readModifiers text).2 <:+ text := by
  let flagged := directive.readFlags text
  let sized := flagged.1.readWidth flagged.2
  exact (readPrecision_suffix sized.1 sized.2).trans
    ((readWidth_suffix flagged.1 flagged.2).trans (readFlags_suffix directive text))

end CaptureFormat.Directive
