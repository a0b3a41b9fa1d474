import CaptureFormat.Directive

namespace CaptureFormat.Directive

/-!
# The field that a conversion fills

A width is a least number of characters.  Text that is shorter is padded on
the left, or on the right with spaces if the directive has a minus.  A
precision of text is a greatest number of characters.
-/

/-- Pad text to the width, with a given fill on the left. -/
def padWith (directive : Directive) (fill : Char) (text : List Char) : List Char :=
  match directive.width with
  | none => text
  | some width =>
      if directive.flags.minus then text.rightpad width ' ' else text.leftpad width fill

/-- Pad text to the width, with zeros on the left if the directive asks for them. -/
def pad (directive : Directive) (text : List Char) : List Char :=
  directive.padWith (if directive.flags.zero then '0' else ' ') text

/-- Keep as many items as the precision says, or all. -/
def truncate (directive : Directive) (items : List α) : List α :=
  match directive.precision with
  | none => items
  | some count => items.take count

/-- Nothing but spaces, as many as the width says. -/
def blank (directive : Directive) : List Char :=
  List.replicate (directive.width.getD 0) ' '

/-- The sign of a number: a minus, or what the directive puts in its place. -/
def sign (directive : Directive) (negative : Bool) : List Char :=
  if negative then ['-']
  else if directive.flags.plus then ['+']
  else if directive.flags.space then [' ']
  else []

end CaptureFormat.Directive
