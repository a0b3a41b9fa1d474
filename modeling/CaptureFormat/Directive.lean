namespace CaptureFormat

/-!
# Directives

A directive asks for one argument to be rendered: its verb says how, its flags,
width, and precision say in which form, and its name, if it has one, labels
the argument for whoever observes it.

A directive without a name is positional.  An empty name is still a name.
-/

/-- The marks that a directive can carry in front of its verb. -/
structure Flags where
  /-- Always show a sign; keep quoted text within ASCII. -/
  plus : Bool := false
  /-- Pad on the right. -/
  minus : Bool := false
  /-- Leave a space for a sign that is not shown. -/
  space : Bool := false
  /-- Use the alternate form. -/
  sharp : Bool := false
  /-- Pad with zeros. -/
  zero : Bool := false
  /-- The plus of the verb `v`: a verbose value. -/
  verbose : Bool := false
  /-- The sharp of the verb `v`: a value in source form. -/
  source : Bool := false
  deriving Repr, DecidableEq

/-- Everything that can be asked of a directive with a yes or a no. -/
inductive Flag where
  | plus
  | minus
  | space
  | sharp
  | zero
  | width
  | precision
  | name
  | verbose
  | source
  deriving Repr, DecidableEq

/-- The flag that a character stands for in a template. -/
def Flag.ofChar? : Char → Option Flag
  | '+' => some .plus
  | '-' => some .minus
  | ' ' => some .space
  | '#' => some .sharp
  | '0' => some .zero
  | _ => none

/-- A request to render one argument. -/
structure Directive where
  /-- The verb; NUL as long as none has been read. -/
  verb : Char := '\x00'
  /-- The name of the field, or nothing in a positional directive. -/
  name : Option String := none
  flags : Flags := {}
  /-- The least number of characters. -/
  width : Option Nat := none
  /-- The least number of digits, the number of places, or the greatest length. -/
  precision : Option Nat := none
  deriving Repr, DecidableEq

namespace Directive

/-- The greatest width and precision that a directive asks for. -/
def sizeLimit : Nat := 1000000

/-- A positional directive without flags. -/
def plain (verb : Char) : Directive :=
  { verb }

/-- A named directive without flags. -/
def named (name : String) (verb : Char) : Directive :=
  { verb, name := some name }

/-- The label for an observer: the name, or nothing. -/
def label (directive : Directive) : String :=
  directive.name.getD ""

/-- Whether the directive carries a flag. -/
def carries (directive : Directive) : Flag → Bool
  | .plus => directive.flags.plus
  | .minus => directive.flags.minus
  | .space => directive.flags.space
  | .sharp => directive.flags.sharp
  | .zero => directive.flags.zero
  | .width => directive.width.isSome
  | .precision => directive.precision.isSome
  | .name => directive.name.isSome
  | .verbose => directive.flags.verbose
  | .source => directive.flags.source

/-- Set one flag; a width, precision, or name that was missing is then 0 or empty. -/
def set (directive : Directive) : Flag → Directive
  | .plus => { directive with flags.plus := true }
  | .minus => { directive with flags.minus := true }
  | .space => { directive with flags.space := true }
  | .sharp => { directive with flags.sharp := true }
  | .zero => { directive with flags.zero := true }
  | .width => { directive with width := some (directive.width.getD 0) }
  | .precision => { directive with precision := some (directive.precision.getD 0) }
  | .name => { directive with name := some (directive.name.getD "") }
  | .verbose => { directive with flags.verbose := true }
  | .source => { directive with flags.source := true }

/-- Padding on the right leaves no place for zeros on the left. -/
def dropHiddenZero (directive : Directive) : Directive :=
  { directive with flags.zero := directive.flags.zero && !directive.flags.minus }

/-- Add flags; the minus takes the zero away, in whatever order they come. -/
def addFlags (directive : Directive) (flags : List Flag) : Directive :=
  (flags.foldl set directive).dropHiddenZero

/-- The same directive with a width of at most `sizeLimit`. -/
def withWidth (directive : Directive) (width : Nat) : Directive :=
  { directive with width := some (min width sizeLimit) }

/-- The same directive with a precision of at most `sizeLimit`. -/
def withPrecision (directive : Directive) (precision : Nat) : Directive :=
  { directive with precision := some (min precision sizeLimit) }

/-- Turn the plus and the sharp of the verb `v` into their forms for values. -/
def adaptToVerb (directive : Directive) : Directive :=
  if directive.verb = 'v' then
    { directive with
      flags.plus := false
      flags.sharp := false
      flags.verbose := directive.flags.verbose || directive.flags.plus
      flags.source := directive.flags.source || directive.flags.sharp }
  else
    directive

end Directive

end CaptureFormat
